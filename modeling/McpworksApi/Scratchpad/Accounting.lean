import McpworksApi.Models.Db
import McpworksApi.Scratchpad.Filesystem
import McpworksApi.Session.Trace

/-! `ScratchpadService`: files are published and cleared, and the row of the agent holds the number of bytes that are
stored. The database is rolled back when a call raises, and the disk is not. -/

namespace McpworksApi.Scratchpad

open FileTree Files Models Py FilesystemBackend Session

def getQuotaBytes (tier : String) : ℕ :=
  if tier = "trial-agent" then 0
  else if tier = "pro-agent" then 100 * 1024 * 1024
  else if tier = "enterprise-agent" then 1024 * 1024 * 1024
  else if tier = "dedicated-agent" then 10 * 1024 * 1024 * 1024
  else 100 * 1024 * 1024

def getTtlDays (tier : String) : ℕ :=
  if tier = "trial-agent" then 0
  else if tier = "pro-agent" then 7
  else if tier = "enterprise-agent" ∨ tier = "dedicated-agent" then 30
  else 7

/-- What lies outside of the service: the time, a new token, `base64.b64decode`, the address of a view and the text of
a time. -/
structure PadEnv where
  now : Time
  token : String
  b64decode : String → Except String Bytes
  viewUrl : String → String → String
  isoformat : Time → String

def validateFilename (filename : String) : Except PadError Unit :=
  if filename = "" ∨ matchesFilename filename = false then
    .error (.validation ("Invalid filename: " ++ Py.repr filename))
  else if Char.ofNat 0 ∈ filename.toList then .error (.validation "Filename contains null bytes")
  else if Step.up ∈ steps filename then .error (.validation "Path traversal not allowed")
  else if maxPathDepth < (steps filename).length then
    .error (.validation ("Path too deep (max " ++ toString maxPathDepth ++ " levels): " ++ filename))
  else .ok ()

def validateFilenames (filenames : List String) : Except PadError Unit :=
  if 100 < filenames.length then
    .error (.validation ("Too many files: " ++ toString filenames.length ++ " (max 100)"))
  else if filenames = [] then .error (.validation "No files provided")
  else filenames.forM validateFilename

def decodeFileContent (env : PadEnv) (content : String) : Except PadError Bytes :=
  if startsWith content "base64:" then
    (env.b64decode (String.ofList (content.toList.drop 7))).mapError fun e =>
      .validation ("Invalid base64 content: " ++ e)
  else .ok (encode content)

def sizeOf (files : List (String × Bytes)) : ℕ := (files.map fun file => file.2.length).sum

def checkPublish (env : PadEnv) (agent : Agent) (files : List (String × String)) (mode tier : String) :
    Except PadError (List (String × Bytes)) := do
  if getQuotaBytes tier = 0 then
    .error (.notAvailable "Scratchpad is not available on the Trial tier. Upgrade to Pro.")
  else
    validateFilenames (files.map Prod.fst)
    let decoded ← files.mapM fun file => do pure (file.1, ← decodeFileContent env file.2)
    if mode = "replace" then
      if getQuotaBytes tier < sizeOf decoded then .error (.quotaExceeded 0 (getQuotaBytes tier) (sizeOf decoded))
      else .ok decoded
    else if getQuotaBytes tier < agent.scratchpadSizeBytes + sizeOf decoded then
      .error (.quotaExceeded agent.scratchpadSizeBytes (getQuotaBytes tier) (sizeOf decoded))
    else .ok decoded

structure World where
  db : Db
  disk : Disk

structure Published where
  url : String
  filesWritten : ℕ
  totalBytes : ℕ
  quotaRemainingBytes : ℕ
  expiresAt : String

def onBackend {α : Type} (m : Session Disk PadError α) : Session World PadError α := fun w =>
  ((m w.disk).1, { w with disk := (m w.disk).2 })

def loadAgent (agentId : ℕ) (w : World) : Except PadError Agent :=
  match w.db.agents.get? agentId with
  | none => .error .agentNotFound
  | some agent => .ok agent

def storePad (agentId : ℕ) (token : Option String) (size : ℕ) (updatedAt expiresAt : Option Time) (db : Db) : Db :=
  { db with agents := db.agents.update agentId fun a =>
      { a with scratchpadToken := token, scratchpadSizeBytes := size, scratchpadUpdatedAt := updatedAt,
               scratchpadExpiresAt := expiresAt } }

def ensureToken (env : PadEnv) (agent : Agent) : String :=
  match agent.scratchpadToken with
  | none => env.token
  | some token => if token = "" then env.token else token

def day : Time := 86400 * 1000000

/-- The size is kept in a column of four bytes. -/
def maxSizeBytes : ℕ := 2147483647

def checkSize (size : ℕ) : Except PadError Unit :=
  if size ≤ maxSizeBytes then .ok ()
  else .error (.dataError ("invalid input for query argument: " ++ toString size ++ " (value out of int32 range)"))

/-- The part of `publish` after the files are written. -/
def publishRow (env : PadEnv) (agentId : ℕ) (agent : Agent) (decoded : List (String × Bytes)) (tier : String)
    (total : ℕ) : Session World PadError Published := do
  let expiresAt := env.now + getTtlDays tier * day
  fetch fun _ => checkSize total
  write fun w =>
    { w with db := storePad agentId (some (ensureToken env agent)) total (some env.now) (some expiresAt) w.db }
  pure
    { url := env.viewUrl agent.name (ensureToken env agent), filesWritten := decoded.length, totalBytes := total,
      quotaRemainingBytes := getQuotaBytes tier - total, expiresAt := env.isoformat expiresAt }

def publish (backend : FilesystemBackend) (env : PadEnv) (agentId : ℕ) (files : List (String × String))
    (mode tier : String) (uuid : ℕ) : Session World PadError Published := do
  let agent ← fetch (loadAgent agentId)
  let decoded ← fetch fun _ => checkPublish env agent files mode tier
  let total ← onBackend (backend.writeFiles agentId decoded mode uuid)
  publishRow env agentId agent decoded tier total

def clear (backend : FilesystemBackend) (agentId : ℕ) : Session World PadError Unit := do
  let agent ← fetch (loadAgent agentId)
  onBackend (backend.clear agentId)
  write fun w => { w with db := storePad agentId agent.scratchpadToken 0 none none w.db }

inductive ServiceCall
  | publish (agentId : ℕ) (files : List (String × String)) (mode : String) (uuid : ℕ)
  | clear (agentId : ℕ)

def ServiceCall.run (backend : FilesystemBackend) (tierOf : ℕ → String) (env : PadEnv) :
    ServiceCall → Session World PadError Unit
  | .publish agentId files mode uuid => do
    let _ ← Scratchpad.publish backend env agentId files mode (tierOf agentId) uuid
  | .clear agentId => Scratchpad.clear backend agentId

def performPad (backend : FilesystemBackend) (tierOf : ℕ → String) (c : PadEnv × ServiceCall) :
    Session World PadError Unit :=
  transaction (fun before after => { after with db := before.db }) (c.2.run backend tierOf c.1)

def Accounted (backend : FilesystemBackend) (tierOf : ℕ → String) (w : World) : Prop :=
  ∀ agent ∈ w.db.agents.rows, agent.scratchpadSizeBytes = w.disk.total List.length (backend.agentDir agent.id) ∧
    agent.scratchpadSizeBytes ≤ getQuotaBytes (tierOf agent.id)

instance (backend : FilesystemBackend) (tierOf : ℕ → String) (w : World) : Decidable (Accounted backend tierOf w) :=
  inferInstanceAs (Decidable (∀ agent ∈ w.db.agents.rows, _))

/-- Files with these names can be written into a directory: no name is on the way to another, no file is on the way to
one of them, none of them is a directory, and the operating system refuses none. -/
structure Writable (backend : FilesystemBackend) (disk : Disk) (dir : List FileName)
    (names : List String) : Prop where
  way : ∀ name ∈ names, Clear backend.refuses disk (dir ++ place name).dropLast
  accepted : ∀ name ∈ names, backend.refuses (dir ++ place name) = false
  notDir : ∀ name ∈ names, disk.isDir (dir ++ place name) = false
  apart : ∀ name ∈ names, ∀ name' ∈ names, ¬ Below (place name) (place name')

def contentBytes (env : PadEnv) (files : List (String × String)) : ℕ :=
  (files.map fun file => ((decodeFileContent env file.2).toOption.getD []).length).sum

/-- The key that is drawn for a new directory has not been used, the files that are appended can be written, the bytes
that are then stored can be counted in the column, and a directory that is cleared can be made again. -/
def Smooth (backend : FilesystemBackend) (w : World) (c : PadEnv × ServiceCall) : Prop :=
  match c.2 with
  | .publish agentId files mode uuid =>
    if mode = "replace" then w.disk.find? (backend.tmpDir uuid) = none ∧ contentBytes c.1 files ≤ maxSizeBytes
    else Writable backend w.disk (backend.agentDir agentId) (files.map Prod.fst) ∧
      w.disk.total List.length (backend.agentDir agentId) + contentBytes c.1 files ≤ maxSizeBytes
  | .clear agentId => ∀ q, q <+: backend.agentDir agentId → backend.refuses q = false

theorem validFilename_of_ok {filename : String} (h : validateFilename filename = .ok ()) :
    ValidFilename filename := by
  unfold validateFilename at h
  split_ifs at h with hf hn hup hd
  rw [not_or, Bool.not_eq_false] at hf
  exact ⟨hf, hn, hup, Nat.not_lt.mp hd⟩

theorem validateFilenames_eq_ok {fi : List String} (h : validateFilenames fi = .ok ()) :
    fi ≠ [] ∧ ∀ filename ∈ fi, ValidFilename filename := by
  unfold validateFilenames at h
  split_ifs at h with hm hn
  refine ⟨hn, ?_⟩
  clear hm hn
  induction fi with
  | nil => exact List.forall_mem_nil _
  | cons filename fi ih =>
    obtain ⟨u, hf, hr⟩ := bind_eq_ok.mp h
    exact List.forall_mem_cons.mpr ⟨validFilename_of_ok hf, ih hr⟩

variable {files : List (String × String)} {agentId : ℕ} {env : PadEnv} {mode : String}

theorem names_of_decoded {dec : List (String × Bytes)}
    (h : (files.mapM fun file => do pure (file.1, ← decodeFileContent env file.2)) = Except.ok dec) :
    dec.map Prod.fst = files.map Prod.fst ∧ sizeOf dec = contentBytes env files := by
  induction files generalizing dec with
  | nil =>
    cases h
    exact ⟨rfl, rfl⟩
  | cons file files ih =>
    rw [List.mapM_cons] at h
    obtain ⟨first, hf, h⟩ := bind_eq_ok.mp h
    obtain ⟨rest, hr, h⟩ := bind_eq_ok.mp h
    obtain ⟨cs, hcs, hf⟩ := bind_eq_ok.mp hf
    cases hf
    cases h
    obtain ⟨hn, hs⟩ := ih hr
    refine ⟨by rw [List.map_cons, List.map_cons, hn], ?_⟩
    unfold sizeOf contentBytes at hs ⊢
    rw [List.map_cons, List.map_cons, List.sum_cons, List.sum_cons, hs, hcs]
    rfl

theorem checkPublish_eq_ok {ag : Agent} {tier : String}
    {dec : List (String × Bytes)} (h : checkPublish env ag files mode tier = .ok dec) :
    dec.map Prod.fst = files.map Prod.fst ∧ sizeOf dec = contentBytes env files ∧ files.map Prod.fst ≠ [] ∧
      (∀ fi ∈ files.map Prod.fst, ValidFilename fi) ∧
      (if mode = "replace" then sizeOf dec else ag.scratchpadSizeBytes + sizeOf dec) ≤ getQuotaBytes tier := by
  unfold checkPublish at h
  split at h
  · cases h
  obtain ⟨u, hv, h⟩ := bind_eq_ok.mp h
  obtain ⟨fs', hd, h⟩ := bind_eq_ok.mp h
  obtain ⟨hn, hna⟩ := validateFilenames_eq_ok hv
  obtain ⟨hm, hs⟩ := names_of_decoded hd
  split_ifs at h with hmo hmr hmr
  · cases h
    exact ⟨hm, hs, hn, hna, by rw [if_pos hmo]; omega⟩
  · cases h
    exact ⟨hm, hs, hn, hna, by rw [if_neg hmo]; omega⟩

variable {backend : FilesystemBackend} {disk disk' : Disk} {dir : List FileName}

theorem writeOne_returns {file : String × Bytes} (hd : dir ≠ []) (hn : ValidFilename file.1)
    (hw : Clear backend.refuses disk (dir ++ place file.1).dropLast)
    (ha : backend.refuses (dir ++ place file.1) = false) (hno : disk.isDir (dir ++ place file.1) = false) :
    Wp (backend.writeOne dir file)
      (fun _ disk' => ∀ q, disk'.isDir q = true → disk.isDir q = true ∨ q <+: (dir ++ place file.1).dropLast)
      (fun _ _ => False) disk := by
  have hp := place_ne_nil hn.form.2 hn.up
  refine Wp.fetch_bind (fun e he => ?_) fun target ht => ?_
  · rw [hn.validatePath hd] at he
    cases he
  obtain ⟨-, -, rfl⟩ := validatePath_eq_ok ht
  apply Wp.bind
  apply Wp.mapError
  refine (makeDirs_wp _ disk).mono (fun _ disk₁ h₁ => ?_) fun _ _ h => h.2.2 hw
  obtain ⟨hg, hpa⟩ := h₁
  have hn₁ : disk₁.isDir (dir ++ place file.1) = false := by
    have hpo := List.length_pos_of_ne_nil hp
    exact hg.isDir_eq_false hno (by simp only [List.length_dropLast, List.length_append]; omega)
  apply Wp.mapError
  refine (writeBytes_wp _ _ disk₁).mono (fun _ disk₂ h₂ => ?_) fun _ _ h => h.2 ⟨ha, hn₁, hpa⟩
  intro q hq
  rw [isDir_of_written h₂.2 hn₁] at hq
  exact hg.new q hq

theorem Writable.tail {file : String × Bytes} {names : List String} (h : Writable backend disk dir (file.1 :: names))
    (hw : Wrote dir [file] disk disk')
    (hd : ∀ q, disk'.isDir q = true → disk.isDir q = true ∨ q <+: (dir ++ place file.1).dropLast) :
    Writable backend disk' dir names := by
  have hpl := (hw.named file List.mem_cons_self).2
  refine ⟨fun name hn q hq => ?_, fun name hn => h.accepted name (List.mem_cons_of_mem _ hn),
    fun name hn => ?_, fun name hn name' hn' =>
      h.apart name (List.mem_cons_of_mem _ hn) name' (List.mem_cons_of_mem _ hn')⟩
  · obtain ⟨hf, hr⟩ := h.way name (List.mem_cons_of_mem _ hn) q hq
    refine ⟨?_, hr⟩
    rw [hw.file]
    change Function.update disk.fileAt? (dir ++ place file.1) (some file.2) q = none
    rw [Function.update_of_ne, hf]
    -- the new file would be on the way to the other one
    rintro rfl
    have hp := hq.trans <| List.dropLast_prefix _
    rw [List.prefix_append_right_inj] at hp
    refine h.apart file.1 List.mem_cons_self name (List.mem_cons_of_mem _ hn) ⟨hp, fun heq => ?_⟩
    have hl := hq.length_le
    have hpo := List.length_pos_of_ne_nil hpl
    rw [heq] at hl
    simp only [List.length_dropLast, List.length_append] at hl
    omega
  · rw [Bool.eq_false_iff]
    intro his
    rcases hd _ his with ho | hne
    · rw [h.notDir name (List.mem_cons_of_mem _ hn)] at ho
      cases ho
    · -- the other file would be on the way to the new one
      have hp := hne.trans <| List.dropLast_prefix _
      rw [List.prefix_append_right_inj] at hp
      refine h.apart name (List.mem_cons_of_mem _ hn) file.1 List.mem_cons_self ⟨hp, fun heq => ?_⟩
      have hl := hne.length_le
      have hpo := List.length_pos_of_ne_nil hpl
      rw [← heq] at hl
      simp only [List.length_dropLast, List.length_append] at hl
      omega

theorem writeEach_returns {files : List (String × Bytes)} (hd : dir ≠ [])
    (hn : ∀ fi ∈ files.map Prod.fst, ValidFilename fi)
    (hw : Writable backend disk dir (files.map Prod.fst)) :
    Wp (backend.writeEach dir files) (fun _ _ => True) (fun _ _ => False) disk := by
  induction files generalizing disk with
  | nil => exact Wp.pure trivial
  | cons file files ih =>
    rw [List.map_cons] at hn hw
    have ho := writeOne_returns hd (hn file.1 List.mem_cons_self) (hw.way file.1 List.mem_cons_self)
      (hw.accepted file.1 List.mem_cons_self) (hw.notDir file.1 List.mem_cons_self)
    apply Wp.bind
    refine (ho.and (writeOne_wp backend dir file disk)).mono (fun _ disk₁ h₁ => ?_) fun _ _ h => h.1
    exact ih (fun fi hf => hn fi (List.mem_cons_of_mem _ hf)) (hw.tail h₁.2 h₁.1)

theorem appendFiles_returns {files : List (String × Bytes)} (hni : files.map Prod.fst ≠ [])
    (hna : ∀ fi ∈ files.map Prod.fst, ValidFilename fi)
    (hw : Writable backend disk (backend.agentDir agentId) (files.map Prod.fst)) :
    Wp (backend.appendFiles agentId files) (fun _ _ => True) (fun _ _ => False) disk := by
  have hp : ∀ fi ∈ files.map Prod.fst, place fi ≠ [] := fun fi hf =>
    place_ne_nil (hna fi hf).form.2 (hna fi hf).up
  have hpr : ∀ fi ∈ files.map Prod.fst,
      backend.agentDir agentId <+: (backend.agentDir agentId ++ place fi).dropLast := by
    intro fi hf
    rw [List.dropLast_append_of_ne_nil (hp fi hf)]
    exact List.prefix_append _ _
  have hc : Clear backend.refuses disk (backend.agentDir agentId) := by
    obtain ⟨fi, hf⟩ := List.exists_mem_of_ne_nil _ hni
    exact fun q hq => hw.way fi hf q (hq.trans (hpr fi hf))
  apply Wp.bind
  apply Wp.mapError
  refine (makeDirs_wp _ disk).mono (fun _ disk₁ h₁ => ?_) fun _ _ h => h.2.2 hc
  obtain ⟨hg, -⟩ := h₁
  refine writeEach_returns (agentDir_ne_nil backend agentId) hna
    ⟨fun name hn q hq => ?_, hw.accepted, fun name hn => ?_, hw.apart⟩
  · rw [hg.file q]
    exact hw.way name hn q hq
  · have hpo := List.length_pos_of_ne_nil (hp name hn)
    exact hg.isDir_eq_false (hw.notDir name hn) (by simpa using hpo)

theorem calcSize_eq_total (disk : Disk) (dir : List FileName) : calcSize disk dir = disk.total List.length dir := by
  unfold calcSize
  split
  · rename_i hn
    rw [Option.isNone_iff_eq_none] at hn
    refine (Tree.total_eq_zero List.length fun p hp => ?_).symm
    exact (Tree.find?_eq_none.mp (Tree.find?_eq_none_of_isPrefix hn hp.1)).2
  · rfl

theorem appendFiles_wp (backend : FilesystemBackend) (agentId : ℕ) (files : List (String × Bytes)) (disk : Disk) :
    Wp (backend.appendFiles agentId files) (fun _ => Wrote (backend.agentDir agentId) files disk)
      (fun _ _ => True) disk := by
  apply Wp.bind
  apply Wp.mapError
  refine (makeDirs_wp _ disk).mono (fun _ disk₁ h₁ => ?_) fun _ _ _ => trivial
  refine (writeEach_wp backend (backend.agentDir agentId) files disk₁).mono (fun _ disk₂ h₂ => ?_)
    fun _ _ _ => trivial
  exact (Wrote.of_grown h₁.1).trans h₂

structure Counted (backend : FilesystemBackend) (agentId : ℕ) (most : ℕ) (disk : Disk) (size : ℕ)
    (disk' : Disk) : Prop where
  outside : ∀ q, ¬ backend.agentDir agentId <+: q → disk'.fileAt? q = disk.fileAt? q
  total : size = disk'.total List.length (backend.agentDir agentId)
  le : size ≤ most

theorem replaceFiles_counted {uuid : ℕ} (files : List (String × Bytes))
    (hf : disk.find? (backend.tmpDir uuid) = none) :
    Wp (backend.writeFiles agentId files "replace" uuid) (Counted backend agentId (sizeOf files) disk)
      (fun _ disk' => ∀ q, disk'.fileAt? q = disk.fileAt? q) disk := by
  unfold writeFiles
  rw [if_pos rfl]
  apply Wp.bind
  refine (replaceFiles_wp hf).mono (fun _ disk' h => ?_) fun _ _ h => h.1
  have ht := calcSize_eq_total disk' (backend.agentDir agentId)
  exact ⟨h.outside, ht, ht.trans_le h.size⟩

theorem appendFiles_counted {files : List (String × Bytes)} (uuid : ℕ)
    (hm : mode ≠ "replace") (hn : files.map Prod.fst ≠ [])
    (hna : ∀ fi ∈ files.map Prod.fst, ValidFilename fi)
    (hw : Writable backend disk (backend.agentDir agentId) (files.map Prod.fst)) :
    Wp (backend.writeFiles agentId files mode uuid)
      (Counted backend agentId (disk.total List.length (backend.agentDir agentId) + sizeOf files) disk)
      (fun _ _ => False) disk := by
  unfold writeFiles
  rw [if_neg hm]
  apply Wp.bind
  have hr := appendFiles_returns hn hna hw
  refine (hr.and (appendFiles_wp backend agentId files disk)).mono (fun _ disk' h => ?_) fun _ _ h => h.1
  have ht := calcSize_eq_total disk' (backend.agentDir agentId)
  refine ⟨fun q hq => ?_, ht, ht.trans_le h.2.size⟩
  rw [h.2.file, effects_of_not_isPrefix hq]

variable {tierOf : ℕ → String} {w : World}

theorem Accounted.store (h : Accounted backend tierOf w) {size : ℕ}
    (ho : ∀ q, ¬ backend.agentDir agentId <+: q → disk'.fileAt? q = w.disk.fileAt? q)
    (hs : size = disk'.total List.length (backend.agentDir agentId)) (hqu : size ≤ getQuotaBytes (tierOf agentId))
    (tk : Option String) (ua ea : Option Time) :
    Accounted backend tierOf { db := storePad agentId tk size ua ea w.db, disk := disk' } := by
  intro ag ha
  obtain ⟨before, hb, hr⟩ := List.mem_map.mp ha
  dsimp only at hr
  split at hr <;> rename_i hid <;> rw [decide_eq_true_iff] at hid <;> subst hr
  · have hid : before.id = agentId := hid
    rw [← hid] at hs hqu
    exact ⟨hs, hqu⟩
  · have ht : disk'.total List.length (backend.agentDir before.id) =
        w.disk.total List.length (backend.agentDir before.id) :=
      Tree.total_congr List.length fun q hq => ho q (not_agentDir_of_ne hid hq.1)
    exact ⟨(h before hb).1.trans ht.symm, (h before hb).2⟩

theorem Accounted.sameFiles (h : Accounted backend tierOf w) (hf : ∀ q, disk'.fileAt? q = w.disk.fileAt? q) :
    Accounted backend tierOf { w with disk := disk' } := by
  intro ag ha
  have ht : disk'.total List.length (backend.agentDir ag.id) =
      w.disk.total List.length (backend.agentDir ag.id) := Tree.total_congr List.length fun q _ => hf q
  exact ⟨(h ag ha).1.trans ht.symm, (h ag ha).2⟩

theorem onBackend_wp {α : Type} {m : Session Disk PadError α} {Q : α → World → Prop} {E : PadError → World → Prop}
    (h : Wp m (fun a disk' => Q a { w with disk := disk' }) (fun e disk' => E e { w with disk := disk' }) w.disk) :
    Wp (onBackend m) Q E w := by
  unfold Wp at h ⊢
  unfold onBackend
  rcases hm : m w.disk with ⟨e | a, disk'⟩ <;> rw [hm] at h <;> exact h

theorem loadAgent_eq_ok {agent : Agent} (h : loadAgent agentId w = .ok agent) :
    w.db.agents.get? agentId = some agent := by
  unfold loadAgent at h
  split at h
  · cases h
  · rename_i ag' hg
    cases h
    exact hg

theorem publish_accounted {uuid : ℕ}
    (h : Accounted backend tierOf w) (hs : Smooth backend w (env, .publish agentId files mode uuid)) :
    Wp (publish backend env agentId files mode (tierOf agentId) uuid) (fun _ => Accounted backend tierOf)
      (fun _ w' => Accounted backend tierOf { w' with db := w.db }) w := by
  refine Wp.fetch_bind (fun e _ => h) fun ag ha => ?_
  refine Wp.fetch_bind (fun e _ => h) fun decoded hd => ?_
  obtain ⟨hma, hsi, hn, hna, hq⟩ := checkPublish_eq_ok hd
  have hg := loadAgent_eq_ok ha
  obtain ⟨hme, hid⟩ := Table.get?_eq_some.mp hg
  have hid : ag.id = agentId := hid
  have hr := (h ag hme).1
  rw [hid] at hr
  apply Wp.bind
  apply onBackend_wp
  have hst : ∀ {most total : ℕ} {disk' : Disk} {E : PadError → World → Prop},
      Counted backend agentId most w.disk total disk' → most ≤ maxSizeBytes → most ≤ getQuotaBytes (tierOf agentId) →
        Wp (publishRow env agentId ag decoded (tierOf agentId) total) (fun _ => Accounted backend tierOf) E
          { w with disk := disk' } := by
    intro most total disk' E hc hmost hq
    refine Wp.fetch_bind (fun e he => ?_) fun _ _ => .write_bind (.pure ?_)
    · rw [checkSize, if_pos (hc.le.trans hmost)] at he
      cases he
    · exact h.store hc.outside hc.total (hc.le.trans hq) _ _ _
  unfold Smooth at hs
  dsimp only at hs
  rw [← hsi] at hs
  by_cases hm : mode = "replace"
  · subst hm
    rw [if_pos rfl] at hq hs
    refine (replaceFiles_counted decoded hs.1).mono (fun _ _ hc => hst hc hs.2 hq) fun _ disk' hfi => ?_
    exact h.sameFiles hfi
  · rw [if_neg hm, hr] at hq
    rw [if_neg hm, ← hma] at hs
    rw [← hma] at hn hna
    have hca := appendFiles_counted uuid hm hn hna hs.1
    exact hca.mono (fun _ _ hc => hst hc hs.2 hq) fun _ _ hfa => hfa.elim

theorem clear_accounted (h : Accounted backend tierOf w) (hs : Smooth backend w (env, .clear agentId)) :
    Wp (clear backend agentId) (fun _ => Accounted backend tierOf)
      (fun _ w' => Accounted backend tierOf { w' with db := w.db }) w := by
  refine Wp.fetch_bind (fun e _ => h) fun ag _ => ?_
  apply Wp.bind
  apply onBackend_wp
  refine (clear_wp backend agentId w.disk).mono (fun _ disk' hc => ?_) fun _ disk' hf => ?_
  · have ho : ∀ q, ¬ backend.agentDir agentId <+: q → disk'.fileAt? q = w.disk.fileAt? q := by
      intro q hq
      rw [hc q, if_neg hq]
    have hsi : disk'.total List.length (backend.agentDir agentId) = 0 :=
      Tree.total_eq_zero List.length fun q hq => by rw [hc q, if_pos hq.1]
    exact h.store ho hsi.symm (Nat.zero_le _) _ _ _
  · rcases hf with rfl | ⟨-, q, hq, hr⟩
    · exact h
    · rw [hs q hq] at hr
      cases hr

/-- In every history of calls that go smoothly, the row of every agent holds the size of its directory. -/
theorem scratchpad_accounted (backend : FilesystemBackend) (tierOf : ℕ → String) {w₀ w : World}
    {history : List ((PadEnv × ServiceCall) × Except PadError Unit)} (hstart : Accounted backend tierOf w₀)
    (hrun : GuardedRun (performPad backend tierOf) (Smooth backend) w₀ history w) : Accounted backend tierOf w := by
  refine hrun.invariant hstart fun w call h hs => ?_
  obtain ⟨env, call⟩ := call
  apply Wp.always
  apply Wp.transaction
  cases call with
  | publish agentId files mode uuid =>
    apply Wp.bind
    exact (publish_accounted h hs).mono (fun _ _ h => Wp.pure h) fun _ _ h => h
  | clear agentId => exact clear_accounted h hs

def plainPadEnv : PadEnv where
  now := 0
  token := "token"
  b64decode _ := .error "Invalid base64-encoded string"
  viewUrl name token := name ++ "/view/" ++ token ++ "/"
  isoformat _ := "2026-01-08T00:00:00"

def newPad : World where
  db := { agents := .single { id := 1, accountId := 1, namespaceId := 1, name := "bot" } }
  disk := Tree.empty

def proPad : ℕ → String := fun _ => "pro-agent"

def appendPages (files : List (String × String)) : PadEnv × ServiceCall := (plainPadEnv, .publish 1 files "append" 7)

/-- The second file needs a directory where the first is: the call raises when the first has been written. -/
theorem conflict_uncounted : Accounted plainBackend proPad newPad ∧
      (performPad plainBackend proPad (appendPages [("a", "x"), ("a/b", "y")]) newPad).1.toOption = none ∧
      ¬ Accounted plainBackend proPad (performPad plainBackend proPad
        (appendPages [("a", "x"), ("a/b", "y")]) newPad).2 := by
  decide +kernel

theorem pages_accounted : Writable plainBackend newPad.disk (plainBackend.agentDir 1) ["a", "b/c"] ∧
      Accounted plainBackend proPad (performPad plainBackend proPad
        (appendPages [("a", "x"), ("b/c", "yz")]) newPad).2 ∧
      (performPad plainBackend proPad (appendPages [("a", "x"), ("b/c", "yz")]) newPad).2.db.agents.rows.map
        (·.scratchpadSizeBytes) = [3] := by
  have hw : Writable plainBackend newPad.disk (plainBackend.agentDir 1) ["a", "b/c"] := by
    refine ⟨fun name _ q _ => ⟨?_, rfl⟩, fun _ _ => rfl, ?_, ?_⟩
    · cases q <;> rfl
    · decide +kernel
    · decide +kernel
  have hs : GuardedRun (performPad plainBackend proPad) (Smooth plainBackend) newPad [] newPad := .nil
  have hr := hs.step (appendPages [("a", "x"), ("b/c", "yz")]) ⟨hw, by decide +kernel⟩
  exact ⟨hw, scratchpad_accounted plainBackend proPad (by decide +kernel) hr, by decide +kernel⟩

end McpworksApi.Scratchpad
