import McpworksApi.Scratchpad.Filesystem

/-! The files of an agent over whole histories. Every path that the backend writes or reads lies strictly inside the
directory of the agent, so that the calls of one agent do not touch the files of another. -/

namespace McpworksApi.Scratchpad

open FileTree Files Py FilesystemBackend

structure Write where
  agentId : ℕ
  name : String
  contents : Bytes

def latest (past : List Write) (agentId : ℕ) (path : Path) : Option Bytes :=
  (past.reverse.find? fun w => w.agentId = agentId ∧ steps w.name = path).map (·.contents)

theorem latest_append (past ls : List Write) (agentId : ℕ) (path : Path) :
    latest (past ++ ls) agentId path = (latest ls agentId path).or (latest past agentId path) := by
  unfold latest
  rw [List.reverse_append, List.find?_append, Option.map_or]

theorem latest_singleton (w : Write) (agentId : ℕ) (path : Path) :
    latest [w] agentId path = if w.agentId = agentId ∧ steps w.name = path then some w.contents else none := by
  unfold latest
  by_cases h : w.agentId = agentId ∧ steps w.name = path <;> simp [h]

theorem latest_eq_none_of_ne {l : List Write} {agentId : ℕ} (h : ∀ w ∈ l, w.agentId ≠ agentId) (path : Path) :
    latest l agentId path = none := by
  unfold latest
  rw [Option.map_eq_none_iff, List.find?_eq_none]
  intro w hw
  simp [h w (List.mem_reverse.mp hw)]

def writesOf (agentId : ℕ) (files : List (String × Bytes)) : List Write :=
  files.map fun file => ⟨agentId, file.1, file.2⟩

theorem path_of_injective : Function.Injective Path.of := by
  intro p q h
  exact List.map_injective_iff.mpr (fun _ _ => Step.down.inj) h

theorem effects_eq_latest {dir : List FileName} {files : List (String × Bytes)} {f : List FileName → Option Bytes}
    (hn : ∀ file ∈ files, Path.of (place file.1) = steps file.1 ∧ place file.1 ≠ []) (agentId : ℕ)
    (r : List FileName) :
    effects dir files f (dir ++ r) = (latest (writesOf agentId files) agentId (Path.of r)).or (f (dir ++ r)) := by
  induction files generalizing f with
  | nil => rfl
  | cons file files ih =>
    have hf := (hn file List.mem_cons_self).1
    have hre := ih (f := Function.update f (dir ++ place file.1) (some file.2))
      fun file' hf' => hn file' (List.mem_cons_of_mem _ hf')
    have hs : writesOf agentId (file :: files) = [⟨agentId, file.1, file.2⟩] ++ writesOf agentId files := rfl
    rw [hs, latest_append, latest_singleton, Option.or_assoc]
    change effects dir files (Function.update f (dir ++ place file.1) (some file.2)) (dir ++ r) = _
    rw [hre]
    congr 1
    simp only [true_and]
    by_cases hr : r = place file.1
    · rw [hr, Function.update_self, if_pos hf.symm]
      rfl
    · have hne : steps file.1 ≠ Path.of r := fun heq => hr (path_of_injective (hf.trans heq).symm)
      rw [Function.update_of_ne (by simpa using hr), if_neg hne]
      rfl

inductive PadCall
  | writeFiles (agentId : ℕ) (files : List (String × Bytes)) (mode : String) (uuid : ℕ)
  | clear (agentId : ℕ)
  | deleteAll (agentId : ℕ)

namespace PadCall

def agentId : PadCall → ℕ
  | writeFiles agentId _ _ _ | clear agentId | deleteAll agentId => agentId

def run (backend : FilesystemBackend) : PadCall → Session Disk PadError Unit
  | writeFiles agentId files mode uuid => do
    let _ ← backend.writeFiles agentId files mode uuid
  | clear agentId => backend.clear agentId
  | deleteAll agentId => backend.deleteAll agentId

def Fresh (backend : FilesystemBackend) (disk : Disk) : PadCall → Prop
  | writeFiles _ _ mode uuid => mode = "replace" → disk.find? (backend.tmpDir uuid) = none
  | _ => True

/-- The writes that take effect: all files of a call that replaces and returns, and the files that a call that appends
writes before it fails. -/
def effective (backend : FilesystemBackend) (disk : Disk) : PadCall → List Write
  | writeFiles agentId files mode uuid =>
    if mode = "replace" then
      match (backend.replaceFiles agentId files uuid disk).1 with
      | .ok _ => writesOf agentId files
      | .error _ => []
    else writesOf agentId (backend.appended agentId files disk)
  | _ => []

end PadCall

/-- A run of calls with the writes that took effect. -/
inductive PadRun (backend : FilesystemBackend) (disk₀ : Disk) : List Write → Disk → Prop
  | start : PadRun backend disk₀ [] disk₀
  | step {past : List Write} {disk : Disk} (call : PadCall) (h : PadRun backend disk₀ past disk)
    (hfresh : call.Fresh backend disk) :
    PadRun backend disk₀ (past ++ call.effective backend disk) (call.run backend disk).2

/-- Calls for one agent stay in its directory. -/
structure Confined (backend : FilesystemBackend) (past : List Write) (disk : Disk) : Prop where
  inside : ∀ filename dir target, validatePath filename dir = .ok target → Below dir target
  frame : ∀ call : PadCall, call.Fresh backend disk → ∀ q, ¬ Below (backend.agentDir call.agentId) q →
    (call.run backend disk).2.fileAt? q = disk.fileAt? q
  others : ∀ call : PadCall, call.Fresh backend disk → ∀ agentId, agentId ≠ call.agentId → ∀ path,
    backend.readFile agentId path (call.run backend disk).2 = backend.readFile agentId path disk
  reads : ∀ agentId path contents, backend.readFile agentId path disk = some contents →
    (∃ p, Below (backend.agentDir agentId) p ∧ disk.fileAt? p = some contents) ∧
      latest past agentId (steps path) = some contents

def Faithful (backend : FilesystemBackend) (past : List Write) (disk : Disk) : Prop :=
  ∀ agentId r contents, disk.fileAt? (backend.agentDir agentId ++ r) = some contents →
    r ≠ [] ∧ latest past agentId (Path.of r) = some contents

variable {backend : FilesystemBackend} {past : List Write} {disk disk' : Disk} {agentId : ℕ}
  {files : List (String × Bytes)}

/-- What a call does to the files: nothing outside the directory of the agent, and inside it either files are written
one by one, or all are replaced, or some are lost. -/
inductive Changed (backend : FilesystemBackend) (agentId : ℕ) (disk disk' : Disk) : List Write → Prop
  | wrote {files : List (String × Bytes)} (h : Wrote (backend.agentDir agentId) files disk disk') :
    Changed backend agentId disk disk' (writesOf agentId files)
  | replaced {files : List (String × Bytes)} (h : Replaced backend agentId files disk disk') :
    Changed backend agentId disk disk' (writesOf agentId files)
  | lost (houtside : ∀ q, ¬ backend.agentDir agentId <+: q → disk'.fileAt? q = disk.fileAt? q)
    (hinside : ∀ q c, disk'.fileAt? q = some c → disk.fileAt? q = some c) : Changed backend agentId disk disk' []

theorem Changed.outside {ws : List Write} (h : Changed backend agentId disk disk' ws) {q : List FileName}
    (hq : ¬ backend.agentDir agentId <+: q) : disk'.fileAt? q = disk.fileAt? q := by
  cases h with
  | wrote h => rw [h.file, effects_of_not_isPrefix hq]
  | replaced h => exact h.outside q hq
  | lost ho _ => exact ho q hq

theorem Changed.agentId_of_mem {ws : List Write} (h : Changed backend agentId disk disk' ws) :
    ∀ w ∈ ws, w.agentId = agentId := by
  have hwr : ∀ files, ∀ w ∈ writesOf agentId files, w.agentId = agentId := by
    intro files w hw
    obtain ⟨file, -, rfl⟩ := List.mem_map.mp hw
    rfl
  cases h with
  | wrote h => exact hwr _
  | replaced h => exact hwr _
  | lost _ _ => exact List.forall_mem_nil _

theorem latest_writesOf_nil (hn : ∀ file ∈ files, Path.of (place file.1) = steps file.1 ∧ place file.1 ≠ []) :
    latest (writesOf agentId files) agentId (Path.of []) = none := by
  unfold latest
  rw [Option.map_eq_none_iff, List.find?_eq_none]
  intro w hw
  obtain ⟨file, hf, rfl⟩ := List.mem_map.mp (List.mem_reverse.mp hw)
  obtain ⟨hs, hp⟩ := hn file hf
  simp only [true_and, decide_eq_true_eq]
  intro heq
  exact hp (path_of_injective (hs.trans heq))

theorem Faithful.changed (h : Faithful backend past disk) {ws : List Write}
    (hc : Changed backend agentId disk disk' ws) : Faithful backend (past ++ ws) disk' := by
  intro j r cs hf
  rw [latest_append]
  by_cases hj : agentId = j
  · subst hj
    cases hc with
    | @wrote files hwr =>
      rw [hwr.file, effects_eq_latest hwr.named agentId] at hf
      rcases Option.or_eq_some_iff.mp hf with hn | ⟨hno, ho⟩
      · refine ⟨?_, by rw [hn]; rfl⟩
        rintro rfl
        rw [latest_writesOf_nil hwr.named] at hn
        cases hn
      · obtain ⟨hr, hl⟩ := h agentId r cs ho
        exact ⟨hr, by rw [hno, hl]; rfl⟩
    | @replaced files hre =>
      rw [hre.inside, effects_eq_latest hre.named agentId, Option.or_none] at hf
      refine ⟨?_, by rw [hf]; rfl⟩
      rintro rfl
      rw [latest_writesOf_nil hre.named] at hf
      cases hf
    | lost _ hin => exact h agentId r cs (hin _ _ hf)
  · have hou : ¬ backend.agentDir agentId <+: backend.agentDir j ++ r :=
      not_agentDir_of_ne (Ne.symm hj) (List.prefix_append _ r)
    rw [hc.outside hou] at hf
    obtain ⟨hr, hl⟩ := h j r cs hf
    have hno : latest ws j (Path.of r) = none :=
      latest_eq_none_of_ne (fun w hw heq => hj ((hc.agentId_of_mem w hw).symm.trans heq)) _
    exact ⟨hr, by rw [hno, hl]; rfl⟩

theorem lost_of_cleared (h : Cleared backend agentId disk disk') : Changed backend agentId disk disk' [] := by
  refine .lost (fun q hq => by rw [h q, if_neg hq]) fun q c hf => ?_
  rw [h q] at hf
  split at hf
  · cases hf
  · exact hf

theorem lost_refl (backend : FilesystemBackend) (agentId : ℕ) (disk : Disk) : Changed backend agentId disk disk [] :=
  .lost (fun _ _ => rfl) fun _ _ h => h

theorem changed_run (call : PadCall) (hf : call.Fresh backend disk) :
    Changed backend call.agentId disk (call.run backend disk).2 (call.effective backend disk) := by
  cases call with
  | writeFiles agentId files mode uuid =>
    have hs : (PadCall.run backend (.writeFiles agentId files mode uuid) disk).2 =
        ((if mode = "replace" then backend.replaceFiles agentId files uuid else backend.appendFiles agentId files) disk).2 := by
      unfold PadCall.run
      rw [Session.bind_pure_snd, writeFiles_apply]
      split
      · rename_i heq
        rw [heq]
      · rename_i heq
        rw [heq]
    rw [hs]
    unfold PadCall.effective
    dsimp only
    split
    · rename_i hm
      have hr : Session.Wp (backend.replaceFiles agentId files uuid) _ _ disk := replaceFiles_wp (hf hm)
      unfold Session.Wp at hr
      rcases h : backend.replaceFiles agentId files uuid disk with ⟨e | u, disk'⟩ <;> rw [h] at hr <;> dsimp only
      · exact .lost (fun q _ => hr.1 q) fun q c hfi => (hr.1 q).symm.trans hfi
      · exact .replaced hr
    · exact .wrote (appendFiles_wrote backend agentId files disk)
  | clear agentId =>
    have hc := clear_wp backend agentId disk
    have hl : Session.Wp (backend.clear agentId) (fun _ disk' => Changed backend agentId disk disk' [])
        (fun _ disk' => Changed backend agentId disk disk' []) disk := by
      refine hc.mono (fun _ _ h => lost_of_cleared h) fun _ _ h => ?_
      rcases h with rfl | ⟨h, -⟩
      · exact lost_refl backend agentId _
      · exact lost_of_cleared h
    exact hl.always
  | deleteAll agentId =>
    have hre := removeIfThere_wp (backend.agentDir agentId) (agentDir_ne_nil backend agentId) disk
    have hl : Session.Wp (backend.deleteAll agentId) (fun _ disk' => Changed backend agentId disk disk' [])
        (fun _ disk' => Changed backend agentId disk disk' []) disk := by
      refine hre.mono (fun _ _ h => lost_of_cleared (fileAt?_of_removed h)) fun _ _ h => ?_
      rw [h.1]
      exact lost_refl backend agentId _
    exact hl.always

theorem Faithful.fileAt?_agentDir (h : Faithful backend past disk) (agentId : ℕ) :
    disk.fileAt? (backend.agentDir agentId) = none := by
  cases hf : disk.fileAt? (backend.agentDir agentId) with
  | none => rfl
  | some cs =>
    rw [← List.append_nil (backend.agentDir agentId)] at hf
    exact absurd rfl (h agentId [] cs hf).1

theorem Faithful.confined (h : Faithful backend past disk) : Confined backend past disk where
  inside filename dir target htarget := by
    obtain ⟨-, hp, rfl⟩ := validatePath_eq_ok htarget
    exact below_append.mpr hp
  frame call hf q hq := by
    have hc := changed_run call hf
    by_cases hpr : backend.agentDir call.agentId <+: q
    · -- only the directory itself is left
      have hd : q = backend.agentDir call.agentId := by
        by_contra hne
        exact hq ⟨hpr, hne⟩
      rw [hd, h.fileAt?_agentDir, (h.changed hc).fileAt?_agentDir]
    · exact hc.outside hpr
  others call hf agentId hne path := by
    have hc := changed_run call hf
    unfold readFile
    split
    · rfl
    · rename_i target htarget
      obtain ⟨-, -, rfl⟩ := validatePath_eq_ok htarget
      exact hc.outside (not_agentDir_of_ne hne (List.prefix_append _ _))
  reads agentId path contents hread := by
    unfold readFile at hread
    split at hread
    · cases hread
    · rename_i target htarget
      obtain ⟨hs, hp, rfl⟩ := validatePath_eq_ok htarget
      refine ⟨⟨_, below_append.mpr hp, hread⟩, ?_⟩
      rw [← hs]
      exact (h agentId (place path) contents hread).2

/-- In every history of a disk whose base directory held no files. -/
theorem scratchpad_confined (backend : FilesystemBackend) (disk₀ : Disk)
    (hstart : ∀ q contents, disk₀.fileAt? q = some contents → ¬ backend.basePath <+: q)
      {past : List Write} {disk : Disk}
    (hrun : PadRun backend disk₀ past disk) : Confined backend past disk := by
  have hf : Faithful backend past disk := by
    induction hrun with
    | start =>
      intro agentId r contents hfi
      refine absurd ?_ (hstart _ contents hfi)
      rw [agentDir, List.append_assoc]
      exact List.prefix_append _ _
    | step call _ hfr ih => exact ih.changed (changed_run call hfr)
  exact hf.confined

def pageCalls : List PadCall :=
  [.writeFiles 1 [("docs/page.html", [1])] "append" 7, .writeFiles 1 [("docs//page.html", [2, 3])] "append" 8]

theorem page_confined : ∃ past,
    PadRun plainBackend Tree.empty past (pageCalls.foldl
      (fun disk call => (call.run plainBackend disk).2) Tree.empty) ∧
      Confined plainBackend past (pageCalls.foldl (fun disk call => (call.run plainBackend disk).2) Tree.empty) ∧
      plainBackend.readFile 1 "docs/./page.html"
        (pageCalls.foldl (fun disk call => (call.run plainBackend disk).2) Tree.empty) = some [2, 3] := by
  have hst : PadRun plainBackend Tree.empty [] Tree.empty := .start
  have hf := hst.step (.writeFiles 1 [("docs/page.html", [1])] "append" 7) fun hm => absurd hm (by decide)
  have hs := hf.step (.writeFiles 1 [("docs//page.html", [2, 3])] "append" 8) fun hm => absurd hm (by decide)
  refine ⟨_, hs, scratchpad_confined plainBackend Tree.empty ?_ hs, by decide +kernel⟩
  intro q contents hfi
  cases q <;> cases hfi

end McpworksApi.Scratchpad
