import McpworksApi.Py.Hash
import McpworksApi.Py.Regex
import McpworksApi.Store.FileTree
import McpworksApi.Store.Files

/-! The scratchpads of agents on disk: `FilesystemBackend`. Every agent has a directory in the base directory, named by
its key. -/

namespace McpworksApi.Scratchpad

open FileTree Files Py Session
open Regex (isAlnum)

inductive PadError
  | valueError (message : String)
  | osError (fault : Fault)
  | quotaExceeded (currentBytes limitBytes requestedBytes : ℕ)
  | notAvailable (message : String)
  | validation (message : String)
  | agentNotFound
  | dataError (message : String)
  deriving DecidableEq, Repr

abbrev Disk := Tree FileName Bytes

structure FilesystemBackend where
  basePath : List FileName
  uuidText : ℕ → String
  injective : Function.Injective uuidText
  ne_empty : ∀ i, uuidText i ≠ ""
  chars : ∀ i, ∀ c ∈ (uuidText i).toList, isAlnum c = true ∨ c = '-'
  refuses : List FileName → Bool

/-! ### Paths -/

def maxPathDepth : ℕ := 3

def filenameChar (c : Char) : Bool := isAlnum c || c = '.' || c = '_' || c = '/' || c = '-'

def filenameBody : List Char → Bool
  | [] => false
  | c :: rest => isAlnum c && rest.all filenameChar && decide (rest.length ≤ 254)

def matchesFilename (s : String) : Bool :=
  filenameBody s.toList || (s.toList.getLast? = some '\n' && filenameBody s.toList.dropLast)

def pathText (place : List FileName) : String :=
  if place = [] then "/" else String.ofList (place.flatMap fun name => '/' :: name.val.toList)

def resolved (path : Path) : List FileName :=
  path.foldl (fun here s =>
    match s with
    | .up => here.dropLast
    | .down name => here ++ [name]) []

def validatePath (filename : String) (agentBase : List FileName) : Except PadError (List FileName) :=
  let target := resolved ((Path.of agentBase).join filename)
  if filename = "" ∨ matchesFilename filename = false then
    .error (.valueError ("Invalid filename: " ++ Py.repr filename))
  else if Char.ofNat 0 ∈ filename.toList then .error (.valueError "Filename contains null bytes")
  else if Step.up ∈ steps filename then .error (.valueError "Path traversal not allowed")
  else if isAbsolute filename then .error (.valueError "Absolute paths not allowed")
  else if maxPathDepth < (steps filename).length then
    .error (.valueError ("Path too deep (max " ++ toString maxPathDepth ++ " levels): " ++ filename))
  else if startsWith (pathText target) (pathText agentBase ++ "/") = false ∧ target ≠ agentBase then
    .error (.valueError "Path traversal detected after resolution")
  else .ok target

def place (filename : String) : List FileName :=
  (steps filename).filterMap fun
    | .up => none
    | .down name => some name

theorem resolved_of (place : List FileName) : resolved (Path.of place) = place := by
  have hf : ∀ here, (Path.of place).foldl (fun here s =>
      match s with
      | .up => here.dropLast
      | .down name => here ++ [name]) here = here ++ place := by
    induction place with
    | nil => intro here; simp [Path.of]
    | cons name place ih =>
      intro here
      change (Path.of place).foldl _ (here ++ [name]) = _
      rw [ih, List.append_assoc]
      rfl
  exact hf []

variable {filename : String} {dir : List FileName}

theorem of_place (h : Step.up ∉ steps filename) : Path.of (place filename) = steps filename := by
  unfold place
  generalize steps filename = path at h
  induction path with
  | nil => rfl
  | cons s path ih =>
    obtain ⟨hs, hp⟩ := not_or.mp (mt List.mem_cons.mpr h)
    cases s with
    | up => exact absurd rfl hs
    | down name =>
      change Step.down name :: Path.of (path.filterMap _) = _
      rw [ih hp]

theorem exists_first (h : matchesFilename filename = true) :
    ∃ c rest, filename.toList = c :: rest ∧ isAlnum c = true := by
  have hb : ∀ l : List Char, filenameBody l = true → ∃ c rest, l = c :: rest ∧ isAlnum c = true := by
    intro l hl
    cases l with
    | nil => cases hl
    | cons c rest =>
      simp only [filenameBody, Bool.and_eq_true] at hl
      exact ⟨c, rest, rfl, hl.1.1⟩
  unfold matchesFilename at h
  rw [Bool.or_eq_true, Bool.and_eq_true] at h
  rcases h with h | ⟨-, h⟩
  · exact hb _ h
  · obtain ⟨c, rest, hr, hc⟩ := hb _ h
    have hne : filename.toList ≠ [] := by
      intro hn
      rw [hn] at hr
      cases hr
    refine ⟨c, rest ++ [filename.toList.getLast hne], ?_, hc⟩
    rw [← List.cons_append, ← hr, List.dropLast_append_getLast]

theorem isAlnum_slash_dot {c : Char} (h : isAlnum c = true) : c ≠ '/' ∧ c ≠ '.' := by
  constructor <;> rintro rfl <;> revert h <;> decide

theorem place_ne_nil (h : matchesFilename filename = true) (hup : Step.up ∉ steps filename) :
    place filename ≠ [] := by
  obtain ⟨c, rest, hf, hc⟩ := exists_first h
  have hs := steps_ne_nil hf (isAlnum_slash_dot hc).1 (isAlnum_slash_dot hc).2
  rw [← of_place hup] at hs
  intro hn
  rw [hn] at hs
  exact hs rfl

theorem isAbsolute_of_matches (h : matchesFilename filename = true) : isAbsolute filename = false := by
  obtain ⟨c, rest, hf, hc⟩ := exists_first h
  unfold isAbsolute
  rw [hf]
  simpa using (isAlnum_slash_dot hc).1

theorem resolved_join (h : matchesFilename filename = true)
    (hup : Step.up ∉ steps filename) : resolved ((Path.of dir).join filename) = dir ++ place filename := by
  unfold Path.join
  rw [isAbsolute_of_matches h, if_neg (by simp), ← of_place hup]
  have ha : Path.of dir ++ Path.of (place filename) = Path.of (dir ++ place filename) := by
    unfold Path.of
    rw [List.map_append]
  rw [ha, resolved_of]

theorem validatePath_eq_ok {tgt : List FileName} (h : validatePath filename dir = .ok tgt) :
    Path.of (place filename) = steps filename ∧ place filename ≠ [] ∧ tgt = dir ++ place filename := by
  unfold validatePath at h
  dsimp only at h
  split_ifs at h with hm hnu hup ha hd hb
  have hn : matchesFilename filename = true := by
    rw [not_or, Bool.not_eq_false] at hm
    exact hm.2
  cases h
  exact ⟨of_place hup, place_ne_nil hn hup, resolved_join hn hup⟩

theorem startsWith_pathText {rest : List FileName} (hd : dir ≠ []) (hr : rest ≠ []) :
    startsWith (pathText (dir ++ rest)) (pathText dir ++ "/") = true := by
  obtain ⟨name, rest, rfl⟩ := List.exists_cons_of_ne_nil hr
  unfold startsWith pathText
  have ha : dir ++ name :: rest ≠ [] := by simp
  rw [if_neg ha, if_neg hd, List.isPrefixOf_iff_prefix, String.toList_append, String.toList_ofList,
    String.toList_ofList, List.flatMap_append, List.flatMap_cons]
  refine ⟨name.val.toList ++ rest.flatMap fun name => '/' :: name.val.toList, ?_⟩
  simp

structure ValidFilename (filename : String) : Prop where
  form : filename ≠ "" ∧ matchesFilename filename = true
  null : Char.ofNat 0 ∉ filename.toList
  up : Step.up ∉ steps filename
  depth : (steps filename).length ≤ maxPathDepth

theorem ValidFilename.validatePath (h : ValidFilename filename) (hd : dir ≠ []) :
    validatePath filename dir = .ok (dir ++ place filename) := by
  unfold Scratchpad.validatePath
  have hs := startsWith_pathText hd (place_ne_nil h.form.2 h.up)
  simp only [resolved_join h.form.2 h.up, hs, isAbsolute_of_matches h.form.2, h.form.1, h.form.2, h.null, h.up,
    Nat.not_lt.mpr h.depth, if_false, or_false, false_and, Bool.false_eq_true, Bool.true_eq_false]

/-! ### The backend -/

namespace FilesystemBackend

variable (backend : FilesystemBackend)

theorem proper_uuidText (i : ℕ) : Proper (backend.uuidText i) := by
  have hd : '.' ∉ (backend.uuidText i).toList := fun h => by
    rcases backend.chars i _ h with h | h <;> revert h <;> decide
  have hs : '/' ∉ (backend.uuidText i).toList := fun h => by
    rcases backend.chars i _ h with h | h <;> revert h <;> decide
  refine ⟨backend.ne_empty i, fun heq => hd ?_, fun heq => hd ?_, hs⟩ <;> rw [heq] <;> decide

theorem proper_tmpText (i : ℕ) : Proper (".tmp-" ++ backend.uuidText i) := by
  have ht : (".tmp-" ++ backend.uuidText i).toList = ".tmp-".toList ++
    (backend.uuidText i).toList := String.toList_append
  have hne {s : String} (hs : s.toList.length < 5) : ".tmp-" ++ backend.uuidText i ≠ s := by
    rintro rfl
    simp at hs
    omega
  refine ⟨hne (by decide), hne (by decide), hne (by decide), ?_⟩
  rw [ht, List.mem_append, not_or]
  exact ⟨by decide, (backend.proper_uuidText i).2.2.2⟩

def agentName (agentId : ℕ) : FileName := ⟨backend.uuidText agentId, backend.proper_uuidText agentId⟩

def tmpName (uuid : ℕ) : FileName := ⟨".tmp-" ++ backend.uuidText uuid, backend.proper_tmpText uuid⟩

def agentDir (agentId : ℕ) : List FileName := backend.basePath ++ [backend.agentName agentId]

def tmpDir (uuid : ℕ) : List FileName := backend.basePath ++ [backend.tmpName uuid]

def onDisk (m : Session Disk Fault Unit) : Session Disk PadError Unit := m.mapError .osError

def writeOne (dir : List FileName) (file : String × Bytes) : Session Disk PadError Unit := do
  let target ← fetch fun _ => validatePath file.1 dir
  onDisk (makeDirs backend.refuses target.dropLast)
  onDisk (writeBytes backend.refuses target file.2)

def writeEach (dir : List FileName) : List (String × Bytes) → Session Disk PadError Unit
  | [] => pure ()
  | file :: files => do
    backend.writeOne dir file
    writeEach dir files

def removeIfThere (dir : List FileName) : Session Disk PadError Unit := fun disk =>
  if (disk.find? dir).isSome then onDisk (removeTree dir) disk else (.ok (), disk)

def fillAndSwap (agentId : ℕ) (files : List (String × Bytes)) (uuid : ℕ) : Session Disk PadError Unit := do
  backend.writeEach (backend.tmpDir uuid) files
  removeIfThere (backend.agentDir agentId)
  onDisk (renameDir (backend.tmpDir uuid) (backend.agentDir agentId))

def replaceFiles (agentId : ℕ) (files : List (String × Bytes)) (uuid : ℕ) : Session Disk PadError Unit := do
  onDisk (makeDirs backend.refuses (backend.tmpDir uuid))
  handle (backend.fillAndSwap agentId files uuid) fun e => do
    removeIfThere (backend.tmpDir uuid)
    raise e

def appendFiles (agentId : ℕ) (files : List (String × Bytes)) : Session Disk PadError Unit := do
  onDisk (makeDirs backend.refuses (backend.agentDir agentId))
  backend.writeEach (backend.agentDir agentId) files

def calcSize (disk : Disk) (dir : List FileName) : ℕ :=
    if (disk.find? dir).isNone then 0 else disk.total List.length dir

def writeFiles (agentId : ℕ) (files : List (String × Bytes)) (mode : String) (uuid : ℕ) :
    Session Disk PadError ℕ := do
  if mode = "replace" then backend.replaceFiles agentId files uuid else backend.appendFiles agentId files
  query fun disk => calcSize disk (backend.agentDir agentId)

def readFile (agentId : ℕ) (path : String) (disk : Disk) : Option Bytes :=
  match validatePath path (backend.agentDir agentId) with
  | .error _ => none
  | .ok target => disk.fileAt? target

def clear (agentId : ℕ) : Session Disk PadError Unit := fun disk =>
  if (disk.find? (backend.agentDir agentId)).isSome then
    (do onDisk (removeTree (backend.agentDir agentId)); onDisk (makeDirs backend.refuses (backend.agentDir agentId))) disk
  else (.ok (), disk)

def deleteAll (agentId : ℕ) : Session Disk PadError Unit := removeIfThere (backend.agentDir agentId)

/-! ### Writing files -/

def effects (dir : List FileName) (files : List (String × Bytes)) (f : List FileName → Option Bytes) :
    List FileName → Option Bytes :=
  files.foldl (fun f file => Function.update f (dir ++ place file.1) (some file.2)) f

def written (dir : List FileName) : List (String × Bytes) → Disk → List (String × Bytes)
  | [], _ => []
  | file :: files, disk =>
    match backend.writeOne dir file disk with
    | (.ok (), disk') => file :: written dir files disk'
    | (.error _, _) => []

/-- The files were written below `dir`, and nothing else changed. -/
structure Wrote (dir : List FileName) (files : List (String × Bytes)) (disk disk' : Disk) : Prop where
  named : ∀ file ∈ files, Path.of (place file.1) = steps file.1 ∧ place file.1 ≠ []
  file : disk'.fileAt? = effects dir files disk.fileAt?
  kept : ∀ q, disk.isDir q = true → disk'.isDir q = true
  size : disk'.total List.length dir ≤ disk.total List.length dir + (files.map fun file => file.2.length).sum

variable {backend} {disk disk' disk'' : Disk} {dir p path : List FileName} {files fs' : List (String × Bytes)}

theorem Wrote.of_grown (h : Grown path disk disk') : Wrote dir [] disk disk' := by
  refine ⟨List.forall_mem_nil _, funext h.file, h.kept, ?_⟩
  rw [Tree.total_congr List.length fun q _ => h.file q]
  exact Nat.le_add_right _ _

theorem Wrote.trans (h : Wrote dir files disk disk') (h' : Wrote dir fs' disk' disk'') :
    Wrote dir (files ++ fs') disk disk'' := by
  refine ⟨fun file hf => ?_, ?_, fun q hq => h'.kept q (h.kept q hq), ?_⟩
  · rcases List.mem_append.mp hf with hf | hf
    · exact h.named file hf
    · exact h'.named file hf
  · rw [h'.file, h.file]
    unfold effects
    rw [List.foldl_append]
  · have := h.size
    have := h'.size
    rw [List.map_append, List.sum_append]
    omega

theorem isDir_of_written {c : Bytes} (h : ∀ q, disk'.find? q = if q = p then some (.file c) else disk.find? q)
    (hp : disk.isDir p = false) (q : List FileName) : disk'.isDir q = disk.isDir q := by
  by_cases hq : q = p
  · subst hq
    rw [hp]
    unfold Tree.isDir
    rw [h, if_pos rfl]
  · exact Tree.isDir_congr (by rw [h, if_neg hq])

theorem fileAt?_of_written {c : Bytes} (h : ∀ q, disk'.find? q = if q = p then some (.file c) else disk.find? q) :
    disk'.fileAt? = Function.update disk.fileAt? p (some c) := by
  funext q
  by_cases hq : q = p
  · subst hq
    rw [Function.update_self]
    exact Tree.fileAt?_eq_some.mpr (by rw [h, if_pos rfl])
  · rw [Function.update_of_ne hq]
    exact Tree.fileAt?_congr (by rw [h, if_neg hq])

theorem writeOne_wp (backend : FilesystemBackend) (dir : List FileName) (file : String × Bytes) (disk : Disk) :
    Wp (backend.writeOne dir file) (fun _ => Wrote dir [file] disk) (fun _ => Wrote dir [] disk) disk := by
  have hn : Wrote dir [] disk disk := .of_grown (.refl [] disk)
  refine Wp.fetch_bind (fun _ _ => hn) fun target ht => ?_
  obtain ⟨hs, hp, rfl⟩ := validatePath_eq_ok ht
  apply Wp.bind
  apply Wp.mapError
  refine (makeDirs_wp _ disk).mono (fun _ disk₁ h₁ => ?_) fun _ disk₁ h₁ => .of_grown h₁.1
  apply Wp.mapError
  have hg : Wrote dir [] disk disk₁ := .of_grown h₁.1
  refine (writeBytes_wp _ _ disk₁).mono (fun _ disk₂ h₂ => ?_) fun _ disk₂ h₂ => h₂.1 ▸ hg
  have hf := fileAt?_of_written h₂.2
  have ho : Wrote dir [file] disk₁ disk₂ := ?_
  · exact hg.trans ho
  refine ⟨?_, hf, fun q hq => ?_, ?_⟩
  · intro file' hf'
    rw [List.mem_singleton.mp hf']
    exact ⟨hs, hp⟩
  · rw [isDir_of_written h₂.2 h₂.1]
    exact hq
  · have hw : ∀ q, Below dir q →
        disk₂.fileAt? q = if q = dir ++ place file.1 then some file.2 else disk₁.fileAt? q := by
      intro q _
      rw [hf, Function.update_apply]
    simpa using Tree.total_le_of_write List.length hw

theorem writeEach_wrote (backend : FilesystemBackend) (dir : List FileName)
    (files : List (String × Bytes)) (disk : Disk) :
    Wrote dir (backend.written dir files disk) disk (backend.writeEach dir files disk).2 := by
  induction files generalizing disk with
  | nil => exact .of_grown (.refl [] disk)
  | cons file files ih =>
    have ho := writeOne_wp backend dir file disk
    unfold Wp at ho
    unfold writeEach written
    rcases h : backend.writeOne dir file disk with ⟨e | u, disk₁⟩ <;> rw [h] at ho
    · rw [bind_of_error h]
      exact ho
    · rw [bind_of_ok h]
      exact ho.trans (ih disk₁)

theorem written_of_ok {disk' : Disk} (h : backend.writeEach dir files disk = (.ok (), disk')) :
    backend.written dir files disk = files := by
  induction files generalizing disk with
  | nil => rfl
  | cons file files ih =>
    obtain ⟨u, disk₁, ho, hr⟩ := Session.bind_eq_ok.mp h
    unfold written
    rw [ho]
    dsimp only
    rw [ih hr]

theorem writeEach_wp (backend : FilesystemBackend) (dir : List FileName)
    (files : List (String × Bytes)) (disk : Disk) :
    Wp (backend.writeEach dir files) (fun _ => Wrote dir files disk)
      (fun _ => Wrote dir (backend.written dir files disk) disk) disk := by
  have hw := writeEach_wrote backend dir files disk
  unfold Wp
  rcases h : backend.writeEach dir files disk with ⟨e | u, disk'⟩ <;> rw [h] at hw
  · exact hw
  · rwa [written_of_ok h] at hw

theorem effects_of_not_isPrefix {f : List FileName → Option Bytes} (h : ¬ dir <+: p) :
    effects dir files f p = f p := by
  unfold effects
  induction files generalizing f with
  | nil => rfl
  | cons file files ih =>
    rw [List.foldl_cons, ih, Function.update_of_ne]
    rintro rfl
    exact h (List.prefix_append _ _)

theorem effects_shift {dir' : List FileName} {f g : List FileName → Option Bytes}
    (h : ∀ r, f (dir ++ r) = g (dir' ++ r)) (r : List FileName) :
    effects dir files f (dir ++ r) = effects dir' files g (dir' ++ r) := by
  unfold effects
  induction files generalizing f g with
  | nil => exact h r
  | cons file files ih =>
    rw [List.foldl_cons, List.foldl_cons]
    refine ih fun r' => ?_
    by_cases hr : r' = place file.1
    · rw [hr, Function.update_self, Function.update_self]
    · rw [Function.update_of_ne (by simpa using hr), Function.update_of_ne (by simpa using hr), h r']

/-! ### Directories of agents -/

theorem agentName_injective (backend : FilesystemBackend) : Function.Injective backend.agentName := by
  intro i j h
  exact backend.injective (congrArg FileName.val h)

theorem agentName_ne_tmpName (backend : FilesystemBackend) (i uuid : ℕ) :
    backend.agentName i ≠ backend.tmpName uuid := by
  intro h
  have ht : backend.uuidText i = ".tmp-" ++ backend.uuidText uuid := congrArg FileName.val h
  have hd : '.' ∈ (backend.uuidText i).toList := by
    rw [ht, String.toList_append]
    exact List.mem_append_left _ (by decide)
  rcases backend.chars i _ hd with h | h <;> revert h <;> decide

theorem agentDir_ne_nil (backend : FilesystemBackend) (i : ℕ) : backend.agentDir i ≠ [] := by
  unfold agentDir
  simp

theorem tmpDir_ne_nil (backend : FilesystemBackend) (uuid : ℕ) : backend.tmpDir uuid ≠ [] := by
  unfold tmpDir
  simp

theorem not_agentDir_of_ne {i j : ℕ} (hij : i ≠ j) (h : backend.agentDir i <+: p) : ¬ backend.agentDir j <+: p :=
  not_prefix_of_ne (fun heq => hij (agentName_injective backend heq)) h

theorem not_agentDir_of_tmpDir {i uuid : ℕ} (h : backend.tmpDir uuid <+: p) : ¬ backend.agentDir i <+: p :=
  not_prefix_of_ne (fun heq => agentName_ne_tmpName backend i uuid heq.symm) h

theorem find?_of_missing (hn : disk.find? dir = none) (q : List FileName) :
    disk.find? q = if dir <+: q then none else disk.find? q := by
  split
  · exact Tree.find?_eq_none_of_isPrefix hn ‹_›
  · rfl

theorem fileAt?_of_removed (h : ∀ q, disk'.find? q = if dir <+: q then none else disk.find? q) (q : List FileName) :
    disk'.fileAt? q = if dir <+: q then none else disk.fileAt? q := by
  unfold Tree.fileAt?
  rw [h]
  by_cases hq : dir <+: q
  · rw [if_pos hq, if_pos hq]
  · rw [if_neg hq, if_neg hq]

theorem removeIfThere_wp (dir : List FileName) (hd : dir ≠ []) (disk : Disk) :
    Wp (removeIfThere dir) (fun _ disk' => ∀ q, disk'.find? q = if dir <+: q then none else disk.find? q)
      (fun _ disk' => disk' = disk ∧ disk.isDir dir = false) disk := by
  by_cases ht : (disk.find? dir).isSome
  · have hr : Wp (onDisk (removeTree dir))
        (fun _ disk' => ∀ q, disk'.find? q = if dir <+: q then none else disk.find? q)
        (fun _ disk' => disk' = disk ∧ disk.isDir dir = false) disk := by
      apply Wp.mapError
      refine (removeTree_wp dir disk).mono (fun _ _ h => h.2) fun _ _ h => ⟨h.1, ?_⟩
      rw [Bool.eq_false_iff]
      exact fun his => h.2 ⟨hd, his⟩
    unfold Wp removeIfThere at *
    rwa [if_pos ht]
  · unfold Wp removeIfThere
    rw [if_neg ht]
    exact find?_of_missing (by simpa using ht)

/-! ### Replacing and appending -/

/-- The directory of the agent holds the files and no others. -/
structure Replaced (backend : FilesystemBackend) (agentId : ℕ) (files : List (String × Bytes))
    (disk disk' : Disk) : Prop where
  named : ∀ file ∈ files, Path.of (place file.1) = steps file.1 ∧ place file.1 ≠ []
  inside : ∀ r, disk'.fileAt? (backend.agentDir agentId ++ r) =
    effects (backend.agentDir agentId) files (fun _ => none) (backend.agentDir agentId ++ r)
  outside : ∀ q, ¬ backend.agentDir agentId <+: q → disk'.fileAt? q = disk.fileAt? q
  size : disk'.total List.length (backend.agentDir agentId) ≤ (files.map fun file => file.2.length).sum

variable {agentId uuid : ℕ}

theorem swap_wp (hf : disk.find? (backend.tmpDir uuid) = none)
    (hw : Wrote (backend.tmpDir uuid) files disk disk') (htm : disk'.isDir (backend.tmpDir uuid) = true) :
    Wp (do removeIfThere (backend.agentDir agentId)
           onDisk (renameDir (backend.tmpDir uuid) (backend.agentDir agentId)))
      (fun _ => Replaced backend agentId files disk) (fun _ disk'' => disk'' = disk') disk' := by
  have hn : ∀ r, disk.fileAt? (backend.tmpDir uuid ++ r) = none := fun r =>
    (Tree.find?_eq_none.mp (Tree.find?_eq_none_of_isPrefix hf (List.prefix_append _ r))).2
  have hb : disk'.isDir backend.basePath = true := by
    have := Tree.isDir_dropLast htm
    rwa [tmpDir, List.dropLast_concat] at this
  have hba : ¬ backend.agentDir agentId <+: backend.basePath := by
    intro hpr
    have := hpr.length_le
    simp [agentDir] at this
  have htp : ∀ r, ¬ backend.agentDir agentId <+: backend.tmpDir uuid ++ r := fun r =>
    not_agentDir_of_tmpDir (List.prefix_append _ r)
  apply Wp.bind
  refine (removeIfThere_wp _ (agentDir_ne_nil backend agentId) disk').mono (fun _ disk₁ h₁ => ?_) fun _ _ h => h.1
  apply Wp.mapError
  refine (renameDir_wp _ _ disk₁).mono (fun _ disk₂ h₂ => ?_) fun _ _ h => (h.2 ?_).elim
  · have hin : ∀ r, disk₂.fileAt? (backend.agentDir agentId ++ r) = disk'.fileAt? (backend.tmpDir uuid ++ r) := by
      intro r
      apply Tree.fileAt?_congr
      rw [h₂, if_pos (List.prefix_append _ r), List.drop_left, h₁, if_neg (htp r)]
    refine ⟨hw.named, fun r => ?_, fun q hq => ?_, ?_⟩
    · rw [hin, hw.file]
      exact effects_shift hn r
    · by_cases ht : backend.tmpDir uuid <+: q
      · obtain ⟨r, rfl⟩ := ht
        rw [hn r]
        unfold Tree.fileAt?
        rw [h₂, if_neg hq, if_pos (List.prefix_append _ r)]
      · have hfi : disk₂.find? q = disk'.find? q := by rw [h₂, if_neg hq, if_neg ht, h₁, if_neg hq]
        rw [Tree.fileAt?_congr hfi, hw.file, effects_of_not_isPrefix ht]
    · rw [Tree.total_move List.length fun r _ => hin r]
      have hz : disk.total List.length (backend.tmpDir uuid) = 0 := by
        apply Tree.total_eq_zero
        intro p hp
        obtain ⟨r, -, rfl⟩ := hp.exists_append
        exact hn r
      have := hw.size
      omega
  · have ha : disk₁.find? (backend.agentDir agentId) = none := by rw [h₁, if_pos (List.prefix_refl _)]
    refine ⟨⟨tmpDir_ne_nil backend uuid, ?_⟩, ha, ?_, ?_⟩
    · have hs : disk₁.find? (backend.tmpDir uuid) = disk'.find? (backend.tmpDir uuid) := by
        rw [h₁, if_neg (by simpa using htp [])]
      rw [Tree.isDir_congr hs]
      exact htm
    · have hs : disk₁.find? backend.basePath = disk'.find? backend.basePath := by rw [h₁, if_neg hba]
      rw [agentDir, List.dropLast_concat, Tree.isDir_congr hs]
      exact hb
    · intro hpr
      exact not_agentDir_of_tmpDir hpr (List.prefix_refl _)

theorem replaceFiles_wp (hf : disk.find? (backend.tmpDir uuid) = none) :
    Wp (backend.replaceFiles agentId files uuid) (fun _ => Replaced backend agentId files disk)
      (fun _ disk' => (∀ q, disk'.fileAt? q = disk.fileAt? q) ∧ disk'.find? (backend.tmpDir uuid) = none) disk := by
  have hn : ∀ q, backend.tmpDir uuid <+: q → disk.fileAt? q = none := fun q hq =>
    (Tree.find?_eq_none.mp (Tree.find?_eq_none_of_isPrefix hf hq)).2
  apply Wp.bind
  apply Wp.mapError
  refine (makeDirs_wp _ disk).mono (fun _ disk₁ h₁ => ?_) fun _ disk₁ h₁ =>
    ⟨h₁.1.file, Tree.find?_eq_none.mpr ⟨h₁.2.1, (h₁.1.file _).trans (hn _ (List.prefix_refl _))⟩⟩
  obtain ⟨hg, ht⟩ := h₁
  have hs : Wrote (backend.tmpDir uuid) [] disk disk₁ := .of_grown hg
  -- whatever was written before an error is removed
  have hc : ∀ (e : PadError) (wri : List (String × Bytes)) (disk₂ : Disk),
      Wrote (backend.tmpDir uuid) wri disk disk₂ → disk₂.isDir (backend.tmpDir uuid) = true →
      Wp (do removeIfThere (backend.tmpDir uuid); raise e : Session Disk PadError Unit)
        (fun _ => Replaced backend agentId files disk)
        (fun _ disk' => (∀ q, disk'.fileAt? q = disk.fileAt? q) ∧
          disk'.find? (backend.tmpDir uuid) = none) disk₂ := by
    intro e wri disk₂ h₂ his
    apply Wp.bind
    refine (removeIfThere_wp _ (tmpDir_ne_nil backend uuid) disk₂).mono (fun _ disk₃ h₃ => ?_) fun _ _ h => ?_
    · refine Wp.raise ⟨fun q => ?_, by rw [h₃, if_pos (List.prefix_refl _)]⟩
      rw [fileAt?_of_removed h₃]
      split
      · exact (hn q ‹_›).symm
      · rw [h₂.file, effects_of_not_isPrefix ‹_›]
    · rw [his] at h
      cases h.2
  apply Wp.handle
  apply Wp.bind
  refine (writeEach_wp backend (backend.tmpDir uuid) files disk₁).mono (fun _ disk₂ h₂ => ?_) fun e disk₂ h₂ => ?_
  · have hw : Wrote (backend.tmpDir uuid) files disk disk₂ := hs.trans h₂
    refine (swap_wp hf hw (h₂.kept _ ht)).mono (fun _ _ h => h) fun e disk₃ h₃ => ?_
    rw [h₃]
    exact hc e files disk₂ hw (h₂.kept _ ht)
  · exact hc e _ disk₂ (hs.trans h₂) (h₂.kept _ ht)

def appended (backend : FilesystemBackend) (agentId : ℕ) (files : List (String × Bytes)) (disk : Disk) :
    List (String × Bytes) :=
  match onDisk (makeDirs backend.refuses (backend.agentDir agentId)) disk with
  | (.ok (), disk') => backend.written (backend.agentDir agentId) files disk'
  | (.error _, _) => []

theorem appendFiles_wrote (backend : FilesystemBackend) (agentId : ℕ) (files : List (String × Bytes)) (disk : Disk) :
    Wrote (backend.agentDir agentId) (backend.appended agentId files disk) disk
      (backend.appendFiles agentId files disk).2 := by
  have hd : Wp (makeDirs backend.refuses (backend.agentDir agentId)) _ _ disk := makeDirs_wp _ disk
  have hg : Wp (onDisk (makeDirs backend.refuses (backend.agentDir agentId)))
      (fun _ => Wrote (backend.agentDir agentId) [] disk) (fun _ => Wrote (backend.agentDir agentId) [] disk) disk :=
    .mapError (hd.mono (fun _ _ h => .of_grown h.1) fun _ _ h => .of_grown h.1)
  unfold Wp at hg
  unfold appendFiles appended
  rcases h : onDisk (makeDirs backend.refuses (backend.agentDir agentId)) disk with ⟨e | u, disk₁⟩ <;> rw [h] at hg
  · rw [bind_of_error h]
    exact hg
  · rw [bind_of_ok h]
    exact hg.trans (writeEach_wrote backend _ files disk₁)

def Cleared (backend : FilesystemBackend) (agentId : ℕ) (disk disk' : Disk) : Prop :=
  ∀ q, disk'.fileAt? q = if backend.agentDir agentId <+: q then none else disk.fileAt? q

theorem writeFiles_apply (backend : FilesystemBackend) (agentId : ℕ) (files : List (String × Bytes)) (mode : String)
    (uuid : ℕ) (disk : Disk) :
    backend.writeFiles agentId files mode uuid disk =
      match (if mode = "replace" then backend.replaceFiles agentId files uuid else
        backend.appendFiles agentId files) disk with
      | (.ok _, disk') => (.ok (calcSize disk' (backend.agentDir agentId)), disk')
      | (.error e, disk') => (.error e, disk') := by
  have hb : ∀ m : Session Disk PadError Unit,
      (m >>= fun _ => query fun disk => calcSize disk (backend.agentDir agentId)) disk =
        match m disk with
        | (.ok _, disk') => (.ok (calcSize disk' (backend.agentDir agentId)), disk')
        | (.error e, disk') => (.error e, disk') := by
    intro m
    rcases h : m disk with ⟨e | u, disk'⟩
    · rw [bind_of_error h]
    · rw [bind_of_ok h]
      rfl
  unfold writeFiles
  split <;> exact hb _

theorem clear_wp (backend : FilesystemBackend) (agentId : ℕ) (disk : Disk) :
    Wp (backend.clear agentId) (fun _ => Cleared backend agentId disk)
      (fun _ disk' => disk' = disk ∨
        Cleared backend agentId disk disk' ∧ ∃ q, q <+: backend.agentDir agentId ∧
          backend.refuses q = true) disk := by
  by_cases ht : (disk.find? (backend.agentDir agentId)).isSome
  · have hc : Wp (do onDisk (removeTree (backend.agentDir agentId))
                     onDisk (makeDirs backend.refuses (backend.agentDir agentId)))
        (fun _ => Cleared backend agentId disk)
        (fun _ disk' => disk' = disk ∨
          Cleared backend agentId disk disk' ∧ ∃ q, q <+: backend.agentDir agentId ∧
            backend.refuses q = true) disk := by
      apply Wp.bind
      apply Wp.mapError
      refine (removeTree_wp _ disk).mono (fun _ disk₁ h₁ => ?_) fun _ _ h => .inl h.1
      obtain ⟨hd, h₁⟩ := h₁
      have hcl : Cleared backend agentId disk disk₁ := fileAt?_of_removed h₁
      have hg : ∀ {disk₂}, Grown (backend.agentDir agentId) disk₁ disk₂ → Cleared backend agentId disk disk₂ :=
        fun h₂ q => (h₂.file q).trans (hcl q)
      apply Wp.mapError
      refine (makeDirs_wp _ disk₁).mono (fun _ _ h => hg h.1) fun _ _ h => .inr ⟨hg h.1, ?_⟩
      by_contra hr
      push Not at hr
      refine h.2.2 fun q hq => ⟨?_, by simpa using hr q hq⟩
      rw [hcl q]
      split
      · rfl
      · exact Tree.fileAt?_eq_none_of_isDir (Tree.isDir_of_isPrefix hd hq)
    unfold Wp clear at *
    rwa [if_pos ht]
  · unfold Wp clear
    rw [if_neg ht]
    exact fileAt?_of_removed (find?_of_missing (by simpa using ht))

end FilesystemBackend

def plainBackend : FilesystemBackend where
  basePath := [⟨"pads", by decide⟩]
  uuidText i := String.ofList (List.replicate (i + 1) 'a')
  injective i j h := by
    have hlength := congrArg (fun s : String => s.toList.length) h
    simpa using hlength
  ne_empty i h := by
    have hlength := congrArg (fun s : String => s.toList.length) h
    simp at hlength
  chars i c hc := by
    rw [String.toList_ofList] at hc
    rw [List.eq_of_mem_replicate hc]
    exact .inl (by decide)
  refuses _ := false

end McpworksApi.Scratchpad
