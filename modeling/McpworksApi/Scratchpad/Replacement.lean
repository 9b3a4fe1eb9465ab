import McpworksApi.Scratchpad.Accounting

/-! Publishing in replace mode. The files are written to a temporary directory that takes the place of the agent's
directory at the end, so a publish either replaces all files or changes none. -/

namespace McpworksApi.Scratchpad.FilesystemBackend

open FileTree Files Py Session

/-- The files that stay: of several names for one path, the last. -/
def kept (files : List (String × Bytes)) : List (String × Bytes) := files.pwFilter fun f g => place f.1 ≠ place g.1

variable {backend : FilesystemBackend} {disk disk' : Disk} {files : List (String × Bytes)} {agentId uuid : ℕ}

theorem forall_mem_kept {file : String × Bytes} :
    (∀ f ∈ kept files, place file.1 ≠ place f.1) ↔ ∀ f ∈ files, place file.1 ≠ place f.1 :=
  List.forall_mem_pwFilter (fun h => or_iff_not_imp_left.mpr fun hxy => not_not.mp hxy ▸ h) file files

theorem effects_eq_some {dir r : List FileName} {c : Bytes} {f : List FileName → Option Bytes} :
    effects dir files f (dir ++ r) = some c ↔
      (∃ file ∈ kept files, r = place file.1 ∧ file.2 = c) ∨ (∀ file ∈ files, r ≠ place file.1) ∧
        f (dir ++ r) = some c := by
  induction files generalizing f with
  | nil => simp [effects, kept]
  | cons file files ih =>
    have hs : effects dir (file :: files) f =
      effects dir files (Function.update f (dir ++ place file.1) (some file.2)) := rfl
    rw [hs, ih]
    by_cases hr : r = place file.1
    · subst hr
      rw [Function.update_self]
      by_cases ha : ∀ f ∈ kept files, place file.1 ≠ place f.1
      · have hk : kept (file :: files) = file :: kept files := List.pwFilter_cons_of_pos ha
        have hf := forall_mem_kept.mp ha
        rw [hk, and_iff_right hf]
        simp [or_comm]
      · have hk : kept (file :: files) = kept files := List.pwFilter_cons_of_neg ha
        have hf := mt forall_mem_kept.mpr ha
        rw [hk, or_iff_left fun h => hf h.1, or_iff_left fun h => h.1 file List.mem_cons_self rfl]
    · rw [Function.update_of_ne (by simpa using hr)]
      have hk : (∃ f ∈ kept (file :: files), r = place f.1 ∧ f.2 = c) ↔
        ∃ f ∈ kept files, r = place f.1 ∧ f.2 = c := by
        by_cases ha : ∀ f ∈ kept files, place file.1 ≠ place f.1
        · have hk : kept (file :: files) = file :: kept files := List.pwFilter_cons_of_pos ha
          simp [hk, hr]
        · have hk : kept (file :: files) = kept files := List.pwFilter_cons_of_neg ha
          rw [hk]
      simp [hk, hr]

theorem Replaced.fileAt?_eq_some (h : Replaced backend agentId files disk disk') {r : List FileName} {c : Bytes} :
    disk'.fileAt? (backend.agentDir agentId ++ r) = some c ↔ ∃ file ∈ kept files, r = place file.1 ∧ file.2 = c := by
  rw [h.inside, effects_eq_some]
  simp

theorem Replaced.total_eq (h : Replaced backend agentId files disk disk') :
    disk'.total List.length (backend.agentDir agentId) = sizeOf (kept files) := by
  have hp : (disk'.filesBelow (backend.agentDir agentId)).Perm
      ((kept files).map fun f => (backend.agentDir agentId ++ place f.1, f.2)) := by
    refine (List.perm_ext_iff_of_nodup (.of_map _ (Tree.nodup_filesBelow disk' _)) ?_).mpr ?_
    · refine List.Pairwise.map _ (fun f g hne heq => hne ?_) (List.pairwise_pwFilter files)
      exact List.append_cancel_left (congrArg Prod.fst heq)
    · rintro ⟨p, c⟩
      rw [Tree.mem_filesBelow, List.mem_map]
      constructor
      · rintro ⟨hb, hf⟩
        obtain ⟨r, -, rfl⟩ := hb.exists_append
        obtain ⟨file, hm, rfl, rfl⟩ := h.fileAt?_eq_some.mp hf
        exact ⟨file, hm, rfl⟩
      · rintro ⟨file, hm, heq⟩
        cases heq
        exact ⟨below_append.mpr (h.named file (List.pwFilter_subset files hm)).2,
          h.fileAt?_eq_some.mpr ⟨file, hm, rfl, rfl⟩⟩
  rw [Tree.total, (hp.map _).sum_eq, List.map_map]
  rfl

/-- A publish in replace mode is atomic: if it raises, no file has changed and its temporary directory is gone; if it
returns, the agent has exactly the given files, nothing else has changed, and the number returned is their size. -/
theorem replace_atomic (backend : FilesystemBackend) (agentId uuid : ℕ) (files : List (String × Bytes)) (disk : Disk)
    (hf : disk.find? (backend.tmpDir uuid) = none) :
    Wp (backend.writeFiles agentId files "replace" uuid)
      (fun size disk' => (∀ r c, disk'.fileAt? (backend.agentDir agentId ++ r) = some c ↔
          ∃ file ∈ kept files, r = place file.1 ∧ file.2 = c) ∧
        (∀ q, ¬ backend.agentDir agentId <+: q → disk'.fileAt? q = disk.fileAt? q) ∧ size = sizeOf (kept files))
      (fun _ disk' => (∀ q, disk'.fileAt? q = disk.fileAt? q) ∧ disk'.find? (backend.tmpDir uuid) = none) disk := by
  unfold writeFiles
  rw [if_pos rfl]
  apply Wp.bind
  refine (replaceFiles_wp hf).mono (fun _ disk' h => ?_) fun _ _ h => h
  refine Wp.query ⟨fun _ _ => h.fileAt?_eq_some, h.outside, ?_⟩
  rw [calcSize_eq_total, h.total_eq]

theorem replace_twice_named :
    (plainBackend.writeFiles 1 [("a/b", [1, 2]), ("a/./b", [3])] "replace" 7 newPad.disk).1 = .ok 1 ∧
      (plainBackend.writeFiles 1 [("a/b", [1, 2]), ("a/./b", [3])] "replace" 7 newPad.disk).2.fileAt?
        (plainBackend.agentDir 1 ++ place "a/b") = some [3] := by
  have h := replace_atomic plainBackend 1 7 [("a/b", [1, 2]), ("a/./b", [3])] newPad.disk (by decide +kernel)
  have hr : (plainBackend.writeFiles 1 [("a/b", [1, 2]), ("a/./b", [3])] "replace" 7 newPad.disk).1 = .ok 1 := by
    decide +kernel
  rw [Wp] at h
  rcases hw : plainBackend.writeFiles 1 [("a/b", [1, 2]),
    ("a/./b", [3])] "replace" 7 newPad.disk with ⟨e | size, disk'⟩ <;>
    rw [hw] at h hr <;> cases hr
  exact ⟨rfl, (h.1 _ _).mpr ⟨("a/./b", [3]), by decide +kernel, by decide +kernel, rfl⟩⟩

end McpworksApi.Scratchpad.FilesystemBackend
