import McpworksApi.OpenApi.Import

/-! References inside a document (`_resolve_ref`). A reference is a JSON pointer: the keys of nested mappings, with `~`
and `/` escaped, joined by `/`. The two replacements that undo the escapes one after the other do what one pass
over the text does, because no replacement of `~1` makes a new `~0`.

`_deref` follows references down to a bound. Its result is not nested deeper than that, and is the full expansion
where that ends within the bound. -/

namespace McpworksApi.OpenApi

open Models Py

def escapeKeyChar (c : Char) : List Char :=
  if c = '~' then ['~', '0'] else if c = '/' then ['~', '1'] else [c]

def pointer (keys : List String) : String :=
  String.ofList ('#' :: '/' :: ['/'].intercalate (keys.map fun key => key.toList.flatMap escapeKeyChar))

/-- The escapes undone in one pass. -/
def decodeKey : List Char → List Char
  | '~' :: '1' :: s => '/' :: decodeKey s
  | '~' :: '0' :: s => '~' :: decodeKey s
  | c :: s => c :: decodeKey s
  | [] => []

def decodedKeys (path : String) : List String :=
  (path.toList.splitOn '/').map fun part => String.ofList (decodeKey part)

/-- Where keys lead through nested mappings. -/
def leadsTo : List String → Json → Option Json
  | [], node => some node
  | key :: keys, .obj fields => (Args.get? fields key).bind (leadsTo keys)
  | _ :: _, _ => none

theorem replaceChars_cons {old new s : List Char} {c : Char} {n : ℕ} (h : ¬ old <+: c :: s) :
    replaceChars old new (n + 1) (c :: s) = c :: replaceChars old new n s := by
  rw [replaceChars, if_neg (by simpa using h)]

theorem replace_slash_head {n : ℕ} {s : List Char} (h : (replaceChars ['~', '1'] ['/'] n s).head? = some '0') :
    s.head? = some '0' := by
  cases n with
  | zero => exact h
  | succ n =>
    cases s with
    | nil => exact h
    | cons c s =>
      rw [replaceChars] at h
      split_ifs at h
      · cases h
      · exact h

theorem replaceChars_twice (s : List Char) (n m : ℕ) (hn : s.length ≤ n)
    (hm : (replaceChars ['~', '1'] ['/'] n s).length ≤ m) :
    replaceChars ['~', '0'] ['~'] m (replaceChars ['~', '1'] ['/'] n s) = decodeKey s := by
  fun_induction decodeKey s generalizing n m with
  | case1 s ih =>
    obtain ⟨n, rfl⟩ : ∃ k, n = k + 1 := ⟨n - 1, by simp at hn; omega⟩
    have hr : replaceChars ['~', '1'] ['/'] (n + 1) ('~' :: '1' :: s) =
      '/' :: replaceChars ['~', '1'] ['/'] n s := rfl
    rw [hr] at hm ⊢
    obtain ⟨m, rfl⟩ : ∃ k, m = k + 1 := ⟨m - 1, by simp at hm; omega⟩
    rw [replaceChars_cons (by simp), ih n m (by simp at hn; omega) (by simpa using hm)]
  | case2 s ih =>
    obtain ⟨n, rfl⟩ : ∃ k, n = k + 2 := ⟨n - 2, by simp at hn; omega⟩
    have hr : replaceChars ['~', '1'] ['/'] (n + 2) ('~' :: '0' :: s) =
        '~' :: '0' :: replaceChars ['~', '1'] ['/'] n s := rfl
    rw [hr] at hm ⊢
    obtain ⟨m, rfl⟩ : ∃ k, m = k + 1 := ⟨m - 1, by simp at hm; omega⟩
    exact congrArg ('~' :: ·) (ih n m (by simpa using hn) (by simp at hm; omega))
  | case3 c s h1 h0 ih =>
    obtain ⟨n, rfl⟩ : ∃ k, n = k + 1 := ⟨n - 1, by simp at hn; omega⟩
    have hr : replaceChars ['~', '1'] ['/'] (n + 1) (c :: s) = c :: replaceChars ['~', '1'] ['/'] n s := by
      apply replaceChars_cons
      rintro ⟨t, ht⟩
      cases ht
      exact h1 t rfl rfl
    rw [hr] at hm ⊢
    obtain ⟨m, rfl⟩ : ∃ k, m = k + 1 := ⟨m - 1, by simp at hm; omega⟩
    rw [replaceChars_cons, ih n m (by simpa using hn) (by simpa using hm)]
    rintro ⟨t, ht⟩
    obtain ⟨rfl, hz⟩ := List.cons.inj ht
    have hh : s.head? = some '0' := replace_slash_head (congrArg List.head? hz).symm
    obtain ⟨t, rfl⟩ := List.head?_eq_some_iff.mp hh
    exact h0 t rfl rfl
  | case4 => cases n <;> cases m <;> rfl

theorem unescape_eq (part : List Char) :
    replace (replace (String.ofList part) "~1" "/") "~0" "~" = String.ofList (decodeKey part) := by
  unfold replace
  simp only [String.toList_ofList]
  exact congrArg _ (replaceChars_twice part _ _ le_rfl le_rfl)

theorem resolveRef_eq (path : String) (root : Args) :
    resolveRef ("#/" ++ path) root = leadsTo (decodedKeys path) (.obj root) := by
  have hs : startsWith ("#/" ++ path) "#/" = true := by simp [startsWith]
  have hd : ("#/" ++ path).toList.drop 2 = path.toList := by simp
  unfold resolveRef decodedKeys
  rw [if_pos hs, hd]
  simp only [unescape_eq]
  generalize Json.obj root = node
  induction path.toList.splitOn '/' generalizing node with
  | nil => rfl
  | cons part parts ih =>
    rw [List.foldlM_cons, List.map_cons]
    cases node with
    | obj fs =>
      rw [leadsTo]
      dsimp only
      cases Args.get? fs (String.ofList (decodeKey part)) with
      | none => rfl
      | some inner => exact ih inner
    | _ => rfl

theorem decodeKey_escaped (key : List Char) : decodeKey (key.flatMap escapeKeyChar) = key := by
  induction key with
  | nil => rfl
  | cons c key ih =>
    rw [List.flatMap_cons, escapeKeyChar]
    split_ifs with ht hs
    · subst ht
      show decodeKey ('~' :: '0' :: key.flatMap escapeKeyChar) = _
      rw [decodeKey, ih]
    · subst hs
      show decodeKey ('~' :: '1' :: key.flatMap escapeKeyChar) = _
      rw [decodeKey, ih]
    · have hd : decodeKey ([c] ++ key.flatMap escapeKeyChar) = c :: decodeKey (key.flatMap escapeKeyChar) := by
        rw [List.singleton_append, decodeKey]
        · rintro s rfl
          exact absurd rfl ht
        · rintro s rfl
          exact absurd rfl ht
      rw [hd, ih]

theorem slash_not_mem_escaped (key : List Char) : '/' ∉ key.flatMap escapeKeyChar := by
  intro h
  obtain ⟨c, -, hc⟩ := List.mem_flatMap.mp h
  unfold escapeKeyChar at hc
  split_ifs at hc with ht hs
  · simp at hc
  · simp at hc
  · exact hs (List.mem_singleton.mp hc).symm

theorem decodedKeys_pointer {keys : List String} (h : keys ≠ []) :
    ∃ path, pointer keys = "#/" ++ path ∧ decodedKeys path = keys := by
  refine ⟨String.ofList (['/'].intercalate (keys.map fun key => key.toList.flatMap escapeKeyChar)), ?_, ?_⟩
  · exact String.toList_injective (by simp [pointer])
  · rw [decodedKeys, String.toList_ofList, List.splitOn_intercalate, List.map_map]
    · exact (List.map_congr_left fun key _ => by simp [decodeKey_escaped]).trans (List.map_id' keys)
    · intro l hl
      obtain ⟨key, -, rfl⟩ := List.mem_map.mp hl
      exact slash_not_mem_escaped key.toList
    · simpa using h

/-- Keys that lead to a node make a pointer to it, and a pointer whose keys lead nowhere gives nothing. -/
theorem pointers_resolved (root : Args) :
    (∀ keys node, keys ≠ [] → leadsTo keys (.obj root) = some node → resolveRef (pointer keys) root = some node) ∧
      ∀ path, leadsTo (decodedKeys path) (.obj root) = none → resolveRef ("#/" ++ path) root = none := by
  refine ⟨fun keys node hk h => ?_, fun path h => (resolveRef_eq path root).trans h⟩
  obtain ⟨path, hp, hd⟩ := decodedKeys_pointer hk
  rw [hp, resolveRef_eq, hd, h]

/-- The full expansion of a node, if it ends within the nested steps given: the levels of containers and the references
that are followed. -/
def expandWithin (root : Args) : ℕ → Json → Option Json
  | 0, .obj _ | 0, .arr _ => none
  | steps + 1, .obj fields =>
    match Args.get? fields "$ref" with
    | some (.str ref) =>
      match resolveRef ref root with
      | none | some .null => some (.obj [])
      | some target => expandWithin root steps target
    | _ => (fields.mapM fun e => (expandWithin root steps e.2).map fun j => (e.1, j)).map .obj
  | steps + 1, .arr items => (items.mapM (expandWithin root steps)).map .arr
  | _, node => some node

def NestedWithin : ℕ → Json → Prop
  | 0, .obj _ | 0, .arr _ => False
  | levels + 1, .obj fields => ∀ e ∈ fields, NestedWithin levels e.2
  | levels + 1, .arr items => ∀ j ∈ items, NestedWithin levels j
  | _, _ => True

variable {root : Args}

theorem nestedWithin_derefFrom {depth levels : ℕ} (h : depth < levels) (node : Json) :
    NestedWithin levels (derefFrom root depth node) := by
  obtain ⟨levels, rfl⟩ : ∃ n, levels = n + 1 := ⟨levels - 1, by omega⟩
  induction depth generalizing levels node with
  | zero => exact List.forall_mem_nil _
  | succ depth ih =>
    have hin (j : Json) : NestedWithin levels (derefFrom root depth j) := by
      obtain ⟨levels, rfl⟩ : ∃ n, levels = n + 1 := ⟨levels - 1, by omega⟩
      exact ih j levels (by omega)
    cases node with
    | obj fields =>
      rw [derefFrom]
      split
      · split
        · exact List.forall_mem_nil _
        · exact List.forall_mem_nil _
        · exact ih _ levels (by omega)
      · exact List.forall_mem_map.mpr fun e _ => hin e.2
    | arr items => exact List.forall_mem_map.mpr fun j _ => hin j
    | _ => trivial

theorem map_of_mapM {α β : Type} {f : α → Option β} {g : α → β} (hg : ∀ a b, f a = some b → g a = b) {l : List α}
    {r : List β} (h : l.mapM f = some r) : l.map g = r :=
  (map_eq_of_forall₂ (mapM_eq_some.mp h) hg).trans r.map_id

theorem derefFrom_of_expandWithin {steps depth : ℕ} (hd : steps ≤ depth) {node out : Json}
    (h : expandWithin root steps node = some out) : derefFrom root (depth + 1) node = out := by
  induction steps generalizing depth node out with
  | zero =>
    cases node with
    | obj | arr => cases h
    | _ => exact Option.some.inj h
  | succ steps ih =>
    obtain ⟨depth, rfl⟩ : ∃ n, depth = n + 1 := ⟨depth - 1, by omega⟩
    replace ih := fun node out => @ih _ (Nat.le_of_succ_le_succ hd) node out
    cases node with
    | obj fields =>
      rw [expandWithin] at h
      -- The goal is unfolded only after the splits, which would otherwise split its own match along.
      split at h
      · rename_i ref hr
        split at h
        · rename_i hm
          rw [derefFrom]
          simpa only [hr, hm] using Option.some.inj h
        · rename_i hm
          rw [derefFrom]
          simpa only [hr, hm] using Option.some.inj h
        · rename_i target hn hm
          rw [derefFrom]
          simp only [hr, hm]
          cases target with
          | null => exact absurd rfl hn
          | _ => exact ih _ _ h
      · rename_i hr
        rw [derefFrom]
        split
        · exact absurd ‹_› (hr _)
        obtain ⟨fs, hfs, rfl⟩ := Option.map_eq_some_iff.mp h
        refine congrArg Json.obj (map_of_mapM (fun e b hb => ?_) hfs)
        obtain ⟨j, hj, rfl⟩ := Option.map_eq_some_iff.mp hb
        exact congrArg _ (ih _ _ hj)
    | arr items =>
      obtain ⟨js, hjs, rfl⟩ := Option.map_eq_some_iff.mp h
      exact congrArg Json.arr (map_of_mapM ih hjs)
    | _ => exact Option.some.inj h

/-- The result of `_deref` is nested at most two levels deeper than the bound on references, and is the full expansion
where that ends within the bound. -/
theorem deref_expands (root : Args) (node : Json) :
    NestedWithin (maxRefDepth + 2) (deref root node) ∧
      ∀ out, expandWithin root maxRefDepth node = some out → deref root node = out :=
  ⟨nestedWithin_derefFrom (by decide) node, fun _ => derefFrom_of_expandWithin le_rfl⟩

end McpworksApi.OpenApi
