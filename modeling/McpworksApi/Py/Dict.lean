import McpworksApi.Py.Json

/-! Dictionaries as lists of entries in the order of their first insertion. `upsert` adds an entry
under its own key and replaces the one that was there, so that in a list of insertions the last
one under a key is the one that stays. -/

namespace McpworksApi.Py

variable {α : Type} {key : α → String} {d l : List α} {x y : α}

def upsert (key : α → String) (d : List α) (x : α) : List α :=
  if d.any (key · = key x) then d.map fun y => if key y = key x then x else y else d ++ [x]

theorem map_key_upsert : (upsert key d x).map key =
    if d.any (key · = key x) then d.map key else d.map key ++ [key x] := by
  unfold upsert
  split
  · rw [List.map_map]
    refine List.map_congr_left fun y _ => ?_
    rw [Function.comp_apply]
    split
    · rename_i h
      exact h.symm
    · rfl
  · rw [List.map_append, List.map_singleton]

theorem mem_upsert (h : y ∈ upsert key d x) : y ∈ d ∨ y = x := by
  unfold upsert at h
  split at h
  · obtain ⟨z, hz, rfl⟩ := List.mem_map.mp h
    split
    · exact .inr rfl
    · exact .inl hz
  · simpa using h

theorem key_mem_upsert_self (key : α → String) (d : List α) (x : α) : key x ∈ (upsert key d x).map key := by
  rw [map_key_upsert]
  split
  · rename_i h
    obtain ⟨y, hy, hk⟩ := List.any_eq_true.mp h
    exact List.mem_map.mpr ⟨y, hy, by simpa using hk⟩
  · exact List.mem_append_right _ (List.mem_singleton_self _)

theorem key_mem_upsert {k : String} (h : k ∈ d.map key) : k ∈ (upsert key d x).map key := by
  rw [map_key_upsert]
  split
  · exact h
  · exact List.mem_append_left _ h

theorem nodup_upsert (h : (d.map key).Nodup) : ((upsert key d x).map key).Nodup := by
  rw [map_key_upsert]
  split
  · exact h
  · rename_i hn
    refine List.nodup_append.mpr ⟨h, List.nodup_singleton _, ?_⟩
    intro k hk k' hk'
    obtain ⟨y, hy, rfl⟩ := List.mem_map.mp hk
    obtain rfl := List.mem_singleton.mp hk'
    intro heq
    exact hn (List.any_eq_true.mpr ⟨y, hy, by simpa using heq⟩)

theorem mem_foldl_upsert (h : y ∈ l.foldl (upsert key) d) : y ∈ d ∨ y ∈ l := by
  induction l generalizing d with
  | nil => exact .inl h
  | cons x l ih =>
    rcases ih h with h | h
    · rcases mem_upsert h with h | rfl
      · exact .inl h
      · exact .inr List.mem_cons_self
    · exact .inr (List.mem_cons_of_mem _ h)

theorem nodup_foldl_upsert (h : (d.map key).Nodup) : ((l.foldl (upsert key) d).map key).Nodup := by
  induction l generalizing d with
  | nil => exact h
  | cons x l ih => exact ih (nodup_upsert h)

theorem key_mem_foldl_upsert {k : String} (h : k ∈ d.map key ∨ k ∈ l.map key) :
    k ∈ (l.foldl (upsert key) d).map key := by
  induction l generalizing d with
  | nil =>
    rcases h with h | h
    · exact h
    · cases h
  | cons x l ih =>
    refine ih ?_
    rcases h with h | h
    · exact .inl (key_mem_upsert h)
    · rcases List.mem_cons.mp h with rfl | h
      · exact .inl (key_mem_upsert_self key d x)
      · exact .inr h

theorem foldl_upsert_of_nodup (h : (l.map key).Nodup) : l.foldl (upsert key) [] = l := by
  suffices hg : ∀ d : List α, ((d ++ l).map key).Nodup → l.foldl (upsert key) d = d ++ l from hg [] h
  clear h
  induction l with
  | nil => intro d _; simp
  | cons x l ih =>
    intro d hd
    have hn : d.any (key · = key x) = false := by
      rw [List.any_eq_false]
      intro y hy
      rw [List.map_append, List.nodup_append] at hd
      simpa using hd.2.2 (key y) (List.mem_map_of_mem hy) (key x) (by simp)
    have hin : upsert key d x = d ++ [x] := by simp [upsert, hn]
    rw [List.foldl_cons, hin, ih (d ++ [x]) (by simpa using hd), List.append_assoc]
    rfl

theorem find?_of_nodup (h : (d.map key).Nodup) (hx : x ∈ d) : d.find? (key · = key x) = some x := by
  induction d with
  | nil => cases hx
  | cons y d ih =>
    obtain ⟨hy, hd⟩ := List.nodup_cons.mp h
    rcases List.mem_cons.mp hx with rfl | hx
    · exact List.find?_cons_of_pos (by simp)
    · have hne : key y ≠ key x := fun heq => hy (heq ▸ List.mem_map_of_mem hx)
      rw [List.find?_cons_of_neg (by simpa using hne)]
      exact ih hd hx

theorem find?_foldl_upsert (key : α → String) (hx : x ∈ l) :
    ∃ y ∈ l, key y = key x ∧ (l.foldl (upsert key) []).find? (key · = key x) = some y := by
  have hk : key x ∈ (l.foldl (upsert key) []).map key := key_mem_foldl_upsert (.inr (List.mem_map_of_mem hx))
  obtain ⟨y, hy, heq⟩ := List.mem_map.mp hk
  have hn : ((l.foldl (upsert key) []).map key).Nodup := nodup_foldl_upsert List.nodup_nil
  refine ⟨y, (mem_foldl_upsert hy).resolve_left List.not_mem_nil, heq, ?_⟩
  rw [← heq]
  exact find?_of_nodup hn hy

end McpworksApi.Py
