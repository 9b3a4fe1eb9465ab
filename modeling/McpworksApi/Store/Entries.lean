import Mathlib.Tactic

/-! Lists of keyed entries. Such a list denotes a partial function when no two entries share a key; adding an entry
under a new key and taking one away change the function at that key, and the order does not matter. -/

namespace McpworksApi.Entries

variable {α κ ν : Type} {key : α → κ} {value : α → ν} {es es' : List α} {e : α} {f : κ → Option ν}

/-- The entries are the graph of the partial function, with no key twice. -/
structure Denotes (key : α → κ) (value : α → ν) (es : List α) (f : κ → Option ν) : Prop where
  nodup : (es.map key).Nodup
  iff : ∀ k v, f k = some v ↔ ∃ e ∈ es, key e = k ∧ value e = v

namespace Denotes

theorem nil : Denotes key value [] fun _ => none := by
  refine ⟨List.nodup_nil, fun k v => ?_⟩
  simp

theorem perm (h : Denotes key value es f) (hp : es.Perm es') : Denotes key value es' f := by
  refine ⟨(hp.map key).nodup_iff.mp h.nodup, fun k v => ?_⟩
  rw [h.iff]
  simp only [hp.mem_iff]

theorem congr {β : Type} {key' : β → κ} {v' : β → ν} {l : List β} (h : Denotes key value es f)
    (heq : l.map (fun b => (key' b, v' b)) = es.map fun e => (key e, value e)) : Denotes key' v' l f := by
  have hk : l.map key' = es.map key := by
    have hf := congrArg (List.map Prod.fst) heq
    rw [List.map_map, List.map_map] at hf
    exact hf
  refine ⟨hk ▸ h.nodup, fun k v => ?_⟩
  have hm : (k, v) ∈ l.map (fun b => (key' b, v' b)) ↔ (k, v) ∈ es.map fun e => (key e, value e) := by rw [heq]
  simp only [List.mem_map, Prod.mk.injEq] at hm
  rw [h.iff, hm]

theorem eq_some (h : Denotes key value es f) (he : e ∈ es) : f (key e) = some (value e) :=
    (h.iff _ _).mpr ⟨e, he, rfl, rfl⟩

theorem eq_none_iff (h : Denotes key value es f) {k : κ} : f k = none ↔ ∀ e ∈ es, key e ≠ k := by
  constructor
  · intro hn e he hk
    rw [← hk, h.eq_some he] at hn
    cases hn
  · intro ha
    cases hf : f k with
    | none => rfl
    | some v =>
      obtain ⟨e, he, hk, -⟩ := (h.iff k v).mp hf
      exact absurd hk (ha e he)

variable [DecidableEq κ]

theorem filter_eq_singleton (h : Denotes key value es f) (he : e ∈ es) :
    es.filter (fun a => decide (key a = key e)) = [e] := by
  have hn := h.nodup
  clear h
  induction es with
  | nil => cases he
  | cons a es ih =>
    rw [List.map_cons, List.nodup_cons] at hn
    rcases List.mem_cons.mp he with rfl | he
    · have hno : es.filter (fun a => decide (key a = key e)) = [] :=
        List.filter_eq_nil_iff.mpr fun b hb hk => hn.1 (List.mem_map.mpr ⟨b, hb, by simpa using hk⟩)
      rw [List.filter_cons_of_pos (by simp), hno]
    · have hne : key a ≠ key e := fun heq => hn.1 (List.mem_map.mpr ⟨e, he, heq.symm⟩)
      rw [List.filter_cons_of_neg (by simpa using hne), ih he hn.2]

theorem cons (h : Denotes key value es f) (hn : f (key e) = none) :
    Denotes key value (e :: es) (Function.update f (key e) (some (value e))) := by
  have ha := h.eq_none_iff.mp hn
  refine ⟨?_, fun k v => ?_⟩
  · rw [List.map_cons, List.nodup_cons]
    refine ⟨fun hm => ?_, h.nodup⟩
    obtain ⟨e', he', hk⟩ := List.mem_map.mp hm
    exact ha e' he' hk
  · simp only [List.exists_mem_cons_iff]
    by_cases hk : k = key e
    · subst hk
      have hr : ¬ ∃ e' ∈ es, key e' = key e ∧ value e' = v := fun ⟨e', he', hk', _⟩ => ha e' he' hk'
      simp [hr]
    · rw [Function.update_of_ne hk, h.iff]
      have hne : key e ≠ k := fun heq => hk heq.symm
      simp [hne]

theorem tail (h : Denotes key value (e :: es) f) : Denotes key value es (Function.update f (key e) none) := by
  have hn := h.nodup
  rw [List.map_cons, List.nodup_cons] at hn
  refine ⟨hn.2, fun k v => ?_⟩
  by_cases hk : k = key e
  · subst hk
    have hr : ¬ ∃ e' ∈ es, key e' = key e ∧ value e' = v :=
      fun ⟨e', he', hk', _⟩ => hn.1 (List.mem_map.mpr ⟨e', he', hk'⟩)
    simp [hr]
  · rw [Function.update_of_ne hk, h.iff]
    have hne : key e ≠ k := fun heq => hk heq.symm
    simp [hne]

theorem replace {e' : α} (h : Denotes key value (e :: es) f) (hk : key e' = key e) :
    Denotes key value (e' :: es) (Function.update f (key e) (some (value e'))) := by
  have hn : Function.update f (key e) none (key e') = none := by rw [hk, Function.update_self]
  have hc := h.tail.cons hn
  rwa [hk, Function.update_idem] at hc

end Denotes

end McpworksApi.Entries
