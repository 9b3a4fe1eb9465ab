import Mathlib.Tactic

/-! The first of a sequence of candidates that is not taken: `while candidate in seen`. A sequence without repetitions
leaves a finite list within one more step than the list is long, so that the loop ends. -/

namespace McpworksApi

variable {α : Type} [DecidableEq α] {candidate : ℕ → α} {seen : List α}

def firstFreeFrom (candidate : ℕ → α) (seen : List α) : ℕ → ℕ → α
  | 0, n => candidate n
  | fuel + 1, n => if candidate n ∈ seen then firstFreeFrom candidate seen fuel (n + 1) else candidate n

def firstFree (candidate : ℕ → α) (seen : List α) : α := firstFreeFrom candidate seen seen.length 0

theorem candidate_mem_of_firstFreeFrom_mem {fuel n : ℕ} (h : firstFreeFrom candidate seen fuel n ∈ seen) :
    ∀ i ≤ fuel, candidate (n + i) ∈ seen := by
  induction fuel generalizing n with
  | zero =>
    intro i hi
    obtain rfl : i = 0 := by omega
    exact h
  | succ fuel ih =>
    unfold firstFreeFrom at h
    split at h
    · rename_i hn
      intro i hi
      cases i with
      | zero => exact hn
      | succ i =>
        have hr := ih h i (by omega)
        rwa [show n + 1 + i = n + (i + 1) by omega] at hr
    · rename_i hn
      exact absurd h hn

theorem firstFreeFrom_eq (candidate : ℕ → α) (seen : List α) (fuel n : ℕ) :
    ∃ m, n ≤ m ∧ firstFreeFrom candidate seen fuel n = candidate m ∧ ∀ i, n ≤ i → i < m → candidate i ∈ seen := by
  induction fuel generalizing n with
  | zero => exact ⟨n, le_rfl, rfl, fun i hi hn => by omega⟩
  | succ fuel ih =>
    rw [firstFreeFrom]
    split_ifs with h
    · obtain ⟨m, hm, he, hlt⟩ := ih (n + 1)
      refine ⟨m, by omega, he, fun i hi him => ?_⟩
      rcases hi.eq_or_lt with rfl | hi
      · exact h
      · exact hlt i hi him
    · exact ⟨n, le_rfl, rfl, fun i hi hn => by omega⟩

theorem firstFree_not_mem (hin : Function.Injective candidate) (seen : List α) : firstFree candidate seen ∉ seen := by
  intro hm
  have hal := candidate_mem_of_firstFreeFrom_mem hm
  have hs : (List.range (seen.length + 1)).map candidate ⊆ seen := by
    intro a ha
    obtain ⟨i, hi, rfl⟩ := List.mem_map.mp ha
    have hle : i < seen.length + 1 := List.mem_range.mp hi
    simpa using hal i (by omega)
  have hl := (List.subperm_of_subset (List.nodup_range.map hin) hs).length_le
  simp at hl

/-- The search ends with the first candidate that is free. -/
theorem firstFree_eq (hin : Function.Injective candidate) (seen : List α) :
    ∃ n, candidate n ∉ seen ∧ firstFree candidate seen = candidate n ∧ ∀ m < n, candidate m ∈ seen := by
  obtain ⟨n, -, hn, hlt⟩ := firstFreeFrom_eq candidate seen seen.length 0
  have hf : firstFree candidate seen = candidate n := hn
  exact ⟨n, hf ▸ firstFree_not_mem hin seen, hf, fun m => hlt m (Nat.zero_le m)⟩

end McpworksApi
