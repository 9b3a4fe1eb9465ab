import Mathlib.Tactic

/-! Loops that try again. A loop makes a bounded number of tries; what came of a try decides whether there is another
one or the loop ends with a result, and the decision may depend on the number of the try. -/

namespace McpworksApi.Retries

variable {ω ρ : Type}

inductive Decision (ρ : Type)
  | again
  | stop (result : ρ)

structure Ending (ω ρ : Type) where
  tried : List ω
  result : Option ρ

def loop (decision : ℕ → ω → Decision ρ) (outcome : ℕ → ω) : ℕ → ℕ → Ending ω ρ
  | 0, _ => ⟨[], none⟩
  | left + 1, i =>
    match decision i (outcome i) with
    | .stop result => ⟨[outcome i], some result⟩
    | .again =>
      let rest := loop decision outcome left (i + 1)
      ⟨outcome i :: rest.tried, rest.result⟩

variable {decision : ℕ → ω → Decision ρ} {outcome : ℕ → ω} {left i : ℕ}

theorem loop_of_stop {r : ρ} (h : decision i (outcome i) = .stop r) :
    loop decision outcome (left + 1) i = ⟨[outcome i], some r⟩ := by
  simp only [loop, h]

theorem loop_of_again (h : decision i (outcome i) = .again) : loop decision outcome (left + 1) i =
      ⟨outcome i :: (loop decision outcome left (i + 1)).tried, (loop decision outcome left (i + 1)).result⟩ := by
  simp only [loop, h]

theorem length_tried_le (decision : ℕ → ω → Decision ρ) (outcome : ℕ → ω) (left i : ℕ) :
    (loop decision outcome left i).tried.length ≤ left := by
  induction left generalizing i with
  | zero => exact le_rfl
  | succ left ih =>
    cases h : decision i (outcome i) with
    | stop result =>
      rw [loop_of_stop h]
      simp
    | again =>
      rw [loop_of_again h]
      have := ih (i + 1)
      simp only [List.length_cons]
      omega

theorem stopped_last {rt : ρ} (h : (loop decision outcome left i).result = some rt) :
    ∃ k, i ≤ k ∧ k < i + left ∧ decision k (outcome k) = .stop rt ∧
      (loop decision outcome left i).tried.getLast? = some (outcome k) := by
  induction left generalizing i with
  | zero => cases h
  | succ left ih =>
    cases hd : decision i (outcome i) with
    | stop r =>
      rw [loop_of_stop hd] at h ⊢
      cases h
      exact ⟨i, le_rfl, by omega, hd, rfl⟩
    | again =>
      rw [loop_of_again hd] at h ⊢
      obtain ⟨k, hle, hlt, hs, hl⟩ := ih h
      refine ⟨k, by omega, by omega, hs, ?_⟩
      have hne : (loop decision outcome left (i + 1)).tried ≠ [] := by
        intro hn
        rw [hn] at hl
        cases hl
      rw [List.getLast?_cons_of_ne_nil hne]
      exact hl

def AllAgain (decision : ℕ → ω → Decision ρ) (outcome : ℕ → ω) (i k : ℕ) : Prop :=
  ∀ j, i ≤ j → j < k → decision j (outcome j) = .again

theorem tried_getElem? {k : ℕ} (hlt : k < left) (ha : AllAgain decision outcome i (i + k)) :
    (loop decision outcome left i).tried[k]? = some (outcome (i + k)) := by
  induction left generalizing i k with
  | zero => omega
  | succ left ih =>
    cases k with
    | zero =>
      cases h : decision i (outcome i) with
      | stop result =>
        rw [loop_of_stop h]
        rfl
      | again =>
        rw [loop_of_again h]
        rfl
    | succ k =>
      have hr : AllAgain decision outcome (i + 1) (i + 1 + k) := fun j hj hjk => ha j (by omega) (by omega)
      rw [loop_of_again (ha i le_rfl (by omega)), List.getElem?_cons_succ, ih (by omega) hr]
      congr 2
      omega

theorem allAgain_of_tried {k : ℕ} {o : ω} (h : (loop decision outcome left i).tried[k]? = some o) :
    k < left ∧ o = outcome (i + k) ∧ AllAgain decision outcome i (i + k) := by
  induction left generalizing i k with
  | zero => cases h
  | succ left ih =>
    cases hd : decision i (outcome i) with
    | stop result =>
      rw [loop_of_stop hd] at h
      cases k with
      | zero =>
        cases h
        exact ⟨by omega, rfl, fun j hj hlt => absurd hlt (by omega)⟩
      | succ k => cases h
    | again =>
      rw [loop_of_again hd] at h
      cases k with
      | zero =>
        cases h
        exact ⟨by omega, rfl, fun j hj hlt => absurd hlt (by omega)⟩
      | succ k =>
        obtain ⟨hlt, rfl, ha⟩ := ih h
        refine ⟨by omega, by congr 1; omega, fun j hj hjk => ?_⟩
        rcases Nat.eq_or_lt_of_le hj with rfl | hm
        · exact hd
        · exact ha j hm (by omega)

theorem loop_of_allAgain {k : ℕ} {r : ρ} (hle : i ≤ k) (hlt : k < i + left) (ha : AllAgain decision outcome i k)
    (hs : decision k (outcome k) = .stop r) :
    loop decision outcome left i = ⟨(List.range' i (k + 1 - i)).map outcome, some r⟩ := by
  induction left generalizing i with
  | zero => omega
  | succ left ih =>
    rcases Nat.eq_or_lt_of_le hle with rfl | hm
    · rw [loop_of_stop hs, Nat.add_sub_cancel_left]
      rfl
    · have hsp : k + 1 - i = (k + 1 - (i + 1)) + 1 := by omega
      rw [loop_of_again (ha i le_rfl hm), hsp, List.range'_succ,
        ih hm (by omega) fun j hj hjk => ha j (by omega) hjk]
      rfl

end McpworksApi.Retries
