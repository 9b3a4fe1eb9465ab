import Mathlib.Tactic

/-! Writing a list of entries into places where the first entry wins. `place e x` is what becomes of a place that holds
`x`; once an entry was placed, a later one changes nothing. -/

namespace McpworksApi.FirstWins

variable {κ ν σ : Type} [DecidableEq κ] (place : ν → σ → σ)

def put (m : κ → σ) (e : κ × ν) : κ → σ := Function.update m e.1 (place e.2 (m e.1))

def settle (m : κ → σ) (es : List (κ × ν)) (k : κ) : σ :=
  match es.find? (·.1 = k) with
  | none => m k
  | some e => place e.2 (m k)

theorem put_apply (m : κ → σ) (e : κ × ν) (k : κ) : put place m e k = if k = e.1 then place e.2 (m k) else m k := by
  rw [put, Function.update_apply]
  split
  · rename_i h
    rw [h]
  · rfl

theorem foldl_put (absorb : ∀ a b x, place b (place a x) = place a x) (es : List (κ × ν)) (m : κ → σ) :
    es.foldl (put place) m = settle place m es := by
  induction es generalizing m with
  | nil => rfl
  | cons e es ih =>
    rw [List.foldl_cons, ih]
    funext k
    -- a place that was just filled ignores the entries that follow
    by_cases hk : e.1 = k
    · have hh : (e :: es).find? (·.1 = k) = some e := List.find?_cons_of_pos (by simpa using hk)
      simp only [settle, hh, put_apply, if_pos hk.symm]
      split
      · rfl
      · exact absorb _ _ _
    · have ht : (e :: es).find? (·.1 = k) = es.find? (·.1 = k) := List.find?_cons_of_neg (by simpa using hk)
      simp only [settle, ht, put_apply, if_neg (Ne.symm hk)]

end McpworksApi.FirstWins
