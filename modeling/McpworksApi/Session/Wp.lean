import McpworksApi.Session.Invariant

/-! Weakest preconditions of session computations. `Wp m Q E s` says that `m`, run from `s`, returns a value and
reaches a state with `Q`, or raises an error and reaches a state with `E`. -/

namespace McpworksApi.Session

variable {σ ε α β : Type} {Q : α → σ → Prop} {E : ε → σ → Prop} {s : σ}

def Wp (m : Session σ ε α) (Q : α → σ → Prop) (E : ε → σ → Prop) (s : σ) : Prop :=
  match m s with
  | (.ok a, s') => Q a s'
  | (.error e, s') => E e s'

namespace Wp

variable {m : Session σ ε α} {f : α → Session σ ε β} {P : α → Prop} {q : σ → α} {a : α}

theorem mono {Q' : α → σ → Prop} {E' : ε → σ → Prop} (h : Wp m Q E s) (hQ : ∀ a s', Q a s' → Q' a s')
    (hE : ∀ e s', E e s' → E' e s') : Wp m Q' E' s := by
  unfold Wp at *
  rcases hm : m s with ⟨e | a, s'⟩ <;> rw [hm] at h
  · exact hE e s' h
  · exact hQ a s' h

theorem always_iff {R : σ → Prop} : Wp m (fun _ => R) (fun _ => R) s ↔ R (m s).2 := by
  unfold Wp
  rcases m s with ⟨e | a, s'⟩ <;> rfl

theorem always {R : σ → Prop} (h : Wp m (fun _ => R) (fun _ => R) s) : R (m s).2 := always_iff.mp h

theorem of_ok {s' : σ} (h : Wp m Q E s) (hm : m s = (.ok a, s')) : Q a s' := by
  unfold Wp at h
  rwa [hm] at h

theorem returns_iff {P : Prop} (h : Wp m (fun _ _ => P) (fun _ _ => ¬P) s) : (∃ a s', m s = (.ok a, s')) ↔ P := by
  unfold Wp at h
  rcases hm : m s with ⟨e | a, s'⟩ <;> rw [hm] at h
  · exact iff_of_false (by simp) h
  · exact iff_of_true ⟨a, s', rfl⟩ h

theorem of_maintains {I : σ → Prop} (h : Maintains I m P) (hs : I s) :
    Wp m (fun a s' => I s' ∧ P a) (fun _ => I) s := by
  obtain ⟨hI, hP⟩ := h s hs
  unfold Wp
  rcases hm : m s with ⟨e | a, s'⟩ <;> rw [hm] at hI hP
  · exact hI
  · exact ⟨hI, hP a rfl⟩

theorem of_forall (hQ : ∀ a s', Q a s') (hE : ∀ e s', E e s') : Wp m Q E s := by
  unfold Wp
  rcases m s with ⟨e | a, s'⟩
  · exact hE e s'
  · exact hQ a s'

protected theorem and {Q' : α → σ → Prop} {E' : ε → σ → Prop} (h : Wp m Q E s) (h' : Wp m Q' E' s) :
    Wp m (fun a s' => Q a s' ∧ Q' a s') (fun e s' => E e s' ∧ E' e s') s := by
  unfold Wp at *
  rcases hm : m s with ⟨e | a, s'⟩ <;> rw [hm] at h h'
  · exact ⟨h, h'⟩
  · exact ⟨h, h'⟩

theorem result (m : Session σ ε α) (s : σ) : Wp m (fun a _ => (m s).1 = .ok a) (fun e _ => (m s).1 = .error e) s := by
  unfold Wp
  rcases m s with ⟨e | a, s'⟩ <;> rfl

theorem of_yields (hm : Yields m P) (h : Wp m Q (fun _ _ => True) s) : Wp m Q E s := by
  obtain ⟨a, ha, -⟩ := hm s
  unfold Wp at h ⊢
  rw [apply_of_ok ha] at h ⊢
  exact h

theorem and_keeps {γ : Type} {g : σ → γ} (hm : Keeps g m) (h : Wp m Q E s) :
    Wp m (fun a s' => Q a s' ∧ g s' = g s) (fun e s' => E e s' ∧ g s' = g s) s :=
  h.and (always_iff.mpr (hm s))

protected theorem pure (h : Q a s) : Wp (pure a) Q E s := h

protected theorem raise {e : ε} (h : E e s) : Wp (raise e) Q E s := h

protected theorem query (h : Q (q s) s) : Wp (query q) Q E s := h

protected theorem write {f : σ → σ} {Q : Unit → σ → Prop} (h : Q () (f s)) : Wp (write f) Q E s := h

protected theorem bind {Q : β → σ → Prop} (h : Wp m (fun a => Wp (f a) Q E) E s) : Wp (m >>= f) Q E s := by
  unfold Wp at h ⊢
  rw [bind_apply]
  rcases hm : m s with ⟨e | a, s'⟩ <;> rw [hm] at h <;> exact h

protected theorem fetch_bind {q : σ → Except ε α} {Q : β → σ → Prop}
    (he : ∀ e, q s = .error e → E e s) (hok : ∀ a, q s = .ok a → Wp (f a) Q E s) : Wp (fetch q >>= f) Q E s := by
  refine .bind ?_
  unfold Wp
  rw [fetch_apply]
  rcases hq : q s with e | a
  · exact he e hq
  · exact hok a hq

protected theorem query_bind {Q : β → σ → Prop} (h : Wp (f (q s)) Q E s) : Wp (query q >>= f) Q E s := h

protected theorem query_bind_of_eq {Q : β → σ → Prop} (hq : q s = a)
    (h : Wp (f a) Q E s) : Wp (query q >>= f) Q E s := by
  subst hq
  exact h

protected theorem write_bind {u : σ → σ} {f : Unit → Session σ ε β} {Q : β → σ → Prop} (h : Wp (f ()) Q E (u s)) :
    Wp (write u >>= f) Q E s := h

protected theorem mapError {ε' : Type} {f : ε → ε'} {E' : ε' → σ → Prop}
    (h : Wp m Q (fun e => E' (f e)) s) : Wp (mapError f m) Q E' s := by
  unfold Wp at h ⊢
  unfold Session.mapError
  rcases hm : m s with ⟨e | a, s'⟩ <;> rw [hm] at h <;> exact h

protected theorem attempt {Q : Except ε α → σ → Prop}
    (h : Wp m (fun a => Q (.ok a)) (fun e => Q (.error e)) s) : Wp (attempt m) Q E s := by
  unfold Wp at h ⊢
  unfold attempt
  rcases hm : m s with ⟨e | a, s'⟩ <;> rw [hm] at h <;> exact h

protected theorem handle {f : ε → Session σ ε α} (h : Wp m Q (fun e => Wp (f e) Q E) s) :
    Wp (handle m f) Q E s := by
  unfold Wp at h ⊢
  unfold Session.handle
  rcases hm : m s with ⟨e | a, s'⟩ <;> rw [hm] at h <;> exact h

protected theorem transaction {rb : σ → σ → σ}
    (h : Wp m Q (fun e s' => E e (rb s s')) s) : Wp (transaction rb m) Q E s := by
  unfold Wp at h ⊢
  unfold Session.transaction
  rcases hm : m s with ⟨e | a, s'⟩ <;> rw [hm] at h <;> exact h

end Wp

end McpworksApi.Session
