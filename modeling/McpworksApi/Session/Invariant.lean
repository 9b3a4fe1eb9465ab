import McpworksApi.Session.Basic

/-! Invariants of session computations. `Maintains I m Q` says that `m`, run from any state with `I`, ends in a state
with `I` whether it returns or raises, and that what it returns satisfies `Q`. -/

namespace McpworksApi.Session

variable {σ ε α β : Type} {I : σ → Prop}

def Maintains (I : σ → Prop) (m : Session σ ε α) (Q : α → Prop) : Prop :=
  ∀ s, I s → I (m s).2 ∧ ∀ a, (m s).1 = .ok a → Q a

namespace Maintains

variable {Q : α → Prop} {m : Session σ ε α}

theorem forget (hm : Maintains I m Q) : Maintains I m fun _ => True :=
  fun s hs => ⟨(hm s hs).1, fun _ _ => trivial⟩

protected theorem pure {a : α} (h : Q a) : Maintains I (pure a : Session σ ε α) Q := by
  intro s hs
  refine ⟨hs, fun b hb => ?_⟩
  simp only [pure_apply, Except.ok.injEq] at hb
  exact hb ▸ h

protected theorem raise {e : ε} : Maintains I (raise e : Session σ ε α) Q :=
  fun _ hs => ⟨hs, fun a ha => by simp at ha⟩

protected theorem fetch {f : σ → Except ε α} (h : ∀ s a, I s → f s = .ok a → Q a) : Maintains I (fetch f) Q :=
  fun s hs => ⟨hs, fun a ha => h s a hs ha⟩

protected theorem write {f : σ → σ} {Q : Unit → Prop} (h : ∀ s, I s → I (f s)) (hQ : Q ()) :
    Maintains I (write f : Session σ ε Unit) Q :=
  fun s hs => ⟨h s hs, fun _ _ => hQ⟩

protected theorem bind {f : α → Session σ ε β}
    {Q' : β → Prop} (hm : Maintains I m Q) (hf : ∀ a, Q a → Maintains I (f a) Q') :
    Maintains I (m >>= f) Q' := by
  intro s hs
  obtain ⟨hI, hQ⟩ := hm s hs
  rw [bind_apply]
  rcases h : m s with ⟨r, s'⟩
  rw [h] at hI hQ
  cases r with
  | ok a => exact hf a (hQ a rfl) s' hI
  | error e => exact ⟨hI, fun b hb => by simp at hb⟩

protected theorem map {f : α → β} (hm : Maintains I m Q) : Maintains I (m >>= fun a => pure (f a)) fun _ => True :=
  hm.bind fun _ _ => .pure trivial

theorem bind_from {f : α → Session σ ε β} {Q : β → Prop} {s : σ} (hm : I (m s).2)
    (hf : ∀ a, Maintains I (f a) Q) : I ((m >>= f) s).2 := by
  rcases h : m s with ⟨r, s'⟩
  rw [h] at hm
  cases r with
  | ok a =>
    rw [bind_of_ok h]
    exact (hf a s' hm).1
  | error e =>
    rw [bind_of_error h]
    exact hm

protected theorem query_bind {f : σ → α} {g : α → Session σ ε β} {Q : β → Prop}
    (h : ∀ s, I s → Maintains I (g (f s)) Q) : Maintains I (query f >>= g) Q := by
  intro s hs
  rw [query_bind_apply]
  exact h s hs s hs

protected theorem fetch_bind {f : σ → Except ε α} {g : α → Session σ ε β} {Q : β → Prop}
    (h : ∀ s a, I s → f s = .ok a → Maintains I (g a) Q) : Maintains I (fetch f >>= g) Q := by
  intro s hs
  rcases hf : f s with e | a
  · rw [fetch_bind_of_error hf]
    exact ⟨hs, fun b hb => by simp at hb⟩
  · rw [fetch_bind_of_ok hf]
    exact h s a hs hf s hs

protected theorem write_bind {f : σ → σ} {g : Unit → Session σ ε β} {Q : β → Prop} (hf : ∀ s, I s → I (f s))
    (hg : Maintains I (g ()) Q) : Maintains I (write f >>= g) Q := by
  intro s hs
  rw [write_bind_apply]
  exact hg (f s) (hf s hs)

protected theorem handle {h : ε → Session σ ε α}
    (hm : Maintains I m Q) (hh : ∀ e, Maintains I (h e) Q) : Maintains I (handle m h) Q := by
  intro s hs
  obtain ⟨hI, hQ⟩ := hm s hs
  unfold handle
  rcases heq : m s with ⟨r, s'⟩
  rw [heq] at hI hQ
  cases r with
  | ok a => exact ⟨hI, hQ⟩
  | error e => exact hh e s' hI

protected theorem attempt (hm : Maintains I m Q) : Maintains I (attempt m) fun _ => True := by
  intro s hs
  exact ⟨(hm s hs).1, fun _ _ => trivial⟩

protected theorem transaction {rb : σ → σ → σ}
    (hm : Maintains I m Q) (hr : ∀ s s', I s → I s' → I (rb s s')) :
    Maintains I (transaction rb m) Q := by
  intro s hs
  obtain ⟨hI, hQ⟩ := hm s hs
  unfold transaction
  rcases heq : m s with ⟨r, s'⟩
  rw [heq] at hI hQ
  cases r with
  | ok a => exact ⟨hI, hQ⟩
  | error e => exact ⟨hr s s' hs hI, fun a ha => by cases ha⟩

end Maintains

def Keeps {γ : Type} (g : σ → γ) (m : Session σ ε α) : Prop := ∀ s, g (m s).2 = g s

namespace Keeps

variable {γ : Type} {g : σ → γ}

variable {f : α → Session σ ε β} {m : Session σ ε α}

theorem iff_maintains : Keeps g m ↔ ∀ x, Maintains (fun s => g s = x) m fun _ => True :=
  ⟨fun h _ s hs => ⟨(h s).trans hs, fun _ _ => trivial⟩, fun h s => (h (g s) s rfl).1⟩

protected theorem pure (a : α) : Keeps g (pure a : Session σ ε α) := fun _ => rfl

protected theorem raise (e : ε) : Keeps g (raise e : Session σ ε α) := fun _ => rfl

protected theorem fetch (q : σ → Except ε α) : Keeps g (fetch q) := fun _ => rfl

protected theorem query (q : σ → α) : Keeps g (query q : Session σ ε α) := fun _ => rfl

protected theorem write {f : σ → σ} (h : ∀ s, g (f s) = g s) : Keeps g (write f : Session σ ε Unit) := h

protected theorem bind (hm : Keeps g m) (hf : ∀ a, Keeps g (f a)) : Keeps g (m >>= f) := by
  intro s
  have hs := hm s
  rcases h : m s with ⟨r, s'⟩
  rw [h] at hs
  cases r with
  | ok a =>
    rw [bind_of_ok h]
    exact (hf a s').trans hs
  | error e =>
    rw [bind_of_error h]
    exact hs

protected theorem fetch_bind {q : σ → Except ε α} (hf : ∀ a, Keeps g (f a)) : Keeps g (fetch q >>= f) :=
  (Keeps.fetch q).bind hf

protected theorem query_bind {q : σ → α} (hf : ∀ a, Keeps g (f a)) : Keeps g (query q >>= f) :=
  (Keeps.query q).bind hf

protected theorem write_bind {u : σ → σ} {f : Unit → Session σ ε β} (hu : ∀ s, g (u s) = g s) (hf : Keeps g (f ())) :
    Keeps g (write u >>= f) :=
  (Keeps.write hu).bind fun _ => hf

protected theorem handle {h : ε → Session σ ε α} (hm : Keeps g m) (hh : ∀ e, Keeps g (h e)) :
    Keeps g (handle m h) := by
  intro s
  have hs := hm s
  unfold handle
  rcases heq : m s with ⟨r, s'⟩
  rw [heq] at hs
  cases r with
  | ok a => exact hs
  | error e => exact (hh e s').trans hs

end Keeps

def Yields (m : Session σ ε α) (Q : α → Prop) : Prop := ∀ s, ∃ a, (m s).1 = .ok a ∧ Q a

namespace Yields

protected theorem pure {a : α} {Q : α → Prop} (h : Q a) : Yields (pure a : Session σ ε α) Q :=
  fun _ => ⟨a, rfl, h⟩

protected theorem write {f : σ → σ} {Q : Unit → Prop} (h : Q ()) : Yields (write f : Session σ ε Unit) Q :=
  fun _ => ⟨(), rfl, h⟩

protected theorem attempt (m : Session σ ε α) : Yields (attempt m) fun _ => True :=
  fun s => ⟨(m s).1, rfl, trivial⟩

variable {f : α → Session σ ε β} {Q : β → Prop}

theorem bind_from {m : Session σ ε α} {P : α → Prop} {s : σ}
    (hm : ∃ a, (m s).1 = .ok a ∧ P a) (hf : ∀ a, P a → Yields (f a) Q) : ∃ b, ((m >>= f) s).1 = .ok b ∧ Q b := by
  obtain ⟨a, ha, hP⟩ := hm
  rcases h : m s with ⟨r, s'⟩
  rw [h] at ha
  obtain rfl : r = .ok a := ha
  rw [bind_of_ok h]
  exact hf a hP s'

protected theorem bind {m : Session σ ε α} {P : α → Prop} (hm : Yields m P)
    (hf : ∀ a, P a → Yields (f a) Q) : Yields (m >>= f) Q :=
  fun s => bind_from (hm s) hf

protected theorem query_bind {q : σ → α} (hf : ∀ a, Yields (f a) Q) : Yields (query q >>= f) Q :=
  fun s => hf (q s) s

end Yields

def Raises (m : Session σ ε α) (P : ε → Prop) : Prop := ∀ s e, (m s).1 = .error e → P e

namespace Raises

variable {P : ε → Prop}

protected theorem pure (a : α) : Raises (pure a : Session σ ε α) P := fun _ _ h => by cases h

protected theorem fetch {f : σ → Except ε α} (h : ∀ s e, f s = .error e → P e) : Raises (fetch f) P := h

theorem fst_ne {m : Session σ ε α} {s : σ} {e : ε} (h : Raises m P) (he : ¬ P e) : (m s).1 ≠ .error e :=
  fun hm => he (h s e hm)

protected theorem bind {m : Session σ ε α} {f : α → Session σ ε β} (hm : Raises m P) (hf : ∀ a, Raises (f a) P) :
    Raises (m >>= f) P := by
  intro s e he
  rcases h : m s with ⟨r, s'⟩
  cases r with
  | ok a =>
    rw [bind_of_ok h] at he
    exact hf a s' e he
  | error e' =>
    rw [bind_of_error h] at he
    obtain rfl := Except.error.inj he
    exact hm s e' (by rw [h])

protected theorem fetch_bind {q : σ → Except ε α} {f : α → Session σ ε β} (hq : ∀ s e, q s = .error e → P e)
    (hf : ∀ a, Raises (f a) P) : Raises (fetch q >>= f) P :=
  (Raises.fetch hq).bind hf

protected theorem query_bind {q : σ → α} {f : α → Session σ ε β} (hf : ∀ a, Raises (f a) P) :
    Raises (query q >>= f) P :=
  fun s => hf (q s) s

protected theorem write_bind {u : σ → σ} {f : Unit → Session σ ε β} (hf : Raises (f ()) P) :
    Raises (write u >>= f) P :=
  fun s => hf (u s)

end Raises

end McpworksApi.Session
