import Mathlib.Tactic

/-! Computations over a database session. A computation reads and updates a state and either returns a value or raises
an error, and the state it reached survives the error: what becomes of the pending writes is decided by whoever owns
the session, with `transaction`. -/

namespace McpworksApi

def Session (σ ε α : Type) : Type := σ → Except ε α × σ

namespace Session

variable {σ ε α β : Type}

protected def pure (a : α) : Session σ ε α := fun s => (.ok a, s)

protected def bind (m : Session σ ε α) (f : α → Session σ ε β) : Session σ ε β := fun s =>
  match m s with
  | (.ok a, s') => f a s'
  | (.error e, s') => (.error e, s')

instance : Monad (Session σ ε) where
  pure := Session.pure
  bind := Session.bind

def raise (e : ε) : Session σ ε α := fun s => (.error e, s)

def fetch (f : σ → Except ε α) : Session σ ε α := fun s => (f s, s)

def query (f : σ → α) : Session σ ε α := fun s => (.ok (f s), s)

def write (f : σ → σ) : Session σ ε Unit := fun s => (.ok (), f s)

def handle (m : Session σ ε α) (h : ε → Session σ ε α) : Session σ ε α := fun s =>
  match m s with
  | (.ok a, s') => (.ok a, s')
  | (.error e, s') => h e s'

def mapError {ε' : Type} (f : ε → ε') (m : Session σ ε α) : Session σ ε' α := fun s =>
  match m s with
  | (.ok a, s') => (.ok a, s')
  | (.error e, s') => (.error (f e), s')

def attempt (m : Session σ ε α) : Session σ ε (Except ε α) := fun s =>
  match m s with
  | (r, s') => (.ok r, s')

/-- Run `m` as the body of a session scope: what it wrote is kept when it returns, and
`rollback before after` is the state left behind when it raises. -/
def transaction (rollback : σ → σ → σ) (m : Session σ ε α) : Session σ ε α := fun s =>
  match m s with
  | (.ok a, s') => (.ok a, s')
  | (.error e, s') => (.error e, rollback s s')

@[simp] theorem pure_apply (a : α) (s : σ) : (pure a : Session σ ε α) s = (.ok a, s) := rfl

@[simp] theorem raise_apply (e : ε) (s : σ) : (raise e : Session σ ε α) s = (.error e, s) := rfl

@[simp] theorem fetch_apply (f : σ → Except ε α) (s : σ) : fetch f s = (f s, s) := rfl

@[simp] theorem query_apply (f : σ → α) (s : σ) : (query f : Session σ ε α) s = (.ok (f s), s) := rfl

@[simp] theorem write_apply (f : σ → σ) (s : σ) : (write f : Session σ ε Unit) s = (.ok (), f s) := rfl

variable {f : α → Session σ ε β} {m : Session σ ε α} {q : σ → Except ε α} {s s' s'' : σ} {a : α} {e : ε} {b : β}

theorem apply_of_ok (h : (m s).1 = .ok a) : m s = (.ok a, (m s).2) := by
  rw [← h]

theorem bind_apply (m : Session σ ε α) (f : α → Session σ ε β) (s : σ) : (m >>= f) s = match m s with
      | (.ok a, s') => f a s'
      | (.error e, s') => (.error e, s') := rfl

theorem bind_of_ok (h : m s = (.ok a, s')) : (m >>= f) s = f a s' := by
  rw [bind_apply, h]

theorem bind_of_error (h : m s = (.error e, s')) : (m >>= f) s = (.error e, s') := by
  rw [bind_apply, h]

@[simp] theorem pure_bind_apply (a : α) (f : α → Session σ ε β) (s : σ) : (pure a >>= f) s = f a s := rfl

@[simp] theorem raise_bind_apply (e : ε) (f : α → Session σ ε β) (s : σ) :
    (raise e >>= f) s = (.error e, s) := rfl

@[simp] theorem query_bind_apply (q : σ → α) (f : α → Session σ ε β) (s : σ) :
    (query q >>= f) s = f (q s) s := rfl

@[simp] theorem write_bind_apply (w : σ → σ) (f : Unit → Session σ ε β) (s : σ) :
    (write w >>= f) s = f () (w s) := rfl

theorem query_bind_of_eq {q : σ → α} (h : q s = a) : (query q >>= f) s = f a s := by
  rw [query_bind_apply, h]

theorem fetch_bind_apply : (fetch q >>= f) s = match q s with
      | .ok a => f a s
      | .error e => (.error e, s) := by
  rw [bind_apply, fetch_apply]
  cases q s <;> rfl

theorem fetch_bind_of_ok (h : q s = .ok a) : (fetch q >>= f) s = f a s := by
  rw [fetch_bind_apply, h]

theorem fetch_bind_of_error (h : q s = .error e) : (fetch q >>= f) s = (.error e, s) := by
  rw [fetch_bind_apply, h]

theorem bind_pure_snd (m : Session σ ε α) (g : α → β) (s : σ) : ((m >>= fun a => pure (g a)) s).2 = (m s).2 := by
  rcases h : m s with ⟨r, s'⟩
  cases r with
  | ok a => rw [bind_of_ok h]; rfl
  | error e => rw [bind_of_error h]

theorem fetch_bind_fst_eq_ok : ((fetch q >>= f) s).1 = .ok b ↔ ∃ a, q s = .ok a ∧ (f a s).1 = .ok b := by
  rcases h : q s with e | a
  · simp [fetch_bind_of_error h]
  · simp [fetch_bind_of_ok h]

protected theorem bind_eq_ok :
    (m >>= f) s = (.ok b, s'') ↔ ∃ a s', m s = (.ok a, s') ∧ f a s' = (.ok b, s'') := by
  rw [bind_apply]
  rcases h : m s with ⟨r, s'⟩
  cases r <;> simp

theorem bind_eq_error : (m >>= f) s = (.error e, s'') ↔
      m s = (.error e, s'') ∨ ∃ a s', m s = (.ok a, s') ∧ f a s' = (.error e, s'') := by
  rw [bind_apply]
  rcases h : m s with ⟨r, s'⟩
  cases r <;> simp

theorem handle_eq_ok {h : ε → Session σ ε α} :
    handle m h s = (.ok a, s'') ↔ m s = (.ok a, s'') ∨ ∃ e s', m s = (.error e, s') ∧ h e s' = (.ok a, s'') := by
  unfold handle
  rcases hm : m s with ⟨r, s'⟩
  cases r <;> simp

theorem fetch_bind_eq_ok : (fetch q >>= f) s = (.ok b, s') ↔ ∃ a, q s = .ok a ∧ f a s = (.ok b, s') := by
  rcases h : q s with e | a
  · simp [fetch_bind_of_error h]
  · simp [fetch_bind_of_ok h]

theorem fetch_bind_eq_error :
    (fetch q >>= f) s = (.error e, s') ↔ (q s = .error e ∧ s' = s) ∨ ∃ a, q s = .ok a ∧ f a s = (.error e, s') := by
  rcases h : q s with e' | a
  · simp [fetch_bind_of_error h, eq_comm]
  · simp [fetch_bind_of_ok h]

end Session

end McpworksApi
