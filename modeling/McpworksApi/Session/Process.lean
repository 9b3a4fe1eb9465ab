import Mathlib.Tactic

/-! Concurrent processes over a shared store. A process issues one command at a time and goes on with the reply; a
system runs any number of processes under an arbitrary schedule, each command being one atomic step. -/

namespace McpworksApi

inductive Proc (C R ε α : Type)
  | ret (result : Except ε α)
  | call (command : C) (next : R → Proc C R ε α)

namespace Proc

variable {C R ε α β : Type}

protected def bind : Proc C R ε α → (α → Proc C R ε β) → Proc C R ε β
  | .ret (.ok a), f => f a
  | .ret (.error e), _ => .ret (.error e)
  | .call c k, f => .call c fun r => (k r).bind f

instance : Monad (Proc C R ε) where
  pure a := .ret (.ok a)
  bind := Proc.bind

def perform (c : C) : Proc C R ε R := .call c fun r => .ret (.ok r)

def fail (e : ε) : Proc C R ε α := .ret (.error e)

def failAfter (e : ε) : ℕ → Proc C R ε α → Proc C R ε α
  | _, .ret x => .ret x
  | 0, .call _ _ => .ret (.error e)
  | n + 1, .call c k => .call c fun r => (k r).failAfter e n

def All (P : C → R → Prop) (Q : Except ε α → Prop) : Proc C R ε α → Prop
  | .ret x => Q x
  | .call c k => ∀ r, P c r → (k r).All P Q

def EndsAt (P : C → R → Prop) (F : C → Prop) (Q : Except ε α → Prop) : Proc C R ε α → Prop
  | .ret _ => True
  | .call c k => ∀ r, P c r → (k r).EndsAt P F Q ∧ (F c → ∃ x, k r = .ret x ∧ Q x)

variable {P : C → R → Prop} {F : C → Prop}

theorem All.bind {Q : Except ε α → Prop} {Q' : Except ε β → Prop} {m : Proc C R ε α} {f : α → Proc C R ε β}
    (hm : m.All P Q) (hok : ∀ a, Q (.ok a) → (f a).All P Q') (he : ∀ e, Q (.error e) → Q' (.error e)) :
    (m >>= f).All P Q' := by
  induction m with
  | ret x =>
    cases x with
    | ok a => exact hok a hm
    | error e => exact he e hm
  | call c k ih => exact fun r hr => ih r (hm r hr)

theorem All.of_forall {Q : Except ε α → Prop} (hQ : ∀ x, Q x) (m : Proc C R ε α) : m.All P Q := by
  induction m with
  | ret x => exact hQ x
  | call c k ih => exact fun r _ => ih r

theorem EndsAt.perform {Q : Except ε R → Prop} {c : C} (hc : ¬ F c) : (perform c : Proc C R ε R).EndsAt P F Q :=
  fun _ _ => ⟨trivial, fun hF => absurd hF hc⟩

theorem EndsAt.bind {Q : Except ε β → Prop} {m : Proc C R ε α} {f : α → Proc C R ε β}
    (hm : m.EndsAt P F fun _ => False) (hf : ∀ a, (f a).EndsAt P F Q) : (m >>= f).EndsAt P F Q := by
  induction m with
  | ret x =>
    cases x with
    | ok a => exact hf a
    | error e => exact trivial
  | call c k ih =>
    intro r hr
    refine ⟨ih r (hm r hr).1, fun hF => ?_⟩
    obtain ⟨_, _, hfa⟩ := (hm r hr).2 hF
    exact hfa.elim

end Proc

structure Event (C R : Type) where
  thread : ℕ
  time : ℕ
  command : C
  reply : R

structure System (σ C R ε α : Type) where
  store : σ
  procs : List (Proc C R ε α)
  trace : List (Event C R) := []

namespace System

variable {σ C R ε α : Type} {exec : ℕ → C → σ → R × σ}

def step (exec : ℕ → C → σ → R × σ) (s : System σ C R ε α) (it : ℕ × ℕ) : System σ C R ε α :=
  match s.procs[it.1]? with
  | some (.call c k) =>
    { store := (exec it.2 c s.store).2
      procs := s.procs.set it.1 (k (exec it.2 c s.store).1)
      trace := s.trace ++ [⟨it.1, it.2, c, (exec it.2 c s.store).1⟩] }
  | _ => s

def run (exec : ℕ → C → σ → R × σ) (s : System σ C R ε α) (schedule : List (ℕ × ℕ)) : System σ C R ε α :=
  schedule.foldl (step exec) s

theorem step_cases (s : System σ C R ε α) (it : ℕ × ℕ) :
    step exec s it = s ∨ ∃ c k, s.procs[it.1]? = some (.call c k) ∧ step exec s it =
      { store := (exec it.2 c s.store).2
        procs := s.procs.set it.1 (k (exec it.2 c s.store).1)
        trace := s.trace ++ [⟨it.1, it.2, c, (exec it.2 c s.store).1⟩] } := by
  rcases h : s.procs[it.1]? with _ | p
  · exact .inl (by simp [step, h])
  · cases p with
    | ret x => exact .inl (by simp [step, h])
    | call c k => exact .inr ⟨c, k, rfl, by simp [step, h]⟩

theorem run_invariant {I : System σ C R ε α → Prop} (hst : ∀ s it, I s → I (step exec s it))
    {s : System σ C R ε α} (hs : I s) (sch : List (ℕ × ℕ)) : I (run exec s sch) := by
  induction sch generalizing s with
  | nil => exact hs
  | cons it sch ih => exact ih (hst s it hs)

def Permits (exec : ℕ → C → σ → R × σ) (permitted : System σ C R ε α → ℕ × ℕ → Prop) :
    System σ C R ε α → List (ℕ × ℕ) → Prop
  | _, [] => True
  | s, it :: schedule => permitted s it ∧ Permits exec permitted (step exec s it) schedule

theorem run_permitted {pe : System σ C R ε α → ℕ × ℕ → Prop} {I : System σ C R ε α → Prop}
    (hst : ∀ s it, I s → pe s it → I (step exec s it)) {s : System σ C R ε α} (hs : I s)
    {sch : List (ℕ × ℕ)} (h : Permits exec pe s sch) : I (run exec s sch) := by
  induction sch generalizing s with
  | nil => exact hs
  | cons it sch ih => exact ih (hst s it hs h.1) h.2

variable {P : C → R → Prop}

theorem run_all {Q : Except ε α → Prop} (hP : ∀ t c st, P c (exec t c st).1) {s : System σ C R ε α}
    (hs : ∀ p ∈ s.procs, p.All P Q) (sch : List (ℕ × ℕ)) : ∀ p ∈ (run exec s sch).procs, p.All P Q := by
  refine run_invariant (I := fun s => ∀ p ∈ s.procs, p.All P Q) ?_ hs sch
  intro s it hs p hp
  rcases step_cases s it with heq | ⟨c, k, hc, heq⟩
  · exact hs p (heq ▸ hp)
  · rw [heq] at hp
    rcases List.mem_or_eq_of_mem_set hp with hp | rfl
    · exact hs p hp
    · exact hs _ (List.mem_of_getElem? hc) _ (hP _ _ _)

theorem run_endsAt {F : C → Prop} {Q : Except ε α → Prop} (hP : ∀ t c st, P c (exec t c st).1)
    {s : System σ C R ε α} (hs : ∀ p ∈ s.procs, p.EndsAt P F Q) (ht : s.trace = []) (sch : List (ℕ × ℕ)) :
    ∀ e ∈ (run exec s sch).trace, F e.command →
      ∃ x, (run exec s sch).procs[e.thread]? = some (.ret x) ∧ Q x := by
  suffices hin : (∀ p ∈ (run exec s sch).procs, p.EndsAt P F Q) ∧
      ∀ e ∈ (run exec s sch).trace, F e.command →
        ∃ x, (run exec s sch).procs[e.thread]? = some (.ret x) ∧ Q x from hin.2
  refine run_invariant (I := fun s => (∀ p ∈ s.procs, p.EndsAt P F Q) ∧
    ∀ e ∈ s.trace, F e.command → ∃ x, s.procs[e.thread]? = some (.ret x) ∧ Q x) ?_ ⟨hs, by simp [ht]⟩ sch
  rintro s it ⟨hen, hed⟩
  rcases step_cases s it with heq | ⟨c, k, hc, heq⟩
  · rw [heq]
    exact ⟨hen, hed⟩
  have hn := hen _ (List.mem_of_getElem? hc) _ (hP it.2 c s.store)
  rw [heq]
  refine ⟨fun p hp => ?_, fun e he hF => ?_⟩
  · rcases List.mem_or_eq_of_mem_set hp with hp | rfl
    · exact hen p hp
    · exact hn.1
  rcases List.mem_append.mp he with he | he
  · -- an ended process is not the one that took this step
    obtain ⟨x, hx, hQ⟩ := hed e he hF
    have hne : it.1 ≠ e.thread := by
      intro h
      rw [h, hx] at hc
      cases hc
    exact ⟨x, by rw [List.getElem?_set_ne hne]; exact hx, hQ⟩
  · obtain rfl := List.mem_singleton.mp he
    obtain ⟨x, hx, hQ⟩ := hn.2 hF
    have hlt : it.1 < s.procs.length := (List.getElem?_eq_some_iff.mp hc).1
    exact ⟨x, by rw [List.getElem?_set_self hlt, hx], hQ⟩

end System

end McpworksApi
