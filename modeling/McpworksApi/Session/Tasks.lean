import Mathlib.Tactic

/-! Tasks that take turns over a shared state. A turn takes one task from one switch point to the next, with an input
that stands for everything outside: the time, a reply, a failure. -/

namespace McpworksApi

structure Pool (σ τ : Type) where
  state : σ
  tasks : List τ

namespace Pool

variable {σ τ ι : Type}

def step (next : ι → τ → σ → List τ × σ) (p : Pool σ τ) (it : ℕ × ι) : Pool σ τ :=
  match p.tasks[it.1]? with
  | none => p
  | some t =>
    { state := (next it.2 t p.state).2
      tasks := p.tasks.take it.1 ++ (next it.2 t p.state).1 ++ p.tasks.drop (it.1 + 1) }

def run (next : ι → τ → σ → List τ × σ) (p : Pool σ τ) (schedule : List (ℕ × ι)) : Pool σ τ :=
  schedule.foldl (step next) p

def Permits (next : ι → τ → σ → List τ × σ) (permitted : Pool σ τ → ι → τ → Prop) : Pool σ τ → List (ℕ × ι) → Prop
  | _, [] => True
  | p, it :: schedule => (∀ t ∈ p.tasks[it.1]?, permitted p it.2 t) ∧ Permits next permitted (p.step next it) schedule

variable {next : ι → τ → σ → List τ × σ} {pe : Pool σ τ → ι → τ → Prop}

theorem permits_of_forall (h : ∀ p x t, pe p x t) (p : Pool σ τ) (schedule : List (ℕ × ι)) :
    Permits next pe p schedule := by
  induction schedule generalizing p with
  | nil => exact trivial
  | cons it schedule ih => exact ⟨fun t _ => h p it.2 t, ih _⟩

theorem step_cases (p : Pool σ τ) (it : ℕ × ι) :
    p.step next it = p ∨ ∃ before t after, p.tasks[it.1]? = some t ∧ p.tasks = before ++ t :: after ∧
      p.step next it = ⟨(next it.2 t p.state).2, before ++ (next it.2 t p.state).1 ++ after⟩ := by
  cases h : p.tasks[it.1]? with
  | none => exact .inl (by simp [step, h])
  | some t =>
    obtain ⟨hlt, ht⟩ := List.getElem?_eq_some_iff.mp h
    refine .inr ⟨p.tasks.take it.1, t, p.tasks.drop (it.1 + 1), rfl, ?_, by simp [step, h]⟩
    rw [← ht, List.getElem_cons_drop, List.take_append_drop]

theorem step_at (st : σ) (pre : List τ) (t : τ) (post : List τ) (x : ι) :
    step next ⟨st, pre ++ t :: post⟩ (pre.length, x) =
      ⟨(next x t st).2, pre ++ (next x t st).1 ++ post⟩ := by
  simp [step]

theorem run_invariant {I : Pool σ τ → Prop}
    (hs : ∀ state before t after x, I ⟨state, before ++ t :: after⟩ → pe ⟨state, before ++ t :: after⟩ x t →
      I ⟨(next x t state).2, before ++ (next x t state).1 ++ after⟩)
    {p : Pool σ τ} (hp : I p) {schedule : List (ℕ × ι)} (h : Permits next pe p schedule) :
      I (p.run next schedule) := by
  induction schedule generalizing p with
  | nil => exact hp
  | cons it schedule ih =>
    refine ih ?_ h.2
    rcases (step_cases p it : p.step next it = p ∨ _) with heq | ⟨before, t, after, hg, ht, heq⟩
    · rw [heq]
      exact hp
    · have hpe := h.1 t hg
      obtain ⟨state, tasks⟩ := p
      dsimp only at ht
      subst ht
      rw [heq]
      exact hs state before t after it.2 hp hpe

theorem forall_mem_step {P : τ → Prop} {pre new post : List τ} {t : τ} (h : ∀ u ∈ pre ++ t :: post, P u)
    (hn : ∀ u ∈ new, P u) : ∀ u ∈ pre ++ new ++ post, P u := by
  simp only [List.forall_mem_append, List.forall_mem_cons] at h ⊢
  exact ⟨⟨h.1, hn⟩, h.2.2⟩

def total (weight : τ → ℕ) (tasks : List τ) : ℕ := (tasks.map weight).sum

@[simp] theorem total_nil (wt : τ → ℕ) : total wt [] = 0 := rfl

@[simp] theorem total_cons (wt : τ → ℕ) (t : τ) (tasks : List τ) :
    total wt (t :: tasks) = wt t + total wt tasks := List.sum_cons

@[simp] theorem total_append (wt : τ → ℕ) (l l' : List τ) : total wt (l ++ l') = total wt l + total wt l' := by
  unfold total
  rw [List.map_append, List.sum_append]

theorem total_add (wt wt' : τ → ℕ) (tasks : List τ) :
    total (fun t => wt t + wt' t) tasks = total wt tasks + total wt' tasks := List.sum_map_add

theorem total_eq_zero {wt : τ → ℕ} {ts : List τ} (h : ∀ t ∈ ts, wt t = 0) : total wt ts = 0 := by
  unfold total
  rw [List.sum_eq_zero_iff]
  intro n hn
  obtain ⟨t, ht, rfl⟩ := List.mem_map.mp hn
  exact h t ht

theorem total_eq_length {wt : τ → ℕ} {ts : List τ} (h : ∀ t ∈ ts, wt t = 1) :
    total wt ts = ts.length := by
  unfold total
  rw [List.map_congr_left h, List.map_const', List.sum_replicate_nat, Nat.mul_one]

theorem length_filter_le_total {wt : τ → ℕ} {q : τ → Bool} (h : ∀ t, q t = true → 1 ≤ wt t) (tasks : List τ) :
    (tasks.filter q).length ≤ total wt tasks := by
  induction tasks with
  | nil => exact Nat.zero_le _
  | cons t tasks ih =>
    rw [total_cons, List.filter_cons]
    split_ifs with hq
    · have := h t hq
      rw [List.length_cons]
      omega
    · omega

end Pool

end McpworksApi
