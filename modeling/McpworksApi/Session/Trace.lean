import McpworksApi.Session.Basic

/-! Traces: the events of a run, in the order in which they happened. A trace is guarded when each of its events was
permitted by the events before it; a run that only adds permitted events keeps its trace guarded. -/

namespace McpworksApi.Trace

variable {ε : Type} {permitted : List ε → ε → Prop} {past : List ε} {e : ε}

def Guarded (permitted : List ε → ε → Prop) (trace : List ε) : Prop :=
  ∀ past e later, trace = past ++ e :: later → permitted past e

theorem guarded_nil : Guarded permitted [] := by
  intro past e ls h
  simp at h

theorem Guarded.of_append {ls : List ε} (h : Guarded permitted (past ++ ls)) : Guarded permitted past := by
  intro past' e' ls' heq
  exact h past' e' (ls' ++ ls) (by rw [heq, List.append_assoc, List.cons_append])

theorem Guarded.concat (h : Guarded permitted past) (he : permitted past e) : Guarded permitted (past ++ [e]) := by
  intro past' e' ls heq
  induction ls using List.reverseRecOn with
  | nil =>
    obtain ⟨rfl, hl⟩ := List.append_inj' heq rfl
    obtain rfl := List.singleton_inj.mp hl
    exact he
  | append_singleton ls last _ =>
    rw [← List.cons_append, ← List.append_assoc] at heq
    obtain ⟨heq, -⟩ := List.append_inj' heq rfl
    exact h past' e' ls heq

def Before (a b : ε) (trace : List ε) : Prop := ∃ early later, trace = early ++ later ∧ a ∈ early ∧ b ∈ later

theorem Before.left_mem {a b : ε} {trace : List ε} (h : Before a b trace) : a ∈ trace := by
  obtain ⟨early, ls, rfl, ha, -⟩ := h
  exact List.mem_append_left ls ha

theorem before_concat {a b : ε} : Before a b (past ++ [e]) ↔ Before a b past ∨ (a ∈ past ∧ b = e) := by
  constructor
  · rintro ⟨early, ls, heq, ha, hb⟩
    induction ls using List.reverseRecOn with
    | nil => cases hb
    | append_singleton ls last _ =>
      rw [← List.append_assoc] at heq
      obtain ⟨rfl, hl⟩ := List.append_inj' heq rfl
      obtain rfl := List.singleton_inj.mp hl
      rcases List.mem_append.mp hb with hb | hb
      · exact .inl ⟨early, ls, rfl, ha, hb⟩
      · exact .inr ⟨List.mem_append_left ls ha, List.mem_singleton.mp hb⟩
  · rintro (⟨early, ls, rfl, ha, hb⟩ | ⟨ha, rfl⟩)
    · exact ⟨early, ls ++ [e], List.append_assoc .., ha, List.mem_append_left _ hb⟩
    · exact ⟨past, [b], rfl, ha, List.mem_singleton_self b⟩

def Since (i j : ε → Prop) (P : List ε → Prop) (trace : List ε) : Prop :=
  ∃ early e later, trace = early ++ e :: later ∧ i e ∧ (∀ x ∈ later, ¬j x) ∧ P later

theorem not_since_nil {i j : ε → Prop} {P : List ε → Prop} : ¬Since i j P [] := by
  rintro ⟨early, e, ls, heq, -⟩
  simp at heq

theorem since_concat {i j : ε → Prop} {P : List ε → Prop} :
    Since i j P (past ++ [e]) ↔ (i e ∧ P []) ∨ (¬j e ∧ Since i j (fun ls => P (ls ++ [e])) past) := by
  constructor
  · rintro ⟨early, x, ls, heq, hi, hj, hP⟩
    induction ls using List.reverseRecOn with
    | nil =>
      obtain ⟨rfl, hl⟩ := List.append_inj' heq rfl
      obtain rfl := List.singleton_inj.mp hl
      exact .inl ⟨hi, hP⟩
    | append_singleton ls last _ =>
      rw [← List.cons_append, ← List.append_assoc] at heq
      obtain ⟨rfl, hl⟩ := List.append_inj' heq rfl
      obtain rfl := List.singleton_inj.mp hl
      exact .inr ⟨hj _ (List.mem_append_right _ (List.mem_singleton_self _)), early, x, ls, rfl, hi,
        fun y hy => hj y (List.mem_append_left _ hy), hP⟩
  · rintro (⟨hi, hP⟩ | ⟨hj, early, x, ls, rfl, hi, hla, hP⟩)
    · exact ⟨past, e, [], rfl, hi, by simp, hP⟩
    · refine ⟨early, x, ls ++ [e], by simp, hi, fun y hy => ?_, hP⟩
      rcases List.mem_append.mp hy with hy | hy
      · exact hla y hy
      · rw [List.mem_singleton.mp hy]
        exact hj

end McpworksApi.Trace

namespace McpworksApi.Session

variable {σ ε α C : Type}

/-- A run of calls, with what each of them answered. -/
inductive Run (perform : C → Session σ ε α) (s₀ : σ) : List (C × Except ε α) → σ → Prop
  | nil : Run perform s₀ [] s₀
  | step {history : List (C × Except ε α)} {s : σ} (call : C) (h : Run perform s₀ history s) :
    Run perform s₀ (history ++ [(call, (perform call s).1)]) (perform call s).2

theorem Run.invariant {per : C → Session σ ε α} {s₀ : σ} {I : List (C × Except ε α) → σ → Prop} (h₀ : I [] s₀)
    (hs : ∀ hist s call, I hist s → I (hist ++ [(call, (per call s).1)]) (per call s).2)
    {hist : List (C × Except ε α)} {s : σ} (h : Run per s₀ hist s) : I hist s := by
  induction h with
  | nil => exact h₀
  | step call _ ih => exact hs _ _ call ih

/-- A run in which every call is permitted where it is made. -/
inductive GuardedRun (perform : C → Session σ ε α) (permitted : σ → C → Prop) (s₀ : σ) :
    List (C × Except ε α) → σ → Prop
  | nil : GuardedRun perform permitted s₀ [] s₀
  | step {history : List (C × Except ε α)} {s : σ} (call : C) (h : GuardedRun perform permitted s₀ history s)
    (hcall : permitted s call) :
    GuardedRun perform permitted s₀ (history ++ [(call, (perform call s).1)]) (perform call s).2

theorem GuardedRun.invariant {per : C → Session σ ε α} {permitted : σ → C → Prop} {s₀ : σ} {I : σ → Prop} (h₀ : I s₀)
    (hs : ∀ s call, I s → permitted s call → I (per call s).2) {hist : List (C × Except ε α)} {s : σ}
    (h : GuardedRun per permitted s₀ hist s) : I s := by
  induction h with
  | nil => exact h₀
  | step call _ hc ih => exact hs _ call ih hc

end McpworksApi.Session
