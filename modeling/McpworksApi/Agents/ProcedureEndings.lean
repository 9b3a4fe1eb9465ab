import McpworksApi.Agents.ProcedureCourse

/-! How `run_procedure_orchestration` leaves the row of an execution. Only `AIClientError` counts as a failed attempt:
any other exception, a `tool_use` block without a name, a tool that raises, a mapping with an index that `int` refuses
and results that the database refuses leave all three loops, and nothing outside them writes the row. -/

namespace McpworksApi.Agents

open Models Py Run Services Services.Functions Session

section Rows

variable {env : AgentEnv} {ctx : ToolContext} {db : Db} {w : World} {eid : ℕ}

/-- The row of the execution is still open. -/
def RowOpen (eid : ℕ) (w : World) : Prop := ∃ e, executionRow eid w = some e ∧ e.completedAt = none

theorem RowOpen.isSome (h : RowOpen eid w) : (executionRow eid w).isSome = true := by
  obtain ⟨e, he, -⟩ := h
  exact Option.isSome_of_eq_some he

end Rows

end McpworksApi.Agents
