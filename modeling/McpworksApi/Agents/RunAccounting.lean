import McpworksApi.Agents.OrchestrationFrame

/-! Which runs are recorded. A run that ends with an answer, or with an exception, is recorded in the table of runs; one
that a limit or the canary token ends is not. -/

namespace McpworksApi.Agents

open Models Py Run Services Services.Functions Session

def outcomeOf (r : Orchestration) : RunStatus :=
  if r.success then if r.functionsCalled = [] then .noAction else .completed else .failed

/-- A run from `w` to `w'` has added exactly one row to the table of runs, with the outcome of its result. -/
def Accounted (r : Orchestration) (w w' : World) : Prop :=
  ∃ row, w'.db.agentRuns.rows = w.db.agentRuns.rows ++ [row] ∧ row.status = outcomeOf r

section Course

variable (env : AgentEnv) (limits : Limits) (canary : String) (reply : String → Args → Except ApiError ToolReply)

end Course

variable {env : AgentEnv} {limits : Limits} {canary : String} {ctx : ToolContext} {db : Db} {w w' : World}

/-- What a run reads and what it leaves to be recorded, which the calls of tools do not touch. -/
abbrev ledger (w : World) : ToolData × Table AgentRun × ℕ := (toolData w.db, w.db.agentRuns, w.asked)

def newsletterCall (agent : Agent) : OrchestrationCall where
  agent := agent
  triggerType := "manual"
  triggerContext := "Send the newsletter."
  tier := "pro-agent"
  accountId := 2
  canary := "canary"
  runId := "run"

end McpworksApi.Agents
