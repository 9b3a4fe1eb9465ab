import McpworksApi.Agents.ProcedureCourse

/-! What a procedure spends. The limits of its agent are loaded, but only the time is ever looked at. The questions to
the model are bounded by the retries of the steps alone, and of the tool calls in an answer all are made until one of
them succeeds. -/

namespace McpworksApi.Agents

open Models Py Run Services Services.Functions Session

section Instances

end Instances

end McpworksApi.Agents
