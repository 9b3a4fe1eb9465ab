import McpworksApi.Agents.Chat

/-! The orchestration loop of an agent (`run_orchestration`). The model is asked, the tools it calls are dispatched one
after the other, their results are appended to the conversation, and the model is asked again, until it answers without
a tool call, a limit is reached, or something fails. -/

namespace McpworksApi.Agents

open Models Py Run Services Services.Functions Session

structure Limits where
  maxIterations : ℤ
  maxAiTokens : ℤ
  maxExecutionSeconds : ℤ
  maxFunctionsCalled : ℤ

def tierLimits (tier : String) : Limits :=
  if tier = "enterprise-agent" then ⟨25, 1000000, 300, 25⟩
  else if tier = "dedicated-agent" then ⟨50, 2000000, 300, -1⟩
  else ⟨10, 200000, 120, 10⟩

def resolveOrchestrationLimits (tier : String) (agent : Agent) : Limits where
  maxIterations := agent.orchestrationLimits.maxIterations.getD (tierLimits tier).maxIterations
  maxAiTokens := agent.orchestrationLimits.maxAiTokens.getD (tierLimits tier).maxAiTokens
  maxExecutionSeconds := agent.orchestrationLimits.maxExecutionSeconds.getD (tierLimits tier).maxExecutionSeconds
  maxFunctionsCalled := agent.orchestrationLimits.maxFunctionsCalled.getD (tierLimits tier).maxFunctionsCalled

inductive Message
  | user (content : String)
  | assistant (content : List Block)
  | toolResult (toolUseId toolName content : String)

/-- What happens in a run: the model is asked with a list of tools and the conversation so far, and
replies at some cost; a tool is dispatched, and its answer is taken as a success or not. -/
inductive Event
  | asked (tools : List String) (messages : List Message)
  | replied (tokens : ℤ)
  | dispatched (tool : String)
  | answered (tool : String) (success : Bool)

structure OrchestrationCall where
  agent : Agent
  triggerType : String
  triggerContext : String
  tier : String
  accountId : ℕ
  canary : String
  runId : String

/-- How a run ends: with the model's last answer, at a limit, because the canary token turned up in a
tool call, or with an exception. -/
inductive Ending
  | completed (content : List Block)
  | limit (error : String)
  | canaryLeaked (tool : String)
  | raised (e : ApiError)

structure Turn where
  functionsCalled : List String
  results : List Message := []
  toolCalls : List ToolCall := []
  success : Bool := false
  trace : List Event

namespace Turn

def addResult (t : Turn) (id tool content : String) : Turn :=
  { t with results := t.results ++ [.toolResult id tool content] }

def dispatch (t : Turn) (tool : String) : Turn := { t with trace := t.trace ++ [.dispatched tool] }

def answer (t : Turn) (id tool input text : String) : Turn :=
  let failed := looksFailed text
  { functionsCalled := if failed then t.functionsCalled else t.functionsCalled ++ [tool]
    results := t.results ++ [.toolResult id tool text]
    toolCalls := t.toolCalls ++ [⟨tool, input, clip 500 text⟩]
    success := t.success || !failed
    trace := t.trace ++ [.answered tool (!failed)] }

end Turn

def limitReached (limits : Limits) (functionsCalled : List String) : Bool :=
  0 ≤ limits.maxFunctionsCalled ∧ limits.maxFunctionsCalled ≤ functionsCalled.length

def functionLimitReply (limits : Limits) : ToolReply :=
  .error ("Function call limit reached (" ++ toString limits.maxFunctionsCalled ++
    "). You have already called enough functions. Summarize your results and finish.")

def restrictedReply (tool : String) : ToolReply := .error ("Tool '" ++ tool ++ "' is not available to agents.")

/-- The input of a tool call as it is kept, as JSON text. -/
def recordedInput (env : AgentEnv) (input : Args) : String :=
  let text := env.dumps (.obj input)
  if 2048 < text.length then env.dumps (.obj [("_truncated", .bool true), ("preview", .str (clip 2048 text))])
  else text

abbrev Dispatcher := ToolContext → String → Args → Api ToolReply

def runToolUses (env : AgentEnv) (dispatch : Dispatcher) (limits : Limits) (canary : String) (ctx : ToolContext) :
    List Block → Turn → Api (Turn × Option Ending)
  | [], t => pure (t, none)
  | .text _ :: blocks, t => runToolUses env dispatch limits canary ctx blocks t
  | .unreadable e :: _, t => pure (t, some (.raised e))
  | .toolUse tool input id :: blocks, t =>
    if limitReached limits t.functionsCalled then
      runToolUses env dispatch limits canary ctx blocks (t.addResult id tool ((functionLimitReply limits).render env))
    else if contains (env.str (.obj input)) canary then pure (t, some (.canaryLeaked tool))
    else if tool ∈ restrictedAgentTools then
      runToolUses env dispatch limits canary ctx blocks (t.addResult id tool ((restrictedReply tool).render env))
    else do
      match ← attempt (dispatch ctx tool input) with
      | .error e => pure (t.dispatch tool, some (.raised e))
      | .ok reply =>
        runToolUses env dispatch limits canary ctx blocks
          ((t.dispatch tool).answer id tool (recordedInput env input) (reply.render env))

structure Loop where
  messages : List Message
  functionsCalled : List String := []
  toolCalls : List ToolCall := []
  totalTokens : ℤ := 0
  iterations : ℕ := 0
  consecutiveFailures : ℕ := 0
  trace : List Event := []

namespace Loop

def ask (l : Loop) (tools : List String) : Loop := { l with trace := l.trace ++ [.asked tools l.messages] }

def reply (l : Loop) (r : AiResponse) : Loop :=
  { l with
    totalTokens := l.totalTokens + (r.inputTokens + r.outputTokens)
    iterations := l.iterations + 1
    trace := l.trace ++ [.replied (r.inputTokens + r.outputTokens)] }

def turn (l : Loop) : Turn := { functionsCalled := l.functionsCalled, toolCalls := l.toolCalls, trace := l.trace }

def halt (l : Loop) (t : Turn) : Loop :=
  { l with functionsCalled := t.functionsCalled, toolCalls := t.toolCalls, trace := t.trace }

def next (l : Loop) (content : List Block) (t : Turn) : Loop :=
  { l with
    messages := l.messages ++ .assistant content :: t.results
    functionsCalled := t.functionsCalled
    toolCalls := t.toolCalls
    consecutiveFailures := if t.success then 0 else l.consecutiveFailures + 1
    trace := t.trace }

end Loop

def stoppedAfter (failures : ℕ) : String :=
  "Stopped after " ++ toString failures ++ " consecutive iterations where all tool calls failed. " ++
    "The AI model may not be using the correct tool name format."

def handleResponse (env : AgentEnv) (dispatch : Dispatcher) (limits : Limits) (canary : String) (ctx : ToolContext)
    (again : Loop → Api (Loop × Ending)) (l : Loop) : Except ApiError AiResponse → Api (Loop × Ending)
  | .error e => pure (l, .raised e)
  | .ok response =>
    let l := l.reply response
    if response.stopReason ≠ "tool_use" then pure (l, .completed response.content)
    else do
      match ← runToolUses env dispatch limits canary ctx response.content l.turn with
      | (t, some ending) => pure (l.halt t, ending)
      | (t, none) =>
        let l := l.next response.content t
        if 3 ≤ l.consecutiveFailures then pure (l, .limit (stoppedAfter l.consecutiveFailures))
        else again l

def orchestrationLoop (env : AgentEnv) (dispatch : Dispatcher) (limits : Limits) (canary : String)
    (ctx : ToolContext) :
    ℕ → Loop → Api (Loop × Ending)
  | 0, l => pure (l, .limit "Max iterations exceeded")
  | n + 1, l => do
    let asked ← query (·.asked)
    if limits.maxAiTokens ≤ l.totalTokens then pure (l, .limit "Token limit exceeded")
    else if limits.maxExecutionSeconds ≤ env.elapsed asked then pure (l, .limit "Execution time limit exceeded")
    else
      let response ← ask env
      handleResponse env dispatch limits canary ctx (orchestrationLoop env dispatch limits canary ctx n)
        (l.ask ctx.availableTools) response

def extractText (content : List Block) : Option String :=
  let texts := content.filterMap fun
    | .text s => if s = "" then none else some s
    | _ => none
  if texts = [] then none else some ("\n".intercalate texts)

def finishOrchestration (env : AgentEnv) (call : OrchestrationCall) (l : Loop) : Ending → Api Orchestration
  | .completed content => do
    let runId ← query (·.db.agentRuns.freshId)
    let r : Orchestration :=
      { success := true, finalText := extractText content, functionsCalled := l.functionsCalled,
        iterations := l.iterations,
        runId := some runId, toolCalls := l.toolCalls }
    postOrchestration env call.agent call.triggerType r (if l.functionsCalled = [] then .noAction else .completed)
    pure r
  | .limit error =>
    pure { success := false, functionsCalled := l.functionsCalled, iterations := l.iterations, error := some error }
  | .canaryLeaked tool =>
    pure
      { success := false
        error := some ("SECURITY: Canary token leaked in tool call to '" ++ tool ++
          "'. Possible prompt injection — agent system prompt was extracted. Orchestration halted.") }
  | .raised e => do
    let runId ← query (·.db.agentRuns.freshId)
    let r : Orchestration :=
      { success := false, functionsCalled := l.functionsCalled, iterations := l.iterations,
        error := some (clip 500 e.text),
        runId := some runId, toolCalls := l.toolCalls }
    recordRun env call.agent call.triggerType r .failed
    pure r

def offeredTools (env : AgentEnv) (db : Db) (agent : Agent) : List String :=
  buildToolDefinitions db agent.namespaceId false true ++ mcpToolNames env agent ++ apiToolNames db agent

def orchestrate (env : AgentEnv) (dispatch : Dispatcher) (call : OrchestrationCall) :
    Api (Orchestration × List Event) := do
  let agent := call.agent
  if !given agent.aiEngine || agent.aiApiKey.isNone then
    pure ({ success := false, error := some "Agent has no AI engine configured" }, [])
  else
    let tools ← query fun w => offeredTools env w.db agent
    let state ← query fun w => getAllState w.db agent.id
    let covered ← query fun w => procedureCovered w.db agent.namespaceId
    let ctx : ToolContext :=
      { agent, accountId := call.accountId, tier := call.tier, pool := (env.pool agent).isSome, agentState := state,
        triggerType := call.triggerType, availableTools := tools, procedureCovered := covered,
        agentRunId := some call.runId }
    let limits := resolveOrchestrationLimits call.tier agent
    let (l, ending) ← orchestrationLoop env dispatch limits call.canary ctx limits.maxIterations.toNat
      { messages := [.user call.triggerContext] }
    let r ← finishOrchestration env call l ending
    pure (r, l.trace)

def runOrchestration (env : AgentEnv) (call : OrchestrationCall) : Api Orchestration := do
  let out ← orchestrate env (dispatchTool env) call
  pure out.1

end McpworksApi.Agents
