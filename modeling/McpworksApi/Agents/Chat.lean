import McpworksApi.Agents.Procedures

/-! Chats with an agent (`AgentService.chat_with_agent`). The model is asked again and again, at most as often as the
agent's limits allow, and the tools it calls are dispatched by `_dispatch_chat_tool`, which is not told whether the
chat is public. -/

namespace McpworksApi.Agents

open Models Py Run Services Services.Functions Session

abbrev ChatAccount := Option (Account × Option User)

def chatTier (now : Time) : ChatAccount → Except ApiError String
  | none => .ok "pro-agent"
  | some (_, some u) => .ok (tierValue (u.effectiveTier now))
  | some (_, none) => .error (.py .attributeError "'NoneType' object has no attribute 'effective_tier'")

def stateNotFound (env : AgentEnv) (input : Args) : ToolReply :=
  let key := match (input.get? "key").getD (.str "") with
    | .str s => s
    | j => env.str j
  .error ("State key '" ++ key ++ "' not found")

def dispatchChatTool (env : AgentEnv) (account : ChatAccount) (ctx : ToolContext) (name : String) (input : Args) :
    Api ToolReply :=
  let agent := ctx.agent
  match name with
  | "get_state" => do
    recordPlatform name
    handle (getStateTool agent.accountId agent.name input) fun _ => pure (stateNotFound env input)
  | "set_state" => do
    recordPlatform name
    let tier ← fetch fun _ => chatTier env.now account
    setStateTool env agent.accountId agent.name tier input
  | "send_to_channel" => do
    recordPlatform name
    sendToChannelTool env agent input
  | "list_state_keys" => do
    recordPlatform name
    let tier ← fetch fun _ => chatTier env.now account
    listStateKeysTool agent.accountId agent.name tier
  | "search_state" => do
    recordPlatform name
    searchState env input ctx.agentState
  | "run_procedure" => runProcedureTool env ctx (chatTier env.now account) input
  | _ =>
    if isMcpTool name then dispatchMcpTool env ctx name input
    else dispatchNamespaceTool env ctx name input

def historyKey : String := "__conversation_history__"

def historyOf (state : Args) : Args :=
  match state.get? historyKey with
  | some (.obj (f :: fields)) => f :: fields
  | _ => [("turns", .arr []), ("summary", .null), ("compacted_at", .null)]

def turnsOf (history : Args) : List Json :=
  match history.get? "turns" with
  | some (.arr turns) => turns
  | _ => []

def turnMessage : Json → Except ApiError (Json × Json)
  | .obj turn => .ok ((Args.get? turn "role").getD (.str "user"), (Args.get? turn "content").getD (.str ""))
  | j => .error (.py .attributeError ("'" ++ j.typeName ++ "' object has no attribute 'get'"))

/-- `build_history_messages`, without the two messages for the summary. A turn that is no object raises. -/
def buildHistoryMessages (turns : List Json) : Except ApiError (List (Json × Json)) := do
  let messages ← turns.mapM turnMessage
  pure (messages.filter fun
    | (.str role, content) => (role = "user" || role = "assistant") && content.truthy
    | _ => false)

def storeHistory (env : AgentEnv) (agent : Agent) (history : Args) (tier : String) : Api Unit :=
  handle (setState env.dumps agent.accountId agent.name historyKey (.obj history) tier) fun _ => pure ()

def chatTurn (env : AgentEnv) (role content : String) : Json :=
  .obj [("role", .str role), ("content", .str (clip 50000 content)), ("ts", .str env.isoNow),
    ("trigger", .str "chat")]

def withTurn (history : Args) (turn : Json) : Args :=
  let turns := turnsOf history ++ [turn]
  history.set "turns" (.arr (turns.drop (turns.length - 50)))

def appendTurn (env : AgentEnv) (agent : Agent) (role content tier : String) : Api Unit := do
  let state ← query fun w => getAllState w.db agent.id
  storeHistory env agent (withTurn (historyOf state) (chatTurn env role content)) tier

def needsCompaction (state : Args) : Bool := 30 ≤ (turnsOf (historyOf state)).length

def compacted (turns : List Json) (summary now : String) : Args :=
  [("turns", .arr (turns.drop (turns.length - 10))), ("summary", .str (clip 2000 summary)),
    ("compacted_at", .str now)]

def compactHistory (env : AgentEnv) (agent : Agent) (state : Args) (tier : String) : Api Unit :=
  let history := historyOf state
  let turns := turnsOf history
  if turns.length < 30 then pure ()
  else
    match env.summarize ((history.get? "summary").getD (.str "")) (turns.take (turns.length - 10)) with
    | .error _ => pure ()
    | .ok summary => storeHistory env agent (compacted turns summary env.isoNow) tier

def saveChatTurns (env : AgentEnv) (agent : Agent) (account : ChatAccount) (message answer : String) (state : Args) :
    Api Unit := do
  let tier := match account with
    | some (_, some u) => tierValue (u.effectiveTier env.now)
    | _ => "pro-agent"
  appendTurn env agent "user" message tier
  appendTurn env agent "assistant" answer tier
  if needsCompaction state then
    let fresh ← query fun w => getAllState w.db agent.id
    compactHistory env agent fresh tier

def maxChatIterations (agent : Agent) : ℤ := agent.orchestrationLimits.maxIterations.getD 10

/-- `get_procedure_summaries` and `_build_covered_function_set`: the tools of the required steps of the namespace's
procedures. -/
def procedureCovered (db : Db) (namespaceId : ℕ) : List (String × String) :=
  ((db.procedures.select fun p => p.namespaceId = namespaceId ∧ p.isDeleted = false).flatMap fun p =>
    match db.services.get? p.serviceId, activeProcedureVersion db p with
    | some s, some v =>
      (v.steps.filter fun step => step.functionRef ≠ "" ∧ step.failurePolicy = .required).map fun step =>
        (dotsToUnderscores step.functionRef, s.name.val ++ " / " ++ p.name)
    | _, _ => []).reverse

def dispatchBlocks (env : AgentEnv) (account : ChatAccount) (ctx : ToolContext) : List Block → Bool → Api Bool
  | [], success => pure success
  | .text _ :: blocks, success => dispatchBlocks env account ctx blocks success
  | .unreadable e :: _, _ => raise e
  | .toolUse name input _ :: blocks, success => do
    let reply ← dispatchChatTool env account ctx name input
    dispatchBlocks env account ctx blocks (success || !looksFailed (reply.render env))

def answerText (content : List Block) : String :=
  let texts := content.filterMap fun
    | .text s => if s = "" then none else some s
    | _ => none
  if texts = [] then "(No response)" else "\n".intercalate texts

/-- The names of the tools that an answer calls are read before anything else. -/
def readBlocks : List Block → Except ApiError Unit
  | [] => .ok ()
  | .unreadable e :: _ => .error e
  | _ :: blocks => readBlocks blocks

/-- The loop of `chat_with_agent`, with at most `n` more questions, after `failures` answers in a row
whose tool calls all failed. -/
def chatLoop (env : AgentEnv) (account : ChatAccount) (ctx : ToolContext) (message : String) : ℕ → ℕ → Api String
  | 0, _ => pure "(Max chat iterations reached)"
  | n + 1, failures => do
    match ← ask env with
    | .error e => raise e
    | .ok response =>
      fetch fun _ => readBlocks response.content
      if response.stopReason ≠ "tool_use" then
        saveChatTurns env ctx.agent account message (answerText response.content) ctx.agentState
        pure (answerText response.content)
      else
        let success ← dispatchBlocks env account ctx response.content false
        if success then chatLoop env account ctx message n 0
        else if 3 ≤ failures + 1 then
          pure ("(Stopped: " ++ toString (failures + 1) ++ " consecutive iterations where all tool calls failed. " ++
            "The AI model may not be using the correct tool name format.)")
        else chatLoop env account ctx message n (failures + 1)

def chatWithAgent (env : AgentEnv) (accountId : ℕ) (agentName message : String) (account : ChatAccount)
    (publicOnly : Bool) : Api String := do
  let agent ← fetch fun w => getAgent w.db accountId agentName
  if !given agent.aiEngine || agent.aiApiKey.isNone then
    raise (notFound "Agent has no AI engine configured")
  else
    let tools ← query fun w => buildToolDefinitions w.db agent.namespaceId publicOnly true
    let state ← query fun w => getAllState w.db agent.id
    let covered ← query fun w => procedureCovered w.db agent.namespaceId
    let _ ← fetch fun _ => buildHistoryMessages (turnsOf (historyOf state))
    let ctx : ToolContext :=
      { agent, accountId := (account.map (·.1.id)).getD agent.id, tier := "", pool := (env.pool agent).isSome,
        agentState := state, triggerType := "chat", availableTools := tools ++ mcpToolNames env agent,
        procedureCovered := covered }
    chatLoop env account ctx message (maxChatIterations agent).toNat 0

end McpworksApi.Agents
