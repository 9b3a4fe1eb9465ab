import McpworksApi.Access.ToolPermissions
import McpworksApi.Agents.State
import McpworksApi.Run.ApiProxy

/-! The tools a model can call while it works for an agent: platform tools, tools of MCP servers and published APIs,
and the functions of the agent's namespace. A tool name is parsed on its own, whatever list of tools the model was
offered. -/

namespace McpworksApi.Agents

open Models Py Run Services Services.Functions Session

/-- A block of a model's answer. A `tool_use` block without a name is one that cannot be read: it raises where the name
is looked at. -/
inductive Block
  | text (content : String)
  | toolUse (name : String) (input : Args) (id : String := "")
  | unreadable (e : ApiError)

structure AiResponse where
  content : List Block
  stopReason : String
  inputTokens : ℤ := 0
  outputTokens : ℤ := 0

/-- What lies outside of an agent. `ai` is what `chat_with_tools` returns or raises, question by question, or what
reading the usage and the list of blocks of its answer raises; of the exceptions `AIClientError` is one. -/
structure AgentEnv where
  run : RunEnv
  ai : ℕ → Except ApiError AiResponse
  now : Time
  elapsed : ℕ → ℤ
  dumps : Json → String
  loads : String → Except ApiError (Option Json)
  sendToChannel : Agent → Json → Json → Except ApiError String
  callMcp : (server tool : String) → Args → Except String String
  gateway : ApiGateway
  pool : Agent → Option (List (String × String))
  str : Json → String
  isoNow : String
  summarize : (summary : Json) → (turns : List Json) → Except String String
  storableSteps : List StepResult → Bool

def ask (env : AgentEnv) : Api (Except ApiError AiResponse) := do
  let n ← query (·.asked)
  write fun w => { w with asked := n + 1 }
  pure (env.ai n)

inductive ToolReply
  | error (message : String)
  | state (key value : Json)
  | stored (key : Json)
  | keys (keys : List String) (totalSizeBytes : ℕ)
  | found (entries : List (String × String)) (query : String) (totalSearched : ℕ)
  | procedure (success : Bool) (steps : ℕ) (finalText : String)
  | text (content : String)

def ToolReply.toJson : ToolReply → Json
  | error m => .obj [("error", .str m)]
  | state key value => .obj [("key", key), ("value", value)]
  | stored key => .obj [("key", key), ("stored", .bool true)]
  | keys ks total => .obj [("keys", .arr (ks.map .str)), ("count", .int ks.length), ("total_size_bytes", .int total)]
  | found entries query total => .obj
      [("matches", .arr (entries.map fun e => .obj [("key", .str e.1), ("preview", .str e.2)])),
        ("query", .str query),
        ("total_searched", .int total)]
  | procedure success steps final => .obj
      [("success", .bool success), ("steps_completed", .int steps), ("final_text", .str final)]
  | text s => .str s

def ToolReply.render (env : AgentEnv) : ToolReply → String
  | text s => s
  | r => env.dumps r.toJson

def looksFailed (result : String) : Bool := contains (clip 50 result) "\"error\""

def platformToolNames : List String :=
  ["send_to_channel", "get_state", "set_state", "list_state_keys", "search_state", "run_procedure"]

def publicSafePlatformTools : List String := ["get_state", "send_to_channel", "list_state_keys", "search_state"]

def restrictedAgentTools : List String :=
  ["make_function", "update_function", "delete_function", "make_service", "delete_service", "lock_function",
    "unlock_function", "make_procedure", "update_procedure", "delete_procedure"]

def isMcpTool (name : String) : Bool := startsWith name "mcp__"

def mcpToolName (t : String × String) : String := "mcp__" ++ t.1 ++ "__" ++ t.2

def mcpToolNames (env : AgentEnv) (agent : Agent) : List String :=
  ((env.pool agent).getD []).map mcpToolName

def apiToolNames (db : Db) (agent : Agent) : List String :=
  let servers := db.apiServers.select fun s =>
    s.namespaceId = agent.namespaceId ∧ s.name ∈ agent.apiServerNames ∧ s.enabled = true
  let endpoints := servers.flatMap fun s =>
    (db.apiEndpoints.select fun e => e.apiServerId = s.id ∧ e.enabled = true).map fun e => (s.name, e.operationId)
  (endpoints.mergeSort fun a b => a.1 < b.1 ∨ (a.1 = b.1 ∧ a.2 ≤ b.2)).map fun t => "api__" ++ t.1 ++ "__" ++ t.2

def parseToolName (name : String) : Option (String × String) :=
  if name ∈ platformToolNames then none
  else if isMcpTool name then none
  else if contains name "__" then splitOnce "__" name
  else if contains name "." then splitOnce "." name
  else none

def buildToolDefinitions (db : Db) (namespaceId : ℕ) (publicOnly agentMode : Bool) : List String :=
  ((listAllForNamespace db namespaceId).filterMap fun p =>
    if publicOnly && !p.1.publicSafe then none
    else
      let name := ((serviceOf db p.1).map (·.name.val)).getD "unknown" ++ "__" ++ p.1.name.val
      if agentMode ∧ name ∈ restrictedAgentTools then none else some name) ++
    (if publicOnly then platformToolNames.filter (· ∈ publicSafePlatformTools)
      else platformToolNames.filter fun t => !(agentMode && decide (t ∈ restrictedAgentTools)))

def formatAvailableTools (tools : List String) : String :=
  if tools.length ≤ 15 then ", ".intercalate tools
  else ", ".intercalate (tools.take 15) ++ " (and " ++ toString (tools.length - 15) ++ " more)"

def incrementOrchestrationCallCount (namespaceId : ℕ) (service function : String) (db : Db) : Db :=
  let inService (s : NamespaceService) : Bool := s.namespaceId = namespaceId ∧ s.name.val = service
  { db with
    namespaces := db.namespaces.update namespaceId fun n => { n with callCount := n.callCount + 1 }
    services := db.services.updateWhere inService fun s => { s with callCount := s.callCount + 1 }
    functions := db.functions.updateWhere (fun f => (serviceOf db f).any inService ∧ f.name.val = function)
      fun f => { f with callCount := f.callCount + 1 } }

def executeNamespaceFunction (env : AgentEnv) (agent : Agent) (service function : String) (input : Args)
    (state : List (String × Json)) (agentRunId : Option String := none) : Api ToolReply := do
  match ← query fun w => getForExecution w.db agent.namespaceId service function with
  | .error e => pure (.error (clip 500 e.text))
  | .ok (f, v) =>
    if env.run.sandbox.registered v.backend then
      let context := stateContext state ++
        if given agentRunId then [("agent_run_id", .str (agentRunId.getD ""))] else []
      let r ← executeFunction env.run.sandbox .python f v (.obj input) [] (some context)
      if r.success then
        write fun w => { w with db := incrementOrchestrationCallCount agent.namespaceId service function w.db }
        match r.output with
        | .str s => pure (.text (clip 4000 s))
        | output => pure (.text (clip 4000 (env.dumps output)))
      else pure (.error (if given r.error then r.error.getD "" else "Function execution failed"))
    else pure (.error ("Backend not available: " ++ backendName v.backend))

def valueText (dumps : Json → String) : Json → String
  | .str s => s
  | v => dumps v

def mentions (dumps : Json → String) (query : String) (entry : String × Json) : Bool :=
  contains (lower entry.1) query || contains (lower (valueText dumps entry.2)) query

def preview (dumps : Json → String) (entry : String × Json) : String × String :=
  let text := valueText dumps entry.2
  (entry.1, clip 100 text ++ if 100 < text.length then "..." else "")

def matchingEntries (dumps : Json → String) (state : List (String × Json)) (query : String) :
    List (String × String) :=
  (state.filter (mentions dumps query)).map (preview dumps)

def searchState (env : AgentEnv) (input : Args) (state : List (String × Json)) : Api ToolReply :=
  match (input.get? "query").getD (.str "") with
  | .str q =>
    if lower q = "" then pure (.error "query is required")
    else pure (.found ((matchingEntries env.dumps state (lower q)).take 20) (lower q) state.length)
  | _ => raise (.py .attributeError "object has no attribute 'lower'")

def keyArgument (input : Args) : Except ApiError String :=
  match (input.get? "key").getD (.str "") with
  | .str k => .ok k
  | _ => .error (.py .typeError "expected str")

def getStateTool (accountId : ℕ) (agentName : String) (input : Args) : Api ToolReply := do
  let key ← fetch fun _ => keyArgument input
  let entry ← fetch fun w => getState w.db accountId agentName key
  pure (.state ((input.get? "key").getD .null) entry.value)

def setStateTool (env : AgentEnv) (accountId : ℕ) (agentName tier : String) (input : Args) : Api ToolReply := do
  let key ← fetch fun _ => keyArgument input
  setState env.dumps accountId agentName key ((input.get? "value").getD .null) tier
  pure (.stored ((input.get? "key").getD .null))

def listStateKeysTool (accountId : ℕ) (agentName tier : String) : Api ToolReply := do
  let info ← fetch fun w => listStateKeys w.db accountId agentName tier
  pure (.keys info.keys info.totalSizeBytes)

def sendToChannelTool (env : AgentEnv) (agent : Agent) (input : Args) : Api ToolReply := do
  let answer ← fetch fun _ =>
    env.sendToChannel agent ((input.get? "channel_type").getD (.str "")) ((input.get? "message").getD (.str ""))
  pure (.text answer)

def recordPlatform (name : String) : Api Unit :=
  write fun w => { w with platform := w.platform ++ [name] }

def plainAgentEnv : AgentEnv where
  run := plainEnv
  ai _ := .error (.py .aiClientError "AI provider unavailable")
  now := 0
  elapsed _ := 0
  dumps _ := ""
  loads _ := .ok none
  sendToChannel _ _ _ := .ok ""
  callMcp _ _ _ := .ok ""
  gateway := ⟨fun _ _ => .ok true, fun _ => some [], fun _ _ _ => .ok (.answered .null), fun _ _ text => text⟩
  pool _ := none
  str _ := ""
  isoNow := ""
  summarize _ _ := .error "AI provider unavailable"
  storableSteps _ := true

end McpworksApi.Agents
