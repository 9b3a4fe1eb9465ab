import McpworksApi.Agents.Chat

/-! Chats for holders of a public token: `public_chat` for the chat token and `scratchpad_chat` for the scratchpad
token. Such a chat should only execute functions marked `public_safe` and the platform tools of
`PUBLIC_SAFE_PLATFORM_TOOLS`. -/

namespace McpworksApi.Agents

open Models Py Run Services Session

inductive EndpointType
  | create
  | run
  | agent
  deriving DecidableEq, Repr

structure ChatRequest where
  token : String
  endpointType : Option EndpointType := some .agent
  namespaceName : Option String := none
  body : Option Json

structure ChatResponse where
  status : ℕ := 200
  field : String
  text : String
  deriving DecidableEq, Repr

inductive ChatRefusal
  | response (r : ChatResponse)
  | error (e : ApiError)
  deriving DecidableEq, Repr

def refuse {α : Type} (status : ℕ) (message : String) : Except ChatRefusal α :=
  .error (.response { status, field := "error", text := message })

def chatMessage (body : Option Json) : Except ChatRefusal String :=
  match body with
  | none => refuse 400 "Invalid JSON body"
  | some (.obj fields) =>
    match (Args.get? fields "message").getD (.str "") with
    | .str s =>
      if strip s = "" then refuse 400 "message is required"
      else if 10000 < (strip s).length then refuse 400 "message too long (max 10000 chars)"
      else .ok (strip s)
    | _ => .error (.error (.py .attributeError "object has no attribute 'strip'"))
  | some _ => .error (.error (.py .attributeError "object has no attribute 'get'"))

def agentByToken (db : Db) (token : Agent → Option String) (t : String) : Except ChatRefusal Agent :=
  match scalarOneOrNone (db.agents.select fun a => token a = some t) with
  | .error e => .error (.error e)
  | .ok none => refuse 404 "Not found"
  | .ok (some agent) => .ok agent

def checkChatReady (agent : Agent) (noAi : String) : Except ChatRefusal Unit :=
  if agent.status ≠ .running then refuse 503 "Agent is not running"
  else if !given agent.aiEngine || agent.aiApiKey.isNone then refuse 503 noAi
  else .ok ()

def admitPublicChat (db : Db) (req : ChatRequest) : Except ChatRefusal (Agent × String) := do
  if req.endpointType ≠ some .agent then refuse 404 "Not found"
  else if req.token.length < 20 then refuse 404 "Not found"
  else
    let message ← chatMessage req.body
    let agent ← agentByToken db (·.chatToken) req.token
    if given req.namespaceName ∧ agent.name ≠ req.namespaceName.getD "" then refuse 404 "Not found"
    else
      checkChatReady agent "Agent has no AI engine configured"
      pure (agent, message)

def admitScratchpadChat (db : Db) (req : ChatRequest) : Except ChatRefusal (Agent × String) := do
  if req.endpointType ≠ none ∧ req.endpointType ≠ some .agent then refuse 404 "Not found"
  else if req.token.length < 20 then refuse 404 "Not found"
  else
    let message ← chatMessage req.body
    let agent ← agentByToken db (·.scratchpadToken) req.token
    if !given agent.chatToken then refuse 403 "Chat not enabled for this agent"
    else
      checkChatReady agent "Agent has no AI configured"
      pure (agent, message)

inductive PublicEndpoint
  | publicChat
  | scratchpadChat
  deriving DecidableEq, Repr

namespace PublicEndpoint

def check : PublicEndpoint → Db → ChatRequest → Except ChatRefusal (Agent × String)
  | publicChat => admitPublicChat
  | scratchpadChat => admitScratchpadChat

def publicOnly : PublicEndpoint → Bool
  | publicChat => false
  | scratchpadChat => true

end PublicEndpoint

def chatAccount (db : Db) (accountId : ℕ) : ChatAccount :=
  (db.accounts.get? accountId).map fun a => (a, db.users.get? a.userId)

def handleChat (env : AgentEnv) (endpoint : PublicEndpoint) (req : ChatRequest) : Api ChatResponse := do
  match ← query fun w => endpoint.check w.db req with
  | .error (.response r) => pure r
  | .error (.error e) => raise e
  | .ok (agent, message) =>
    let account ← query fun w => chatAccount w.db agent.accountId
    handle
      (do
        let answer ← chatWithAgent env agent.accountId agent.name message account endpoint.publicOnly
        pure { field := "response", text := answer })
      fun _ => pure { status := 500, field := "error", text := "Chat failed" }

def publicChat (env : AgentEnv) (req : ChatRequest) : Api ChatResponse := handleChat env .publicChat req

def scratchpadChat (env : AgentEnv) (req : ChatRequest) : Api ChatResponse := handleChat env .scratchpadChat req

structure PublicSafe (w : World) : Prop where
  functions : ∀ p ∈ w.ran, p.1.publicSafe = true
  platform : ∀ t ∈ w.platform, t ∈ publicSafePlatformTools

def Confined (env : AgentEnv) (db : Db) (endpoint : PublicEndpoint) (req : ChatRequest) : Prop :=
  ∀ ai : ℕ → Except ApiError AiResponse, PublicSafe (handleChat { env with ai } endpoint req { db }).2

section Confinement

variable {env : AgentEnv} {db : Db} {aid : ℕ} {an msg : String} {acc : ChatAccount}
  {po : Bool} {w : World}

end Confinement

section Instances

end Instances

end McpworksApi.Agents
