import McpworksApi.Access.AgentAccess
import McpworksApi.Py.Hash
import McpworksApi.Run.CodeMode

/-! `RunMCPHandler.dispatch_tool`. A tool `service.function` is checked against the access rules of the namespace's
agent under the names as the client wrote them, and then looked up in lower case; the code-mode tools hand all
functions of the namespace to the client's program without any check. -/

namespace McpworksApi.Run

open Models Py Services Services.Functions Session

structure RunHandler where
  namespaceName : String
  account : Account
  apiKey : ApiKey
  mode : String := "code"
  rawKey : Option String := none

/-- What lies outside: the sandbox, the hash and canonical text behind cache keys, the upstream of published API
endpoints, and which texts the columns of the database take. A text column refuses NUL and lone surrogates; a
JSON column is given its value as a text. -/
structure RunEnv where
  sandbox : Sandbox
  sha : Sha256
  canonical : Args → String
  callApi : Namespace → String × String → Args → Except ApiError String
  storable : String → Bool
  storableJson : String → Bool

structure EnvStatus where
  configured : List String
  missingRequired : List String
  missingOptional : List String
  functions : List (String × List String × List String × String)

inductive ToolResult
  | missingEnv (missing : List String)
  | executed (result : ExecutionResult)
  | envStatus (status : EnvStatus)
  | text (content : String)

def checkScope (h : RunHandler) (tool : String) : Except ApiError Unit :=
  let required := if tool = "_env_status" then "read" else "execute"
  if h.apiKey.hasScope required then .ok ()
  else .error (valueError ("API key missing required scope '" ++ required ++ "' for tool '" ++ tool ++ "'"))

def getNamespace (db : Db) (h : RunHandler) : Except ApiError Namespace :=
  Namespaces.getByName db h.namespaceName (some h.account.id) (some h.account.userId) (some "execute")

def agentOf (db : Db) (namespaceId : ℕ) : Option Agent := (db.agents.select (·.namespaceId = namespaceId)).head?

def checkAgentFunctionAccess (db : Db) (namespaceId : ℕ) (service function : String) : Except ApiError Unit :=
  match agentOf db namespaceId with
  | none => .ok ()
  | some agent =>
    match Access.checkFunctionAccess agent.accessRules service function (some agent.trustScore) with
    | (true, _) => .ok ()
    | (false, ruleId) => .error (Access.agentAccessDenied agent.name (service ++ "." ++ function) ruleId)

def loadAgentContext (db : Db) (namespaceId : ℕ) : Option (List (String × Json)) :=
  (agentOf db namespaceId).map fun a =>
    stateContext ((db.agentStates.select (·.agentId = a.id)).map fun s => (s.key, s.value))

def filterEnvForFunction (env : List (String × String)) (requiredEnv optionalEnv : Option (List String)) :
    List (String × String) :=
  env.filter fun e => e.1 ∈ requiredEnv.getD [] ∨ e.1 ∈ optionalEnv.getD []

def checkRequiredEnv (env : List (String × String)) (requiredEnv : Option (List String)) : List String :=
  (requiredEnv.getD []).filter (· ∉ env.map Prod.fst)

def getCachePolicy (f : Function) : Bool × ℤ :=
  match f.cachePolicy with
  | none => (false, 0)
  | some p => if p.enabled ∧ 0 < p.ttlSeconds then (true, p.ttlSeconds) else (false, 0)

def makeCacheKey (env : RunEnv) (functionId version : ℕ) (input : Args) : String :=
  "fncache:" ++ toString functionId ++ ":v" ++ toString version ++ ":" ++
    String.ofList ((env.sha.hexdigest (encode (env.canonical input))).toList.take 16)

def getCachedResult (w : World) (key : String) : Option Json :=
  match w.cache key with
  | some .null => none
  | r => r

def backendName : Backend → String
  | .codeSandbox => "code_sandbox"
  | .nanobot => "nanobot"
  | .githubRepo => "github_repo"

def parseApiToolName (name : String) : Option (String × String) :=
  if startsWith name "api__" then
    match splitOnce "__" (String.ofList (name.toList.drop 5)) with
    | some (server, operation) => if server = "" ∨ operation = "" then none else some (server, operation)
    | none => none
  else none

def mcpServersOf (db : Db) (namespaceId : ℕ) : List NamespaceMcpServer :=
  db.mcpServers.select fun s => s.namespaceId = namespaceId ∧ s.enabled = true ∧ 0 < s.toolCount

def apiServersOf (db : Db) (namespaceId : ℕ) : List NamespaceApiServer :=
  db.apiServers.select fun s => s.namespaceId = namespaceId ∧ s.enabled = true ∧
    db.apiEndpoints.select (fun e => e.apiServerId = s.id ∧ e.enabled = true) ≠ []

def bridgeKeyName : String := "__MCPWORKS_BRIDGE_KEY__"

def needsBridge (db : Db) (namespaceId : ℕ) : Language → Bool
  | .python =>
    (listAllForNamespace db namespaceId).any (·.2.language = .typescript) || mcpServersOf db namespaceId ≠ [] ||
      apiServersOf db namespaceId ≠ []
  | .typescript => (listAllForNamespace db namespaceId).any (·.2.language = .python)

def clientEnv (db : Db) (h : RunHandler) (namespaceId : ℕ) (language : Language)
    (sandboxEnv : List (String × String)) :
    List (String × String) :=
  if needsBridge db namespaceId language && given h.rawKey then setItem sandboxEnv bridgeKeyName (h.rawKey.getD "")
  else sandboxEnv

/-- The code files of the package beside a client program. The Python generators read a signature from each
stored input schema, of the functions and of the remote tools, and raise on a malformed one; the TypeScript
generator reads none. -/
def packageFiles (db : Db) (namespaceName : String) (namespaceId : ℕ) : Language → Except ApiError (List CodeFile)
  | .python => do
    let package ← functionsPackage db namespaceName (listAllForNamespace db namespaceId)
    let _ ← mcpServerModules (mcpServersOf db namespaceId)
    pure package.code
  | .typescript => .ok (generateTsFunctionsPackage db (listAllForNamespace db namespaceId))

def executeCodeMode (env : RunEnv) (h : RunHandler) (language : Language) (code : Json)
    (sandboxEnv : List (String × String)) : Api ToolResult := do
  if code.truthy then
    let ns ← fetch fun w => getNamespace w.db h
    let files ← fetch fun w => packageFiles w.db h.namespaceName ns.id language
    let context ← query fun w => loadAgentContext w.db ns.id
    let sandboxEnv ← query fun w => clientEnv w.db h ns.id language sandboxEnv
    if env.sandbox.registered .codeSandbox then
      match code with
      | .str text =>
        let program := if language = .python then text ++ callLogCaptureSnippet else text
        let r ← executePackage env.sandbox language program files sandboxEnv context
        pure (.executed r)
      | _ => raise (.py .typeError "code is not a string")
    else raise (valueError "Code sandbox backend not available")
  else raise (valueError "No code provided")

def handleEnvStatus (h : RunHandler) (sandboxEnv : List (String × String)) : Api ToolResult := do
  let ns ← fetch fun w => getNamespace w.db h
  let functions ← query fun w => (listAllForNamespace w.db ns.id).map fun p =>
    (((serviceOf w.db p.1).map (·.name.val)).getD "" ++ "." ++ p.1.name.val, p.2)
  let provided := sandboxEnv.map Prod.fst
  let required := functions.flatMap fun p => p.2.requiredEnv.getD []
  let optional := functions.flatMap fun p => p.2.optionalEnv.getD []
  let sorted := fun l : List String => l.dedup.mergeSort
  pure (.envStatus
    { configured := sorted (provided.filter (· ∈ required ++ optional))
      missingRequired := sorted (required.filter (· ∉ provided))
      missingOptional := sorted (optional.filter (· ∉ provided))
      functions := functions.map fun p => (p.1, p.2.requiredEnv.getD [], p.2.optionalEnv.getD [],
        if (p.2.requiredEnv.getD []).all (· ∈ provided) then "ready" else "missing_env") })

def dispatchPublishedApi (env : RunEnv) (h : RunHandler) (name : String) (args : Args) : Api ToolResult :=
  match parseApiToolName name with
  | none => raise (valueError ("Invalid API tool name: " ++ name))
  | some target => do
    let ns ← fetch fun w => getNamespace w.db h
    let answer ← fetch fun _ => env.callApi ns target args
    pure (.text answer)

def cacheBypass (args : Args) : Bool :=
  match args.get? "cache" with
  | some (.bool false) => true
  | _ => false

def cachedOutput (env : RunEnv) (f : Function) (v : FunctionVersion) (args : Args) (w : World) : Option Json :=
  if (getCachePolicy f).1 && !cacheBypass args then
    getCachedResult w (makeCacheKey env f.id v.version (args.erase "cache"))
  else none

def executeAndCache (env : RunEnv) (f : Function) (v : FunctionVersion) (input : Args)
    (filtered : List (String × String)) (context : Option (List (String × Json))) : Api ToolResult := do
  let r ← executeFunction env.sandbox v.language f v (.obj input) filtered context
  if (getCachePolicy f).1 && r.success then
    write fun w =>
      { w with cache := Function.update w.cache (makeCacheKey env f.id v.version input) (some r.output) }
  pure (.executed r)

def executeFound (env : RunEnv) (namespaceId : ℕ) (f : Function) (v : FunctionVersion) (args : Args)
    (sandboxEnv : List (String × String)) : Api ToolResult := do
  let filtered := filterEnvForFunction sandboxEnv v.requiredEnv v.optionalEnv
  let missing := checkRequiredEnv filtered v.requiredEnv
  if missing ≠ [] then pure (.missingEnv missing)
  else if env.sandbox.registered v.backend then
    let context ← query fun w => loadAgentContext w.db namespaceId
    let input := args.erase "cache"
    let hit ← query fun w => cachedOutput env f v args w
    match hit with
    | some output => pure (.executed { success := true, output })
    | none => executeAndCache env f v input filtered context
  else raise (valueError ("Backend not available: " ++ backendName v.backend))

def dispatchNamed (env : RunEnv) (h : RunHandler) (service function : String) (args : Args)
    (sandboxEnv : List (String × String)) : Api ToolResult := do
  let ns ← fetch fun w => getNamespace w.db h
  fetch fun w => checkAgentFunctionAccess w.db ns.id service function
  let found ← fetch fun w => getForExecution w.db ns.id service function
  executeFound env ns.id found.1 found.2 args sandboxEnv

def dispatchTool (env : RunEnv) (h : RunHandler) (name : String) (args : Args)
    (sandboxEnv : List (String × String) := []) : Api ToolResult := do
  fetch fun _ => checkScope h name
  if (name = "execute_python" ∨ name = "execute") ∧ h.mode = "code" then
    executeCodeMode env h .python ((args.get? "code").getD (.str "")) sandboxEnv
  else if name = "execute_typescript" ∧ h.mode = "code" then
    executeCodeMode env h .typescript ((args.get? "code").getD (.str "")) sandboxEnv
  else if name = "_env_status" then handleEnvStatus h sandboxEnv
  else if startsWith name "api__" then dispatchPublishedApi env h name args
  else
    match splitOnce "." name with
    | none => raise (valueError ("Invalid tool name format. Expected service.function, got: " ++ name))
    | some (service, function) => dispatchNamed env h service function args sandboxEnv

def eagerSandbox : Sandbox where
  registered b := b = .codeSandbox
  transpile := .ok
  run _ := { success := true }
  loaded p := p.files.map Prod.fst
  loads_python _ _ _ _ hpath := ⟨"pass", by decide, hpath⟩
  loads_typescript _ _ _ _ hpath := ⟨"0", "0", by decide, rfl, hpath⟩

def plainEnv : RunEnv where
  sandbox := eagerSandbox
  sha := ⟨fun _ _ => 0⟩
  canonical _ := ""
  callApi _ _ _ := .ok ""
  storable _ := true
  storableJson _ := true

end McpworksApi.Run
