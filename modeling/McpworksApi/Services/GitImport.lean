import McpworksApi.Py.Literal
import McpworksApi.Py.Yaml
import McpworksApi.Session.Invariant
import McpworksApi.Store.Files

/-! The import of a cloned repository (`services/git_import.py`). The manifests are read file by file, whatever the
path of a manifest leads to; complaints are collected, and any of them fails the import in the end. -/

namespace McpworksApi.Services.GitImport

open Models Py Files Session

inductive Contents
  | text (s : String)
  | binary

structure Checkout where
  yaml : Yaml
  root : Node Contents
  directory : List FileName

inductive ImportError
  | validation (errors : List String)
  | other (e : ApiError)

structure Progress where
  errors : List String := []
  sources : List (List FileName) := []

abbrev Parse := Session Progress ImportError

def addError (message : String) : Parse Unit := write fun p => { p with errors := p.errors ++ [message] }

def lift {α : Type} (r : Except ApiError α) : Parse α := fetch fun _ => r.mapError .other

def gitDirectory : FileName := ⟨".git", by decide⟩

def namespaceYaml : FileName := ⟨"namespace.yaml", by decide⟩

def services : FileName := ⟨"services", by decide⟩

def serviceYaml : FileName := ⟨"service.yaml", by decide⟩

def functions : FileName := ⟨"functions", by decide⟩

def functionYaml : FileName := ⟨"function.yaml", by decide⟩

def handlerPy : FileName := ⟨"handler.py", by decide⟩

def handlerTs : FileName := ⟨"handler.ts", by decide⟩

def agents : FileName := ⟨"agents", by decide⟩

def agentYaml : FileName := ⟨"agent.yaml", by decide⟩

def pathName (path : Path) : String :=
  match path.getLast? with
  | some (.down name) => name.val
  | some .up => ".."
  | none => ""

def placeText (place : List FileName) : String := "/" ++ "/".intercalate (place.map FileName.val)

def getKey (value : Json) (key : String) (default : Json := .null) : Except ApiError Json :=
  match value with
  | .obj fields => .ok ((Args.get? fields key).getD default)
  | j => .error (.py .attributeError ("'" ++ j.typeName ++ "' object has no attribute 'get'"))

def readText (c : Checkout) (path : Path) : Parse (Option String) :=
  match resolve c.root path with
  | none => raise (.other (.py .osError "No such file or directory"))
  | some place =>
    match c.root.at? place with
    | some (.file (.text s)) => do
      write fun p => { p with sources := p.sources ++ [place] }
      pure (some (textMode s))
    | some (.file .binary) => pure none
    | _ => raise (.other (.py .osError "Is a directory"))

def loadYaml (c : Checkout) (directory : Path) (name : FileName) : Parse (Option (List (String × Json))) := do
  match ← readText c (directory.child name) with
  | none =>
    addError (name.val ++ " contains non-UTF8 content")
    pure none
  | some text =>
    match c.yaml.load text with
    | .ok (.obj fields) => pure (some fields)
    | .ok _ =>
      addError (name.val ++ " is not a valid YAML mapping")
      pure none
    | .error (.invalid e) =>
      addError ("Invalid YAML in " ++ name.val ++ ": " ++ e)
      pure none
    | .error (.other e) => raise (.other e)

def sortedNames (c : Checkout) (directory : Path) : List FileName :=
  (names c.root directory).insertionSort (·.val ≤ ·.val)

def parseEach {α : Type} (c : Checkout) (directory : Path) (parse : Path → Parse (Option α)) :
    List FileName → Parse (List α)
  | [] => pure []
  | name :: rest =>
    if isDir c.root (directory.child name) then do
      let item ← parse (directory.child name)
      let items ← parseEach c directory parse rest
      pure (item.toList ++ items)
    else parseEach c directory parse rest

def parseAll {α : Type} (c : Checkout) (directory : Path) (parse : Path → Parse (Option α)) : Parse (List α) :=
  if isDir c.root directory then parseEach c directory parse (sortedNames c directory) else pure []

structure FunctionData where
  name : Json
  description : Json
  backend : Json
  language : Json
  code : Option String
  requirements : Json
  tags : Json
  publicSafe : Json
  locked : Json
  inputSchema : Json
  outputSchema : Json
  requiredEnv : Json
  optionalEnv : Json

structure ServiceData where
  name : Json
  description : Json
  functions : List FunctionData

structure AgentData where
  name : Json
  displayName : Json
  aiEngine : Json
  aiModel : Json
  systemPrompt : Json
  toolTier : Json
  scheduledToolTier : Json
  autoChannel : Json
  memoryLimitMb : Json
  cpuLimit : Json
  heartbeatEnabled : Json
  heartbeatInterval : Json
  orchestrationLimits : Json
  mcpServers : Json
  schedules : Json
  webhooks : Json
  channels : List Json

structure NamespaceData where
  name : Json
  description : Json
  services : List ServiceData
  agents : List AgentData

def isTypescript : Json → Bool
  | .str s => s = "typescript"
  | _ => false

def handlerName (language : Json) : FileName := if isTypescript language then handlerTs else handlerPy

def functionData (directory : Path) (metadata spec env language : Json) (code : Option String) :
    Except ApiError FunctionData := do
  pure
    { name := ← getKey metadata "name" (.str (pathName directory))
      description := ← getKey metadata "description"
      backend := ← getKey spec "backend" (.str "code_sandbox")
      language
      code
      requirements := (← getKey spec "requirements").orElse (.arr [])
      tags := (← getKey spec "tags").orElse (.arr [])
      publicSafe := ← getKey spec "public_safe" (.bool false)
      locked := ← getKey spec "locked" (.bool false)
      inputSchema := ← getKey spec "input_schema"
      outputSchema := ← getKey spec "output_schema"
      requiredEnv := (← getKey env "required").orElse (.arr [])
      optionalEnv := (← getKey env "optional").orElse (.arr []) }

def section? (fields : List (String × Json)) (key : String) : Json := (Args.get? fields key).getD (.obj [])

def readHandler (c : Checkout) (directory : Path) (language : Json) : Parse (Option (Option String)) := do
  if pathExists c.root (directory.child (handlerName language)) then
    match ← readText c (directory.child (handlerName language)) with
    | none =>
      addError ((handlerName language).val ++ " in " ++ pathName directory ++ " contains non-UTF8 content")
      pure none
    | some code => pure (some (some code))
  else pure (some none)

def parseFunctionFields (c : Checkout) (directory : Path) (fields : List (String × Json)) :
    Parse (Option FunctionData) := do
  let metadata := section? fields "metadata"
  let spec := section? fields "spec"
  let env ← lift (getKey spec "env" (.obj []))
  let language ← lift (getKey spec "language" (.str "python"))
  match ← readHandler c directory language with
  | none => pure none
  | some code =>
    let data ← lift (functionData directory metadata spec env language code)
    pure (some data)

def parseFunction (c : Checkout) (directory : Path) : Parse (Option FunctionData) := do
  if pathExists c.root (directory.child functionYaml) then
    match ← loadYaml c directory functionYaml with
    | none => pure none
    | some fields => parseFunctionFields c directory fields
  else
    addError ("Missing function.yaml in " ++ pathName directory)
    pure none

def parseServiceFields (c : Checkout) (directory : Path) (fields : List (String × Json)) :
    Parse (Option ServiceData) := do
  let metadata := section? fields "metadata"
  let name ← lift (getKey metadata "name" (.str (pathName directory)))
  let description ← lift (getKey metadata "description")
  let functions ← parseAll c (directory.child functions) (parseFunction c)
  pure (some { name, description, functions })

def parseSingleService (c : Checkout) (directory : Path) : Parse (Option ServiceData) := do
  if pathExists c.root (directory.child serviceYaml) then
    match ← loadYaml c directory serviceYaml with
    | none => pure none
    | some fields => parseServiceFields c directory fields
  else
    addError ("Missing service.yaml in " ++ pathName directory)
    pure none

def parseServices (c : Checkout) (directory : Path) : Parse (List ServiceData) :=
  parseAll c directory (parseSingleService c)

def iterate : Json → Except ApiError (List Json)
  | .arr items => .ok items
  | .obj fields => .ok (fields.map fun f => .str f.1)
  | .str s => .ok (s.toList.map fun c => .str (String.ofList [c]))
  | j => .error (.py .typeError ("'" ++ j.typeName ++ "' object is not iterable"))

def agentData (directory : Path) (metadata spec : Json) : Except ApiError AgentData := do
  let heartbeat ← getKey spec "heartbeat" (.obj [])
  pure
    { name := ← getKey metadata "name" (.str (pathName directory))
      displayName := ← getKey metadata "display_name"
      aiEngine := ← getKey spec "ai_engine"
      aiModel := ← getKey spec "ai_model"
      systemPrompt := ← getKey spec "system_prompt"
      toolTier := ← getKey spec "tool_tier" (.str "standard")
      scheduledToolTier := ← getKey spec "scheduled_tool_tier" (.str "execute_only")
      autoChannel := ← getKey spec "auto_channel"
      memoryLimitMb := ← getKey spec "memory_limit_mb" (.int 256)
      cpuLimit := ← getKey spec "cpu_limit" (.float "0.25")
      heartbeatEnabled := ← getKey heartbeat "enabled" (.bool false)
      heartbeatInterval := ← getKey heartbeat "interval"
      orchestrationLimits := ← getKey spec "orchestration_limits"
      mcpServers := ← getKey spec "mcp_servers"
      schedules := (← getKey spec "schedules").orElse (.arr [])
      webhooks := (← getKey spec "webhooks").orElse (.arr [])
      channels := ← (← iterate ((← getKey spec "channels").orElse (.arr []))).mapM fun channel => do
        pure (.obj [("channel_type", ← getKey channel "type")]) }

def parseAgent (c : Checkout) (directory : Path) : Parse (Option AgentData) := do
  if pathExists c.root (directory.child agentYaml) then
    match ← loadYaml c directory agentYaml with
    | none => pure none
    | some fields =>
      let data ← lift (agentData directory (section? fields "metadata") (section? fields "spec"))
      pure (some data)
  else
    addError ("Missing agent.yaml in agents/" ++ pathName directory)
    pure none

def parseAgents (c : Checkout) (directory : Path) : Parse (List AgentData) := parseAll c directory (parseAgent c)

def Checkout.base (c : Checkout) : Path := .of c.directory

def nsDirs (c : Checkout) : List Path :=
  ((names c.root c.base).filter fun d => isDir c.root (c.base.child d) ∧ d ≠ gitDirectory).map c.base.child

def namespaceDir (c : Checkout) : Except ImportError Path :=
  let has := fun directory : Path => pathExists c.root (directory.child namespaceYaml)
  match nsDirs c with
  | [] =>
    if has c.base then .ok c.base else .error (.validation ["No namespace directory or namespace.yaml found"])
  | [d] =>
    if has d then .ok d
    else if has c.base then .ok c.base
    else .error (.validation ["No namespace.yaml in " ++ placeText c.directory])
  | ds =>
    match ds.find? has with
    | some d => .ok d
    | none => .error (.validation ["Multiple directories found, none with namespace.yaml"])

def requireField (fields : List (String × Json)) (key expected : String) (complain : String → String) : Parse Unit :=
  let value := (Args.get? fields key).getD .null
  match value with
  | .str s => if s = expected then pure () else addError (complain s)
  | j => addError (complain j.text)

def requireName (name : Json) : Parse Unit :=
  if name.truthy then pure () else addError "namespace.yaml missing metadata.name"

def raiseErrors : Parse Unit := fetch fun p => if p.errors = [] then .ok () else .error (.validation p.errors)

def parseNamespaceFields (c : Checkout) (directory : Path) (fields : List (String × Json)) : Parse NamespaceData := do
  requireField fields "apiVersion" "mcpworks/v1" fun v => "Unsupported apiVersion: " ++ v
  requireField fields "kind" "Namespace" fun v => "Expected kind: Namespace, got: " ++ v
  let metadata := section? fields "metadata"
  let name ← lift (getKey metadata "name")
  requireName name
  let svcs ← parseServices c (directory.child services)
  let agts ← parseAgents c (directory.child agents)
  raiseErrors
  let description ← lift (getKey metadata "description")
  pure { name, description, services := svcs, agents := agts }

def validateAndParse (c : Checkout) : Parse NamespaceData := do
  let directory ← fetch fun _ => namespaceDir c
  match ← loadYaml c directory namespaceYaml with
  | none => fetch fun p => .error (.validation p.errors)
  | some fields => parseNamespaceFields c directory fields

def serviceDir (c : Checkout) (service : String) : Option Path :=
  ((c.base :: nsDirs c).map fun d => (d.child services).join service).find? (isDir c.root)

def parseService (c : Checkout) (service : String) : Parse ServiceData :=
  match serviceDir c service with
  | none => raise (.validation ["Service '" ++ service ++ "' not found in export"])
  | some directory => do
    let svc ← parseSingleService c directory
    raiseErrors
    match svc with
    | some data => pure data
    -- where there is no service there was a complaint
    | none => raise (.validation [])

end McpworksApi.Services.GitImport
