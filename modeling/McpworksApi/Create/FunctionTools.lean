import McpworksApi.Create.ImportLaw
import McpworksApi.Run.EnvPassthrough
import McpworksApi.Sandbox.Packages

/-! The tools that write functions: `make_function`, `update_function` and `delete_function`. Arguments are checked
first, and some that do not pass are answered and not raised. -/

namespace McpworksApi.Create

open Models Py Run Services Services.GitImport Packages Session

structure ToolResult where
  text : String
  isError : Bool := false

structure FunctionTemplate where
  code : String
  inputSchema : Json
  outputSchema : Json
  description : String
  tags : List String
  requirements : List String
  language : Language

/-- What the tools use: the templates, the trust level that is suggested for code and variables (only quoted in
an error), and the way times are written. -/
structure FunctionEnv where
  templates : List (String × FunctionTemplate)
  suggestTrustLevel : (code requiredEnv : Json) → Except ApiError (String × String)
  strftime : Time → String

inductive Stop
  | refused (r : ToolResult)
  | raised (e : ApiError)

def orRaise {α : Type} (r : Except ApiError α) : Except Stop α := r.mapError .raised

def refusal {α : Type} (key : String) (value : Json) : Except Stop α :=
  .error (.refused { text := (Json.obj [(key, value)]).dumps, isError := true })

def texts (l : List String) : Json := .arr (l.map .str)

def ifNone (default : Json) : Json → Json
  | .null => default
  | j => j

def isNone : Json → Bool
  | .null => true
  | _ => false

def checkLanguage : Json → Except Stop Language
  | .str "python" => .ok .python
  | .str "typescript" => .ok .typescript
  | _ => refusal "error" (.str "language must be 'python' or 'typescript'")

def checkRequirements (requirements : Json) (language : Language) : Except Stop (List String) := do
  let (validated, errors) ← orRaise (validateRequirementsForLanguage requirements language)
  if errors = [] then pure validated else refusal "errors" (texts errors)

def isNumber : Json → Bool
  | .bool _ | .int _ | .float _ => true
  | _ => false

def allEnvNames (requiredEnv optionalEnv : Json) : Except ApiError (List Json) :=
  match requiredEnv.orElse (.arr []), optionalEnv.orElse (.arr []) with
  | .arr xs, .arr ys => .ok (xs ++ ys)
  | .str s, .str t => iterate (.str (s ++ t))
  | .arr _, j => .error (.py .typeError ("can only concatenate list (not \"" ++ j.typeName ++ "\") to list"))
  | .str _, j => .error (.py .typeError ("can only concatenate str (not \"" ++ j.typeName ++ "\") to str"))
  | i, j =>
    if isNumber i ∧ isNumber j then
      let sum := if i.typeName = "float" ∨ j.typeName = "float" then "float" else "int"
      .error (.py .typeError ("'" ++ sum ++ "' object is not iterable"))
    else .error (.py .typeError ("unsupported operand type(s) for +: '" ++ i.typeName ++
      "' and '" ++ j.typeName ++ "'"))

def checkEnvName : Json → Except Stop Unit
  | .str s =>
    match validateKey s with
    | .ok () => pure ()
    | .error message => refusal "error" (.str message)
  | j => refusal "error" (.str ("Env var key must be a string, got " ++ j.typeName))

def checkEnvNames (requiredEnv optionalEnv : Json) : Except Stop Unit := do
  let names ← orRaise (allEnvNames requiredEnv optionalEnv)
  names.forM checkEnvName

def checkCode (code : Json) : Except Stop Unit :=
  match code with
  | .str _ => pure ()
  | j =>
    if j.truthy then .error (.raised (.py .attributeError ("'" ++ j.typeName ++
      "' object has no attribute 'splitlines'")))
    else pure ()

def checkTrust : Json → Except Stop String
  | .str "prompt" => .ok "prompt"
  | .str "data" => .ok "data"
  | _ => .error (.raised (valueError "output_trust must be 'prompt' or 'data'"))

def whenChecked {α : Type} (checked : Except Stop α) (go : α → DbSession ToolResult) : DbSession ToolResult :=
  match checked with
  | .ok a => go a
  | .error (.refused r) => pure r
  | .error (.raised e) => raise e

structure MakeArgs where
  service : Json
  name : Json
  backend : Json
  code : Json := .null
  config : Json := .null
  inputSchema : Json := .null
  outputSchema : Json := .null
  description : Json := .null
  tags : Json := .null
  requirements : Json := .null
  requiredEnv : Json := .null
  optionalEnv : Json := .null
  createdBy : Json := .null
  template : Json := .null
  language : Json := .str "python"
  publicSafe : Json := .bool false
  outputTrust : Json := .null

def FunctionTemplate.applyTo (t : FunctionTemplate) (a : MakeArgs) : MakeArgs :=
  { a with
    code := ifNone (.str t.code) a.code
    inputSchema := ifNone t.inputSchema a.inputSchema
    outputSchema := ifNone t.outputSchema a.outputSchema
    description := ifNone (.str t.description) a.description
    tags := ifNone (texts t.tags) a.tags
    requirements := if t.requirements = [] then a.requirements else ifNone (texts t.requirements) a.requirements }

def getTemplate (env : FunctionEnv) : Json → Option FunctionTemplate
  | .str name => (env.templates.find? (·.1 = name)).map Prod.snd
  | _ => none

def withTemplate (env : FunctionEnv) (a : MakeArgs) (language : Language) : Except Stop (MakeArgs × Language) := do
  if !a.template.truthy then pure (a, language)
  else
    orRaise (hashable a.template)
    match getTemplate env a.template with
    | some t => pure (t.applyTo a, t.language)
    | none => refusal "error" (.str ("Unknown template: " ++ a.template.text))

def trustArgument (env : FunctionEnv) (a : MakeArgs) : Except Stop String :=
  match a.outputTrust with
  | .null => do
    let (suggested, reason) ← orRaise (env.suggestTrustLevel a.code a.requiredEnv)
    .error (.raised (valueError ("output_trust is required. Suggested: '" ++ suggested ++ "' (" ++ reason ++ "). " ++
      "Set output_trust='" ++ suggested ++ "' or output_trust='" ++
        (if suggested = "prompt" then "data" else "prompt") ++ "'.")))
  | trust => checkTrust trust

def newRequirements (a : MakeArgs) (language : Language) : Except Stop Json :=
  if a.requirements.truthy then do
    let validated ← checkRequirements a.requirements language
    pure (texts validated)
  else pure .null

def newEnvNames (a : MakeArgs) : Except Stop (Json × Json) :=
  if a.requiredEnv.truthy || a.optionalEnv.truthy then do
    checkEnvNames a.requiredEnv a.optionalEnv
    pure (a.requiredEnv, a.optionalEnv)
  else pure (.null, .null)

def checkMake (env : FunctionEnv) (given : MakeArgs) : Except Stop Functions.NewFunction := do
  let language ← checkLanguage given.language
  let (a, language) ← withTemplate env given language
  let requirements ← newRequirements a language
  let (requiredEnv, optionalEnv) ← newEnvNames a
  let trust ← trustArgument env a
  checkCode a.code
  pure
    { name := a.name
      backend := a.backend
      code := a.code
      config := a.config
      inputSchema := a.inputSchema
      outputSchema := a.outputSchema
      description := a.description
      tags := a.tags
      requirements
      requiredEnv
      optionalEnv
      createdBy := a.createdBy
      language := .str language.text
      publicSafe := a.publicSafe
      outputTrust := trust }

def unlessEmpty (key : String) (value : Json) : List (String × Json) := if value.truthy then [(key, value)] else []

def serviceNamed (h : CreateHandler) (service : Json) (db : Db) : Except ApiError NamespaceService := do
  let n ← currentNamespace h db
  let name ← asName service
  ServiceService.getByName db n.id name

def makeFunction (env : FunctionEnv) (h : CreateHandler) (a : MakeArgs) : DbSession ToolResult :=
  whenChecked (checkMake env a) fun n => do
    let s ← fetch (serviceNamed h a.service)
    let _ ← Functions.create s.id n
    pure
      { text := (Json.obj ([("name", .str (a.service.text ++ "." ++ a.name.text)), ("version", .int 1), ("backend", a.backend),
            ("language", n.language)] ++ unlessEmpty "requirements" n.requirements ++
              unlessEmpty "required_env" n.requiredEnv ++
          unlessEmpty "optional_env" n.optionalEnv ++ unlessEmpty "created_by" a.createdBy)).dumps }

structure UpdateArgs where
  service : Json
  name : Json
  backend : Json := .null
  code : Json := .null
  config : Json := .null
  inputSchema : Json := .null
  outputSchema : Json := .null
  description : Json := .null
  tags : Json := .null
  requirements : Json := .null
  requiredEnv : Json := .null
  optionalEnv : Json := .null
  createdBy : Json := .null
  restoreVersion : Json := .null
  publicSafe : Json := .null
  outputTrust : Json := .null

namespace UpdateArgs

def hasMetadata (a : UpdateArgs) : Bool := !(isNone a.description && isNone a.tags &&
    isNone a.publicSafe && isNone a.outputTrust)

def hasVersion (a : UpdateArgs) : Bool :=
  a.backend.truthy || a.code.truthy || a.config.truthy || a.inputSchema.truthy || a.outputSchema.truthy ||
    !isNone a.requirements || !isNone a.requiredEnv || !isNone a.optionalEnv

end UpdateArgs

def givenRequirements (a : UpdateArgs) (language : Language) : Except Stop (List String) :=
  if isNone a.requirements then pure [] else checkRequirements a.requirements language

def checkGivenEnvNames (a : UpdateArgs) : Except Stop Unit :=
  if isNone a.requiredEnv && isNone a.optionalEnv then pure () else checkEnvNames a.requiredEnv a.optionalEnv

def checkGivenTrust : Json → Except Stop Unit
  | .null => pure ()
  | trust => do
    let _ ← checkTrust trust
    pure ()

def checkUpdate (a : UpdateArgs) (language : Language) : Except Stop (List String) := do
  let validated ← givenRequirements a language
  checkGivenEnvNames a
  checkGivenTrust a.outputTrust
  checkCode a.code
  pure validated

def updateMetadata (functionId : ℕ) (a : UpdateArgs) : DbSession Unit :=
  if a.hasMetadata then do
    let _ ← Functions.update functionId a.description a.tags a.publicSafe a.outputTrust
    pure ()
  else pure ()

def versionArgument : Json → Except ApiError ℤ
  | .int n => .ok n
  | .bool b => .ok (if b then 1 else 0)
  | j => .error (.py .dataError ("'" ++ j.typeName ++ "' object cannot be interpreted as an integer"))

def arrayValue : Option (List String) → Json
  | none => .null
  | some l => texts l

def restored (old : FunctionVersion) (createdBy : Json) : Functions.NewVersion where
  backend := .str old.backend.text
  language := .null
  code := textValue old.code
  config := jsonValue old.config
  inputSchema := jsonValue old.inputSchema
  outputSchema := jsonValue old.outputSchema
  requirements := arrayValue old.requirements
  requiredEnv := arrayValue old.requiredEnv
  optionalEnv := arrayValue old.optionalEnv
  createdBy := createdBy

def revised (active : FunctionVersion) (a : UpdateArgs) (validated : List String) : Functions.NewVersion where
  backend := a.backend.orElse (.str active.backend.text)
  language := .null
  code := ifNone (textValue active.code) a.code
  config := ifNone (jsonValue active.config) a.config
  inputSchema := ifNone (jsonValue active.inputSchema) a.inputSchema
  outputSchema := ifNone (jsonValue active.outputSchema) a.outputSchema
  requirements := if isNone a.requirements then arrayValue active.requirements else texts validated
  requiredEnv := ifNone (arrayValue active.requiredEnv) a.requiredEnv
  optionalEnv := ifNone (arrayValue active.optionalEnv) a.optionalEnv
  createdBy := a.createdBy

def updateVersion (functionId : ℕ) (a : UpdateArgs) (validated : List String) : DbSession String :=
  if a.restoreVersion.truthy then do
    let number ← fetch fun _ => versionArgument a.restoreVersion
    let old ← fetch fun db => Functions.getVersion db functionId number
    let _ ← Functions.createVersion functionId (restored old a.createdBy)
    pure ("Restored from v" ++ a.restoreVersion.text)
  else if a.hasVersion then do
    let active ← fetch fun db => Functions.getActiveVersion db functionId
    let _ ← Functions.createVersion functionId (revised active a validated)
    pure "Created new version"
  else pure "Updated metadata only"

def languageOf (db : Db) (f : Function) : Language := ((Functions.activeVersion db f).map (·.language)).getD .python

def functionNamed (h : CreateHandler) (service name : Json) (db : Db) : Except ApiError Function := do
  let s ← serviceNamed h service db
  let name ← asName name
  Functions.getByName db s.id name

def updateFunction (h : CreateHandler) (a : UpdateArgs) : DbSession ToolResult := do
  let f ← fetch (functionNamed h a.service a.name)
  let language ← query fun db => languageOf db f
  whenChecked (checkUpdate a language) fun validated => do
    updateMetadata f.id a
    let message ← updateVersion f.id a validated
    let g ← fetch fun db => Functions.getById db f.id
    pure
      { text := (Json.obj ([("name", .str (a.service.text ++ "." ++ a.name.text)), ("version", .int g.activeVersion),
          ("message", .str message)] ++ unlessEmpty "created_by" a.createdBy)).dumps }

def deleteFunction (now : Time) (h : CreateHandler) (service name : Json) : DbSession ToolResult := do
  let f ← fetch (functionNamed h service name)
  Functions.delete now f.id
  pure { text := "Deleted function: " ++ service.text ++ "." ++ name.text }

inductive FunctionTool
  | makeFunction (a : MakeArgs)
  | updateFunction (a : UpdateArgs)
  | deleteFunction (now : Time) (service name : Json)
  | importTree (clone : Except ApiError Checkout) (conflict : Json) (call : ImportCall)

def FunctionTool.run (env : FunctionEnv) (h : CreateHandler) : FunctionTool → DbSession Unit
  | .makeFunction a => do
    let _ ← Create.makeFunction env h a
    pure ()
  | .updateFunction a => do
    let _ ← Create.updateFunction h a
    pure ()
  | .deleteFunction now service name => do
    let _ ← Create.deleteFunction now h service name
    pure ()
  | .importTree clone conflict call => do
    let _ ← call.run env.strftime h clone conflict
    pure ()

def plainFunctionEnv : FunctionEnv := ⟨[], fun _ _ => .ok ("prompt",
    "no external dependencies detected"), fun _ => ""⟩

end McpworksApi.Create
