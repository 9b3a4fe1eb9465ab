import McpworksApi.Run.Package

/-! The Python package that code mode puts beside a client program (`mcp/code_mode.py`), and what a call of one of its
wrappers does. Each service becomes a module with one wrapper for each of its functions; a wrapper builds `input_data`
from its arguments and executes the function's code file. -/

namespace McpworksApi.Run

open Models Py Services.Functions

structure Param where
  name : String
  default : Option Json

def requiredKeys : Option Json → Except ApiError (List String)
  | none => .ok []
  | some (.arr items) =>
    if items.any fun | .arr _ => true | .obj _ => true | _ => false then .error (.py .typeError "unhashable type")
    else .ok (items.filterMap fun | .str s => some s | _ => none)
  | some (.str s) => .ok (s.toList.map fun c => String.ofList [c])
  | some (.obj fields) => .ok (fields.map Prod.fst)
  | some j => .error (.py .typeError ("'" ++ j.typeName ++ "' object is not iterable"))

def paramOf (required : List String) : String × Json → Except ApiError Param
  | (key, .obj prop) =>
    match Args.get? prop "default" with
    | some default => .ok ⟨sanitize key, some default⟩
    | none => .ok ⟨sanitize key, if key ∈ required then none else some .null⟩
  | (_, j) => .error (.py .attributeError ("'" ++ j.typeName ++ "' object has no attribute 'get'"))

def paramsFromSchema : Option Json → Except ApiError (List Param)
  | none => .ok []
  | some (.obj schema) =>
    match Args.get? schema "properties" with
    | none => .ok []
    | some properties => do
      let required ← requiredKeys (Args.get? schema "required")
      match properties with
      | .obj fields => do
        let params ← fields.mapM (paramOf required)
        pure (params.filter (·.default.isNone) ++ params.filter (·.default.isSome))
      | j => .error (.py .attributeError ("'" ++ j.typeName ++ "' object has no attribute 'items'"))
  | some (.arr items) =>
    if items.any fun | .str s => s = "properties" | _ => false then
      .error (.py .attributeError "'list' object has no attribute 'get'")
    else .ok []
  | some (.str s) =>
    if contains s "properties" then .error (.py .attributeError "'str' object has no attribute 'get'") else .ok []
  | some j =>
    if j.truthy then .error (.py .typeError ("argument of type '" ++ j.typeName ++ "' is not iterable")) else .ok []

def signature (params : List Param) : String :=
  if params.isEmpty then "**kwargs"
  else ", ".intercalate (params.map fun p =>
    match p.default with
    | none => p.name
    | some d => p.name ++ "=" ++ d.repr)

structure Wrapper where
  name : String
  qualified : String
  doc : String
  params : List Param
  codeFile : Option String

def codePath (service function : String) : String :=
  "functions/_code/" ++ sanitize service ++ "__" ++ sanitize function ++ ".py"

def modulePath (service : String) : String := "functions/" ++ sanitize service ++ ".py"

def generateWrapper (service : String) (f : Function) (v : FunctionVersion) : Except ApiError Wrapper := do
  let qualified := service ++ "." ++ f.name.val
  let desc := if given f.description then f.description.getD "" else "Execute " ++ qualified
  let params ← paramsFromSchema v.inputSchema
  match v.language with
  | .typescript =>
    pure
      { name := sanitize f.name.val, qualified, params, codeFile := none
        doc := desc ++ " [TypeScript — called via cross-language bridge]" }
  | .python =>
    pure
      { name := sanitize f.name.val, qualified, params, doc := desc
        codeFile := some (codePath service f.name.val) }

def generateServiceModule (s : String × List (Function × FunctionVersion)) :
    Except ApiError (String × List Wrapper) := do
  let wrappers ← s.2.mapM fun p => generateWrapper s.1 p.1 p.2
  pure (modulePath s.1, wrappers)

def catalogLine (f : Function) (v : FunctionVersion) : String :=
  "      " ++ sanitize f.name.val ++ "(" ++ signature ((paramsFromSchema v.inputSchema).toOption.getD []) ++ ") — " ++
    f.description.getD ""

def sortedServices (services : List (String × List (Function × FunctionVersion))) :
    List (String × List (Function × FunctionVersion)) :=
  services.insertionSort (·.1 ≤ ·.1)

def catalog (namespaceName : String) (services : List (String × List (Function × FunctionVersion))) : String :=
  let sections := (sortedServices services).flatMap fun s =>
    ["    [" ++ s.1 ++ "]"] ++ s.2.map (fun p => catalogLine p.1 p.2) ++ [""]
  let head := ["Available functions in the '" ++ namespaceName ++ "' namespace:", ""]
  "\n" ++ "\n".intercalate (head ++ (if services.isEmpty then [] else "  [Services]" :: sections)) ++ "\n"

/-- `_generate_mcp_server_module` for each server. The signature of a wrapper is read from the input schema
that the remote server gave for the tool. -/
def mcpServerModules (servers : List NamespaceMcpServer) :
    Except ApiError (List (String × List (String × List Param))) :=
  servers.mapM fun s => do
    let wrappers ← s.toolSchemas.mapM fun t => do
      let params ← paramsFromSchema (some t.inputSchema)
      pure ("mcp__" ++ sanitize s.name ++ "__" ++ sanitize t.name, params)
    pure ("functions/_mcp/" ++ sanitize s.name ++ ".py", wrappers)

/-- The files of a package: the catalog and the imports of `functions/__init__.py`, the modules by
their paths, and the code files. -/
structure FunctionsPackage where
  catalog : String
  imports : List (String × String)
  modules : List (String × List Wrapper)
  code : List CodeFile

def functionsPackage (db : Db) (namespaceName : String) (functions : List (Function × FunctionVersion)) :
    Except ApiError FunctionsPackage := do
  let services := byService db functions
  let modules ← services.mapM generateServiceModule
  pure
    { catalog := catalog namespaceName services
      imports := (sortedServices services).flatMap fun s => s.2.map fun p => (s.1, p.1.name.val)
      modules := modules.foldl (fun files m => setItem files m.1 m.2) []
      code := generateFunctionsPackage db functions }

inductive Value
  | json (j : Json)
  | function

structure Globals where
  result : Bool := false
  output : Bool := false
  main : Bool := false
  handler : Bool := false

structure Python where
  charName : String → Bool
  ownDirectory : Json → Bool
  /-- `Path(None)` raises. -/
  ownDirectory_null : ownDirectory .null = false
  globals : (name code : String) → List (String × Value) → Option Globals

def Wrapper.compiles (py : Python) (w : Wrapper) : Bool :=
  isBindable w.name && w.params.all (fun p => isBindable p.name) &&
    decide (w.params.map Param.name).Nodup && fitsDocstring py.charName w.doc

namespace FunctionsPackage

def module (pkg : FunctionsPackage) (service : String) : Option (List Wrapper) :=
  (pkg.modules.find? (·.1 = modulePath service)).map Prod.snd

def imports? (py : Python) (pkg : FunctionsPackage) (service function : String) : Bool :=
  isIdentifier (sanitize service) && isBindable (sanitize function) &&
    match pkg.module service with
    | none => false
    | some wrappers => wrappers.all (Wrapper.compiles py) && wrappers.any (·.name = sanitize function)

def loads (py : Python) (pkg : FunctionsPackage) : Bool :=
  fitsDocstring py.charName pkg.catalog && pkg.imports.all fun i => imports? py pkg i.1 i.2

end FunctionsPackage

def inputData (params : List Param) (args : Args) : Option (List (String × Value)) :=
  if params.isEmpty then some (args.map fun a => (a.1, .json a.2))
  else if args.all fun a => a.1 ∈ params.map Param.name then
    params.mapM fun p =>
      ((args.get? p.name).or p.default).map fun j => (p.name, if p.name = "_track_call" then .function else .json j)
  else none

inductive Entry
  | result
  | output
  | main
  | handler
  deriving DecidableEq, Repr

def wrapperEntry (g : Globals) : Option Entry :=
  if g.result then some .result
  else if g.output then some .output
  else if g.handler then some .handler
  else if g.main then some .main
  else none

structure SourceRun where
  file : CodeFile
  input : List (String × Value)
  entry : Option Entry

def shadows (defs : List String) (params : List Param) (name : String) : Bool :=
  decide (name ∈ params.map Param.name) || decide (name ∈ defs)

def Wrapper.unhindered (py : Python) (defs : List String) (w : Wrapper) (args : Args) (code : String)
    (input : List (String × Value)) : Bool :=
  (!w.params.isEmpty || decide ("dict" ∉ defs)) &&
    (w.params.all fun p => p.name ≠ "__file__" || ((args.get? p.name).or p.default).any py.ownDirectory) &&
    !shadows defs w.params "exec" &&
    match py.globals "__exec__" code input with
    | none => true
    | some g => g.result || g.output || !shadows defs w.params "callable"

def Wrapper.call (py : Python) (files : List CodeFile) (defs : List String) (w : Wrapper) (args : Args) :
    Option SourceRun :=
  match inputData w.params args, w.codeFile.bind fun path => files.find? (·.path = path) with
  | some input, some file =>
    if w.unhindered py defs args file.text input then
      some ⟨file, input, (py.globals "__exec__" file.text input).bind wrapperEntry⟩
    else none
  | _, _ => none

def FunctionsPackage.call (py : Python) (pkg : FunctionsPackage) (service function : String) (args : Args) :
    Option SourceRun := do
  guard (pkg.loads py)
  let wrappers ← pkg.module service
  let w ← wrappers.reverse.find? (·.name = sanitize function)
  w.call py pkg.code (wrappers.map Wrapper.name) args

end McpworksApi.Run
