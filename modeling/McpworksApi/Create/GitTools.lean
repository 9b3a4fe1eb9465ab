import McpworksApi.Create.Confirmation
import McpworksApi.Services.Functions
import McpworksApi.Services.GitImport

/-! The handlers of `import_namespace` and `import_service`. What a manifest describes is created; a function whose
name is taken raises a conflict, which is dropped unless `conflict` is `fail`. -/

namespace McpworksApi.Create

open Models Py Services Services.GitImport Session

def currentNamespace (h : CreateHandler) (db : Db) : Except ApiError Namespace :=
  Namespaces.getByName db h.namespaceName (some h.account.id)

inductive ImportResult
  | validationFailed (errors : List String)
  | importedNamespace (namespaceName : Json) (services functions : ℕ)
  | importedService (namespaceName : String) (service : Json) (functions : ℕ)

def ImportResult.Success : ImportResult → Prop
  | .validationFailed _ => False
  | _ => True

def suppressNotFound {α : Type} : Except ApiError α → Except ApiError (Option α)
  | .ok a => .ok (some a)
  | .error (.app .notFound _) => .ok none
  | .error e => .error e

def isConflict : ApiError → Bool
  | .app .conflict _ => true
  | _ => false

def isFail : Json → Bool
  | .str s => s = "fail"
  | _ => false

theorem suppressNotFound_eq_some {α : Type} {r : Except ApiError α} {a : α} :
    suppressNotFound r = .ok (some a) ↔ r = .ok a := by
  unfold suppressNotFound
  split <;> simp

theorem eq_conflict_of_isConflict {e : ApiError} (h : isConflict e = true) : ∃ message, e = conflict message := by
  unfold isConflict at h
  split at h
  · rename_i message
    exact ⟨message, rfl⟩
  · cases h

def newFunction (d : FunctionData) : Functions.NewFunction where
  name := d.name
  backend := d.backend
  description := d.description
  tags := d.tags
  code := textValue d.code
  inputSchema := d.inputSchema
  outputSchema := d.outputSchema
  requirements := d.requirements
  requiredEnv := d.requiredEnv
  optionalEnv := d.optionalEnv
  language := d.language
  publicSafe := d.publicSafe

def importFunction (fail : Bool) (serviceId : ℕ) (d : FunctionData) : DbSession ℕ :=
  handle (do
    let _ ← Functions.create serviceId (newFunction d)
    pure 1) fun e => if isConflict e && !fail then pure 0 else raise e

def importFunctions (fail : Bool) (serviceId : ℕ) : List FunctionData → DbSession ℕ
  | [] => pure 0
  | d :: ds => do
    let count ← importFunction fail serviceId d
    let counts ← importFunctions fail serviceId ds
    pure (count + counts)

def targetService (fail : Bool) (namespaceId : ℕ) (data : ServiceData) : DbSession NamespaceService := do
  let name ← fetch fun _ => asName data.name
  match ← fetch fun db => suppressNotFound (ServiceService.getByName db namespaceId name) with
  | none => ServiceService.create namespaceId name data.description
  | some s =>
    if fail then
      raise (conflict ("Service '" ++ name ++ "' already exists. Use conflict='replace' to overwrite."))
    else pure s

def importServices (fail : Bool) (namespaceId : ℕ) : List ServiceData → DbSession (ℕ × ℕ)
  | [] => pure (0, 0)
  | data :: rest => do
    let s ← targetService false namespaceId data
    let functions ← importFunctions fail s.id data.functions
    let counts ← importServices fail namespaceId rest
    pure (counts.1 + 1, functions + counts.2)

def targetNamespace (strftime : Time → String) (h : CreateHandler) (fail : Bool) (nsName description : Json) :
    DbSession Namespace := do
  let name ← fetch fun _ => asName nsName
  match ← fetch fun db => suppressNotFound (Namespaces.getByName db name (some h.account.id)) with
  | none => Namespaces.create strftime h.account.id name description
  | some n =>
    if fail then
      raise (conflict ("Namespace '" ++ name ++ "' already exists. Use conflict='replace' to overwrite."))
    else pure n

def importNamespace (strftime : Time → String) (h : CreateHandler) (clone : Except ApiError Checkout)
    (name conflict : Json) : DbSession ImportResult := do
  let c ← fetch fun _ => clone
  match (validateAndParse c {}).1 with
  | .error (.validation errors) => pure (.validationFailed errors)
  | .error (.other e) => raise e
  | .ok parsed =>
    let target ← targetNamespace strftime h (isFail conflict) (name.orElse parsed.name) parsed.description
    let counts ← importServices (isFail conflict) target.id parsed.services
    pure (.importedNamespace (name.orElse parsed.name) counts.1 counts.2)

def parseServiceArgument (c : Checkout) : Json → Except ImportError ServiceData
  | .str service => (parseService c service {}).1
  | j => .error (.other (.py .typeError ("unsupported operand type(s) for /: 'PosixPath' and '" ++
      j.typeName ++ "'")))

def importService (h : CreateHandler) (clone : Except ApiError Checkout) (service conflict : Json) :
    DbSession ImportResult := do
  let n ← fetch (currentNamespace h)
  let c ← fetch fun _ => clone
  match parseServiceArgument c service with
  | .error (.validation errors) => pure (.validationFailed errors)
  | .error (.other e) => raise e
  | .ok data =>
    let s ← targetService (isFail conflict) n.id data
    let functions ← importFunctions (isFail conflict) s.id data.functions
    pure (.importedService h.namespaceName data.name functions)

end McpworksApi.Create
