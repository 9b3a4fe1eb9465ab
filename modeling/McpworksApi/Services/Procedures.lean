import McpworksApi.Services.JsonPath
import McpworksApi.Services.Lookup

/-! `ProcedureService.create_procedure`. The functions of the steps must exist, the expressions of
their mappings must be well formed, and an expression that begins with `$.steps.` must name a
step before its own. -/

namespace McpworksApi.Services.Procedures

open Models Py Functions

structure StepInput where
  name : String
  functionRef : String
  instructions : String
  failurePolicy : String := "required"
  maxRetries : ℤ := 1
  requiredFields : List String := []
  inputMapping : Option Json := none
  outputMapping : Option Json := none

def stepError (i : ℕ) (message : String) : ApiError := valueError ("Step " ++ toString (i + 1) ++ message)

def checkFunctionRef (db : Db) (namespaceId i : ℕ) (ref : String) : Except ApiError Unit :=
  match splitOnce "." ref with
  | none => .error (stepError i ": function_ref must be in 'service.function' format")
  | some (service, function) => do
    let found ← scalarOneOrNone (db.functions.select fun f =>
      (serviceOf db f).any (fun s => s.namespaceId = namespaceId ∧ s.name.val = service) ∧
        f.name.val = lower function ∧ f.deletedAt = none)
    match found with
    | some _ => .ok ()
    | none => .error (notFound ("Step " ++ toString (i + 1) ++ ": function '" ++ ref ++ "' not found in namespace"))

def mappingEntries : Option Json → List (String × Json)
  | some (.obj fields) => fields
  | _ => []

def referredStep (expression : String) : String := String.ofList (((expression.toList.splitOn '.')[2]?).getD [])

def checkExpression (i : ℕ) (which : String) (entry : String × Json) : Except ApiError (String × String) :=
  match JsonPath.validateExpression entry.2 with
  | .error e => .error (stepError i (": " ++ which ++ "['" ++ entry.1 ++ "']: " ++ e))
  | .ok expression => .ok (entry.1, expression)

def checkInput (i : ℕ) (earlier : List String) (entry : String × Json) : Except ApiError (String × String) := do
  let (param, expression) ← checkExpression i "input_mapping" entry
  if startsWith expression "$.steps." ∧ referredStep expression ∉ earlier then
    .error (stepError i (": input_mapping['" ++ param ++ "'] references step '" ++ referredStep expression ++
      "' which has not executed yet"))
  else .ok (param, expression)

def checkMappings : ℕ → List String → List StepInput →
    Except ApiError (List (List (String × String) × List (String × String)))
  | _, _, [] => .ok []
  | i, earlier, step :: steps => do
    let input ← (mappingEntries step.inputMapping).mapM (checkInput i earlier)
    let output ← (mappingEntries step.outputMapping).mapM (checkExpression i "output_mapping")
    let later ← checkMappings (i + 1) (earlier ++ [step.name]) steps
    pure ((input, output) :: later)

def failurePolicyOf : String → Option FailurePolicy
  | "required" => some .required
  | "allowed" => some .allowed
  | "skip" => some .skip
  | _ => none

def validateStep (i : ℕ) (step : StepInput) (mappings : List (String × String) × List (String × String)) :
    Except ApiError ProcedureStep :=
  match failurePolicyOf step.failurePolicy with
  | none => .error (stepError i " failure_policy must be one of: required, allowed, skip")
  | some policy =>
    if h : 0 ≤ step.maxRetries ∧ step.maxRetries ≤ 5 then
      .ok
        { stepNumber := i + 1
          name := step.name
          functionRef := step.functionRef
          instructions := step.instructions
          failurePolicy := policy
          maxRetries := ⟨step.maxRetries.toNat, by omega⟩
          requiredFields := step.requiredFields
          inputMapping := if mappings.1 = [] then none else some mappings.1
          outputMapping := if mappings.2 = [] then none else some mappings.2 }
    else .error (stepError i " max_retries must be 0-5")

def normalizedSteps (db : Db) (namespaceId : ℕ) (steps : List StepInput) : Except ApiError (List ProcedureStep) := do
  let _ ← steps.zipIdx.mapM fun p => checkFunctionRef db namespaceId p.2 p.1.functionRef
  let mappings ← checkMappings 0 [] steps
  if steps.length < 1 ∨ 20 < steps.length then .error (valueError "Procedure must have between 1 and 20 steps")
  else (steps.zip mappings).zipIdx.mapM fun p => validateStep p.2 p.1.1 p.1.2

def procedureService (db : Db) (namespaceId : ℕ) (service name : String) : Except ApiError NamespaceService := do
  match ← scalarOneOrNone (db.services.select fun s => s.namespaceId = namespaceId ∧ s.name.val = service) with
  | none => .error (notFound ("Service '" ++ service ++ "' not found"))
  | some s =>
    match ← scalarOneOrNone (db.procedures.select fun p => p.serviceId = s.id ∧ p.name = name ∧
      p.isDeleted = false) with
    | some _ => .error (conflict ("Procedure '" ++ name ++ "' already exists in service '" ++ service ++ "'"))
    | none => .ok s

def createProcedure (namespaceId : ℕ) (service name : String) (steps : List StepInput)
    (description createdBy : Option String := none) : DbSession Procedure := do
  let s ← Session.fetch fun db => procedureService db namespaceId service name
  let stored ← Session.fetch fun db => normalizedSteps db namespaceId steps
  let i ← Session.query (·.procedures.freshId)
  Session.write fun db =>
    { db with
      procedures := db.procedures.insert fun i =>
        { id := i, namespaceId, serviceId := s.id, name, description }
      procedureVersions := db.procedureVersions.insert fun j =>
        { id := j, procedureId := i, version := 1, steps := stored, createdBy } }
  pure { id := i, namespaceId, serviceId := s.id, name, description }

end McpworksApi.Services.Procedures
