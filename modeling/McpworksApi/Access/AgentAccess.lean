import McpworksApi.Models.Agents
import McpworksApi.Py.Fnmatch

/-! The access rules of an agent. The decisions take the pattern relation as a parameter, and the functions of
`core/agent_access.py` are their instances at `fnmatch`. -/

namespace McpworksApi.Access

open Models

def agentAccessDenied (agent resource : String) (ruleId : Option String) : ApiError :=
  .py .agentAccessDenied ("Agent '" ++ agent ++ "' is not permitted to access function '" ++ resource ++
    "' (rule: " ++ ruleId.getD "unknown" ++ ")")

section Decision

variable (glob : String → String → Bool)

def ruleMatches (text : String) (r : AccessRule) : Bool := r.patterns.any (glob text)

def rulesOfType (t : RuleType) (rules : List AccessRule) : List AccessRule := rules.filter (·.type = some t)

def deniedBy (text : String) (rules : List AccessRule) : Option AccessRule := rules.find? (ruleMatches glob text)

def allowedBy (text : String) (rules : List AccessRule) : Except (Option String) (Option AccessRule) :=
  match rules with
  | [] => .ok none
  | first :: _ =>
    match rules.find? (ruleMatches glob text) with
    | some r => .ok (some r)
    | none => .error first.id

def decideFunction (accessRules : Option AccessRules) (service function : String) (trust : Option ℤ) :
    Bool × Option String :=
  match accessRules with
  | none => (true, none)
  | some doc =>
    let rules := doc.functionRules
    let qualified := service ++ "." ++ function
    match deniedBy glob service (rulesOfType .denyServices rules) with
    | some r => (false, r.id)
    | none =>
      match deniedBy glob qualified (rulesOfType .denyFunctions rules) with
      | some r => (false, r.id)
      | none =>
        match allowedBy glob service (rulesOfType .allowServices rules) with
        | .error id => (false, id)
        | .ok _ =>
          match allowedBy glob qualified (rulesOfType .allowFunctions rules), trust with
          | .error id, _ => (false, id)
          | .ok (some r), some score => if score < r.minTrustScore.getD 0 then (false, r.id) else (true, none)
          | .ok _, _ => (true, none)

def decideState (accessRules : Option AccessRules) (key : String) : Bool × Option String :=
  match accessRules with
  | none => (true, none)
  | some doc =>
    match deniedBy glob key (rulesOfType .denyKeys doc.stateRules) with
    | some r => (false, r.id)
    | none =>
      match allowedBy glob key (rulesOfType .allowKeys doc.stateRules) with
      | .error id => (false, id)
      | .ok _ => (true, none)

end Decision

def checkFunctionAccess (accessRules : Option AccessRules) (service function : String) (trust : Option ℤ := none) :
    Bool × Option String :=
  decideFunction Py.fnmatch accessRules service function trust

def checkStateAccess (accessRules : Option AccessRules) (key : String) : Bool × Option String :=
  decideState Py.fnmatch accessRules key

end McpworksApi.Access
