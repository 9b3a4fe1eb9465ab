import McpworksApi.Run.Dispatch

/-! The persistent state of agents: the state operations of `AgentService`. The size of an entry
is the size of its JSON text; an agent's entries may take up as much as its owner's tier
allows. -/

namespace McpworksApi.Agents

open Models Py Run Services

def getAgent (db : Db) (accountId : ℕ) (name : String) : Except ApiError Agent := do
  match ← scalarOneOrNone (db.agents.select fun a => a.accountId = accountId ∧ a.name = name) with
  | none => .error (notFound ("Agent '" ++ name ++ "' not found"))
  | some agent => .ok agent

def maxStateBytes (tier : String) : Except ApiError ℤ :=
  if tier = "trial-agent" ∨ tier = "pro-agent" then .ok (100 * 1024 * 1024)
  else if tier = "enterprise-agent" then .ok (1024 * 1024 * 1024)
  else if tier = "dedicated-agent" then .ok (-1)
  else .error (.app .forbidden ("Tier '" ++ tier ++ "' is not agent-enabled"))

def entriesOf (db : Db) (agentId : ℕ) : List AgentState := db.agentStates.select (·.agentId = agentId)

def getAllState (db : Db) (agentId : ℕ) : List (String × Json) := (entriesOf db agentId).map fun s => (s.key, s.value)

def findEntry (db : Db) (agentId : ℕ) (key : String) : Except ApiError (Option AgentState) :=
  scalarOneOrNone (db.agentStates.select fun s => s.agentId = agentId ∧ s.key = key)

def getState (db : Db) (accountId : ℕ) (agentName key : String) : Except ApiError AgentState := do
  let agent ← getAgent db accountId agentName
  match ← findEntry db agent.id key with
  | none => .error (notFound ("State key '" ++ key ++ "' not found"))
  | some entry => .ok entry

structure StateKeys where
  keys : List String
  totalSizeBytes : ℕ
  maxSizeBytes : ℤ

def listStateKeys (db : Db) (accountId : ℕ) (agentName tier : String) : Except ApiError StateKeys := do
  let agent ← getAgent db accountId agentName
  let limit ← maxStateBytes tier
  let entries := (entriesOf db agent.id).mergeSort (·.key ≤ ·.key)
  pure ⟨entries.map (·.key), (entries.map (·.sizeBytes)).sum, limit⟩

def checkSetState (db : Db) (accountId : ℕ) (agentName key : String) (size : ℕ) (tier : String) :
    Except ApiError (Agent × Option AgentState) := do
  let agent ← getAgent db accountId agentName
  let limit ← maxStateBytes tier
  let existing ← findEntry db agent.id key
  let total := ((entriesOf db agent.id).map (·.sizeBytes)).sum
  let projected : ℤ := total - ((existing.map (·.sizeBytes)).getD 0 : ℕ) + size
  if limit < projected then
    .error (.app .forbidden ("State size limit exceeded: " ++ toString projected ++ " bytes > " ++ toString limit ++
      " bytes for " ++ tier))
  else if existing.isNone ∧ 255 < key.length then
    .error (.py .dataError "value too long for type character varying(255)")
  else .ok (agent, existing)

def rewriteEntry (i : ℕ) (value : Json) (size : ℕ) (db : Db) : Db :=
  { db with agentStates := db.agentStates.update i fun s => { s with value, sizeBytes := size } }

def addEntry (agentId : ℕ) (key : String) (value : Json) (size : ℕ) (db : Db) : Db :=
  { db with
    agentStates := db.agentStates.insert fun i =>
      { id := i, agentId, key, value, sizeBytes := size } }

def removeEntry (i : ℕ) (db : Db) : Db := { db with agentStates := db.agentStates.deleteWhere (·.id = i) }

def setState (dumps : Json → String) (accountId : ℕ) (agentName key : String) (value : Json) (tier : String) :
    Api Unit := do
  let size := (encode (dumps value)).length
  let (agent, existing) ← Session.fetch fun w => checkSetState w.db accountId agentName key size tier
  match existing with
  | some entry => Session.write fun w => { w with db := rewriteEntry entry.id value size w.db }
  | none => Session.write fun w => { w with db := addEntry agent.id key value size w.db }

def deleteState (accountId : ℕ) (agentName key : String) : Api Unit := do
  let entry ← Session.fetch fun w => getState w.db accountId agentName key
  Session.write fun w => { w with db := removeEntry entry.id w.db }

end McpworksApi.Agents
