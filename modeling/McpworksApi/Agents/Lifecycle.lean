import McpworksApi.Agents.State
import McpworksApi.Session.Wp

/-! The life of agents and their replicas: creation, cloning and scaling in `AgentService`. Docker and the random choice
of names are parameters. -/

namespace McpworksApi.Agents

open Models Py Services Session

structure TierConfig where
  maxAgents : ℤ
  memoryLimitMb : ℕ
  cpuLimit : ℚ
  maxStateBytes : ℤ

def agentTierConfig (tier : String) : Option TierConfig :=
  if tier = "trial-agent" ∨ tier = "pro-agent" then some ⟨5, 512, 1 / 2, 100 * 1024 * 1024⟩
  else if tier = "enterprise-agent" then some ⟨20, 1024, 1, 1024 * 1024 * 1024⟩
  else if tier = "dedicated-agent" then some ⟨-1, 2048, 2, -1⟩
  else none

def getTierConfig (tier : String) : Except ApiError TierConfig :=
  match agentTierConfig tier with
  | none => .error (.app .forbidden ("Tier '" ++ tier ++ "' is not agent-enabled"))
  | some config => .ok config

theorem maxStateBytes_eq (tier : String) : Agents.maxStateBytes tier =
    (getTierConfig tier).map (·.maxStateBytes) := by
  unfold Agents.maxStateBytes getTierConfig agentTierConfig
  split_ifs <;> rfl

def getAgentCount (db : Db) (accountId : ℕ) : ℕ := (db.agents.select (·.accountId = accountId)).length

def getTotalReplicaCount (db : Db) (accountId : ℕ) : ℕ :=
  (db.replicas.select fun r => (db.agents.get? r.agentId).any (·.accountId = accountId)).length

def getReplicas (db : Db) (agentId : ℕ) : List AgentReplica :=
  (db.replicas.select (·.agentId = agentId)).insertionSort fun r s => r.createdAt ≤ s.createdAt

inductive DockerError
  | api (message : String)
  | other (kind : PyError) (message : String)

/-- What the service reads from outside: the clock, the names it draws, and Docker. -/
structure LifecycleEnv where
  now : Time
  strftime : Time → String
  candidates : List String → List String
  start : String → Except DockerError String
  stop : String → Except DockerError Unit
  remove : String → Except DockerError Unit

def generateReplicaName (env : LifecycleEnv) (existing : List String) : Except ApiError String :=
  match (env.candidates existing).find? (· ∉ existing) with
  | some name => .ok name
  | none => .error (.py .runtimeError "No unique replica names available")

def ignoringDocker (r : Except DockerError Unit) : Except ApiError Unit :=
  match r with
  | .error (.other kind message) => .error (.py kind message)
  | _ => .ok ()

def containerName (agent : Agent) (replicaName : String) : String := "agent-" ++ agent.name ++ "-" ++ replicaName

def runReplicaContainer (env : LifecycleEnv) (agent : Agent) (r : AgentReplica) : Except ApiError AgentReplica :=
  match env.start (containerName agent r.replicaName) with
  | .ok container => .ok { r with containerId := some container, status := .running }
  | .error (.api _) => .ok { r with status := .error }
  | .error (.other kind message) => .error (.py kind message)

def updateReplica (i : ℕ) (f : AgentReplica → AgentReplica)
    (hf : ∀ r, (f r).id = r.id := by intro; exact id rfl) : DbSession Unit :=
  write fun db => { db with replicas := db.replicas.update i f hf }

def updateAgent (i : ℕ) (f : Agent → Agent) (hf : ∀ a, (f a).id = a.id := by intro; exact id rfl) : DbSession Unit :=
  write fun db => { db with agents := db.agents.update i f hf }

def createReplica (env : LifecycleEnv) (agent : Agent) : DbSession AgentReplica := do
  let name ← fetch fun db => generateReplicaName env ((getReplicas db agent.id).map (·.replicaName))
  let i ← query (·.replicas.freshId)
  let row : AgentReplica := { id := i, agentId := agent.id, replicaName := name, createdAt := env.now }
  write fun db => { db with replicas := db.replicas.insert fun i => { row with id := i } }
  let row ← fetch fun _ => runReplicaContainer env agent row
  updateReplica i fun r => { r with containerId := row.containerId, status := row.status }
  pure row

def createReplicas (env : LifecycleEnv) (agent : Agent) : ℕ → DbSession Unit
  | 0 => pure ()
  | n + 1 => do
    let _ ← createReplica env agent
    createReplicas env agent n

def deriveAgentStatus (status : AgentStatus) (replicas : List AgentReplica) : AgentStatus :=
  if replicas = [] then (if status = .creating ∨ status = .destroying then status else .stopped)
  else if replicas.all (·.status = .running) then .running
  else if replicas.all (·.status = .stopped) then .stopped
  else if replicas.any (·.status = .running) then .degraded
  else if replicas.any (·.status = .error) then .error
  else .creating

def storeStatus (i : ℕ) : DbSession Unit := do
  let replicas ← query (getReplicas · i)
  updateAgent i fun a => { a with status := deriveAgentStatus a.status replicas }

def validateAgentName (name : String) : Except ApiError Unit :=
  if (validateName .dns "Agent" name).toOption.isSome then .ok ()
  else .error (valueError ("Agent name must be 1-63 lowercase alphanumeric characters or hyphens, " ++
    "starting and ending with alphanumeric"))

def checkNewAgent (db : Db) (config : TierConfig) (accountId : ℕ) (tier name : String) : Except ApiError Unit := do
  if config.maxAgents ≤ getAgentCount db accountId then
    .error (conflict ("Agent slot limit reached (" ++ toString config.maxAgents ++ " for " ++ tier ++ ")"))
  else
    match ← scalarOneOrNone (db.agents.select fun a => a.accountId = accountId ∧ a.name = name) with
    | some _ => .error (conflict ("Agent '" ++ name ++ "' already exists"))
    | none => .ok ()

def addAgent (row : Agent) : DbSession Agent := do
  fetch fun _ => validateAgentName row.name
  fetch fun _ =>
    if 255 < (row.displayName.getD "").length then .error
      (.py .dataError "value too long for type character varying(255)")
    else .ok ()
  let i ← query (·.agents.freshId)
  write fun db => { db with agents := db.agents.insert fun i => { row with id := i } }
  pure { row with id := i }

theorem addAgent_wp (row : Agent) (db : Db) : Wp (addAgent row)
    (fun ag db' => ag = { row with id := db.agents.freshId } ∧
      db' = { db with agents := db.agents.insert fun i => { row with id := i } })
    (fun _ db' => db' = db) db :=
  .fetch_bind (fun _ _ => rfl) fun _ _ => .fetch_bind (fun _ _ => rfl) fun _ _ => ⟨rfl, rfl⟩

def createAgent (env : LifecycleEnv) (accountId : ℕ) (tier name : String) (displayName : Option String) :
    DbSession Agent := do
  let config ← fetch fun _ => getTierConfig tier
  fetch fun db => checkNewAgent db config accountId tier name
  let ns ← Namespaces.create env.strftime accountId name .null
  let agent ← addAgent
    { id := 0, accountId, namespaceId := ns.id, name, displayName,
      memoryLimitMb := config.memoryLimitMb, cpuLimit := config.cpuLimit }
  let _ ← createReplica env agent
  -- the status is derived from `agent.replicas`, which no query of this session has loaded
  raise (.py .missingGreenlet "greenlet_spawn has not been called; can't call await_only() here")

def copyBelongings (source target : ℕ) (db : Db) : Db :=
  let states := (db.agentStates.select (·.agentId = source)).foldl
    (fun t s => t.insert fun i => { s with id := i, agentId := target }) db.agentStates
  let schedules := (db.schedules.select (·.agentId = source)).foldl
    (fun t s => t.insert fun i =>
      { id := i, agentId := target, functionName := s.functionName, cronExpression := s.cronExpression,
        timezone := s.timezone, failurePolicy := s.failurePolicy, orchestrationMode := s.orchestrationMode,
        enabled := false }) db.schedules
  let channels := (db.channels.select (·.agentId = source)).foldl
    (fun t c => t.insert fun i => { c with id := i, agentId := target }) db.channels
  { db with agentStates := states, schedules, channels }

def startClone (env : LifecycleEnv) (agent : Agent) : DbSession Unit :=
  match env.start ("agent-" ++ agent.name) with
  | .ok container => updateAgent agent.id fun a => { a with containerId := some container, status := .running }
  | .error (.api _) => updateAgent agent.id fun a => { a with status := .error }
  | .error (.other kind message) => raise (.py kind message)

def cloneAgent (env : LifecycleEnv) (accountId : ℕ) (sourceName newName tier : String) : DbSession Agent := do
  let config ← fetch fun _ => getTierConfig tier
  fetch fun db => checkNewAgent db config accountId tier newName
  let source ← fetch fun db => getAgent db accountId sourceName
  let ns ← Namespaces.create env.strftime accountId newName .null
  let agent ← addAgent
    { id := 0, accountId, namespaceId := ns.id, name := newName, displayName := source.displayName,
      memoryLimitMb := config.memoryLimitMb, cpuLimit := config.cpuLimit, aiEngine := source.aiEngine,
      aiModel := source.aiModel, aiApiKey := source.aiApiKey, systemPrompt := source.systemPrompt,
      autoChannel := source.autoChannel, clonedFromId := some source.id }
  write (copyBelongings source.id agent.id)
  startClone env agent
  pure agent

def releaseContainer (env : LifecycleEnv) : Option String → Except ApiError Unit
  | none => .ok ()
  | some container => do
    ignoringDocker (env.stop container)
    ignoringDocker (env.remove container)

def dropReplica (env : LifecycleEnv) (r : AgentReplica) : DbSession Unit := do
  fetch fun _ => releaseContainer env r.containerId
  write (·.deleteReplicas (·.id = r.id))

def dropReplicas (env : LifecycleEnv) : List AgentReplica → DbSession Unit
  | [] => pure ()
  | r :: rs => do
    dropReplica env r
    dropReplicas env rs

def newestFirst (replicas : List AgentReplica) : List AgentReplica :=
  replicas.insertionSort fun r s => s.createdAt ≤ r.createdAt

def adjustReplicas (env : LifecycleEnv) (agent : Agent) (current : List AgentReplica) (target : ℤ) : DbSession Unit :=
  if current.length < target then createReplicas env agent (target - current.length).toNat
  else dropReplicas env ((newestFirst current).take (current.length - target).toNat)

def scaleAgent (env : LifecycleEnv) (accountId : ℕ) (agentName : String) (target : ℤ)
    (tier : String) : DbSession Agent := do
  let agent ← fetch fun db => getAgent db accountId agentName
  let config ← fetch fun _ => getTierConfig tier
  let current ← query fun db => getReplicas db agent.id
  let total ← query fun db => getTotalReplicaCount db accountId
  let totalAfter : ℤ := total - current.length + target
  if config.maxAgents < totalAfter then
    raise (conflict ("Scaling to " ++ toString target ++ " replicas would use " ++ toString totalAfter ++
      " slots (limit: " ++ toString config.maxAgents ++ ")"))
  else do
    updateAgent agent.id fun a => { a with targetReplicas := target }
    adjustReplicas env agent current target
    storeStatus agent.id
    pure { agent with targetReplicas := target }

def plainDocker : LifecycleEnv where
  now := 0
  strftime := toString
  candidates _ := ["bold-ant", "calm-bear", "glad-crow", "keen-deer", "swift-elk", "wise-fox"]
  start name := .ok name
  stop _ := .ok ()
  remove _ := .ok ()

end McpworksApi.Agents
