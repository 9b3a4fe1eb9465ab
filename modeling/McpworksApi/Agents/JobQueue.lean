import McpworksApi.Agents.ScheduledRuns

/-! The queue of scheduled jobs (`_create_scheduled_jobs`, `_claim_pending_jobs`). Due schedules become pending jobs, one
for each or one for each running replica; pending jobs are claimed, at most five of either kind in a poll. -/

namespace McpworksApi.Agents

open Models Py Run Services Services.Functions Session

def runs (agent : Agent) : Bool := agent.status = .running ∧ agent.enabled

def enabledSchedules (db : Db) : List AgentSchedule :=
  db.schedules.select fun s => s.enabled ∧ (db.agents.get? s.agentId).any runs

def dueSchedules (db : Db) (now : Time) : List AgentSchedule :=
  (enabledSchedules db).filter fun s => s.nextRunAt.all (· ≤ now)

def runningReplicas (db : Db) (agentId : ℕ) : List AgentReplica :=
  db.replicas.select fun r => r.agentId = agentId ∧ r.status = .running

def addJob (now : Time) (schedule : AgentSchedule) (fireTime : Time) (replicaId : Option ℕ) : Api Unit := do
  fetch fun w =>
    if (w.db.schedules.get? schedule.id).isSome ∧ (w.db.agents.get? schedule.agentId).isSome then .ok ()
    else .error (.py .integrityError "insert on table scheduled_jobs violates foreign key constraint")
  write fun w => { w with db := { w.db with
    scheduledJobs := w.db.scheduledJobs.insert fun i =>
      { id := i, agentId := schedule.agentId, scheduleId := schedule.id, replicaId, fireTime,
        createdAt := now } } }

def addJobs (now : Time) (schedule : AgentSchedule) (fireTime : Time) : List (Option ℕ) → Api Unit
  | [] => pure ()
  | replicaId :: replicaIds => do
    addJob now schedule fireTime replicaId
    addJobs now schedule fireTime replicaIds

def jobTargets (db : Db) (schedule : AgentSchedule) : List (Option ℕ) :=
  match schedule.mode with
  | .cluster => (runningReplicas db schedule.agentId).map fun r => some r.id
  | .single => [none]

def withNextRun (scheduleId : ℕ) (next : Time) (t : Table AgentSchedule) : Table AgentSchedule :=
  t.update scheduleId fun s => { s with nextRunAt := some next }

def createJobsFor (env : SchedulerEnv) (fireTime : Time) (schedule : AgentSchedule) : Api Unit := do
  let existing ← fetch fun w =>
    scalarOneOrNone (w.db.scheduledJobs.select fun j => j.scheduleId = schedule.id ∧ j.fireTime = fireTime)
  if existing.isSome then pure ()
  else
    let targets ← query fun w => jobTargets w.db schedule
    addJobs env.now schedule fireTime targets
    let next ← fetch fun _ => env.computeNextRun schedule.cronExpression schedule.timezone
    write fun w => { w with db := { w.db with
      schedules := withNextRun schedule.id next w.db.schedules } }

def createAll (env : SchedulerEnv) (fireTime : Time) : List AgentSchedule → Api Unit
  | [] => pure ()
  | schedule :: schedules => do
    createJobsFor env fireTime schedule
    createAll env fireTime schedules

def inTransaction {α : Type} (m : Api α) : Api α := transaction (fun before after => { after with db := before.db }) m

def createScheduledJobs (env : SchedulerEnv) (due : List AgentSchedule) (fireTime : Time) : Api Unit :=
  inTransaction (createAll env fireTime due)

def maxConcurrentExecutions : ℕ := 5

def pendingJobs (db : Db) : List ScheduledJob :=
  (db.scheduledJobs.select fun j => j.status = .pending ∧ j.replicaId.isNone).take maxConcurrentExecutions ++
    (db.scheduledJobs.select fun j => j.status = .pending ∧ j.replicaId.isSome).take maxConcurrentExecutions

def claimant (db : Db) (job : ScheduledJob) : Option ℕ :=
  match job.replicaId with
  | some replicaId => some replicaId
  | none => (runningReplicas db job.agentId).head?.map (·.id)

structure ClaimedJob where
  job : ScheduledJob
  schedule : AgentSchedule
  agent : Agent

def claimedWork (db : Db) (job : ScheduledJob) : Option ClaimedJob :=
  (db.schedules.get? job.scheduleId).bind fun schedule =>
    (db.agents.get? schedule.agentId).map fun agent => ⟨job, schedule, agent⟩

def claimJob (now : Time) (job : ScheduledJob) : Api (Option ClaimedJob) := do
  match ← query fun w => claimant w.db job with
  | none => pure none
  | some replicaId =>
    updateJob job.id fun j => { j with status := .claimed, claimedBy := some replicaId, claimedAt := some now }
    query fun w => claimedWork w.db job

def claimAll (now : Time) : List ScheduledJob → Api (List ClaimedJob)
  | [] => pure []
  | job :: jobs => do
    let claimed ← claimJob now job
    let rest ← claimAll now jobs
    pure (claimed.toList ++ rest)

def claimPendingJobs (env : SchedulerEnv) : Api (List ClaimedJob) := inTransaction do
  let jobs ← query fun w => pendingJobs w.db
  claimAll env.now jobs

def stateText (str : Json → String) (state : List (String × Json)) (key : String) : String :=
  match (state.find? (·.1 = key)).map Prod.snd with
  | none => ""
  | some (.str s) => s
  | some v => if v.truthy then str v else ""

def historySummary (state : List (String × Json)) : Json :=
  match (state.find? (·.1 = "__conversation_history__")).map Prod.snd with
  | some (.obj fields) => (Args.get? fields "summary").getD .null
  | _ => .null

def heartbeatContext (str : Json → String) (state : List (String × Json)) : String :=
  let part (heading text : String) : String := if text = "" then "" else heading ++ text ++ "\n"
  let summary := historySummary state
  "Heartbeat tick. You are waking up on your configured interval.\n" ++
    part "\nYour identity:\n" (stateText str state "__soul__") ++
    part "\nYour current goals:\n" (stateText str state "__goals__") ++
    part "\nYour instructions for this heartbeat:\n" (stateText str state "__heartbeat_instructions__") ++
    part "\nRecent conversation context:\n" (if summary.truthy then match summary with | .str s => s | v => str v else "") ++
    "\nReview your state and instructions, then decide what actions to take. " ++
    "You can update __heartbeat_instructions__ via set_state to change what you do on your next heartbeat. " ++
    "If nothing needs doing, respond briefly that all is well."

def executeHeartbeat (env : ExecutionEnv) (agent : Agent) : Api Unit := do
  if !given agent.aiEngine then pure ()
  else
    match ← query fun w => w.db.accounts.get? agent.accountId with
    | none => pure ()
    | some account =>
      let tier ← query fun w => accountTier w.db env.scheduler.now account
      let state ← query fun w => getAllState w.db agent.id
      let _ ← runOrchestration env.agent
        { agent, triggerType := "heartbeat", triggerContext := heartbeatContext env.scheduler.str state, tier,
          accountId := account.id, canary := env.canary, runId := env.runToken }
      let interval : ℤ := match agent.heartbeatInterval with
        | some n => if n = 0 then 300 else n
        | none => 300
      write fun w => { w with db := { w.db with
        agents := w.db.agents.update agent.id fun a =>
          { a with heartbeatNextAt := some ((env.scheduler.now : ℤ) + interval * 1000000).toNat } } }

end McpworksApi.Agents
