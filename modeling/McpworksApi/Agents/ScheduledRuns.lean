import McpworksApi.Agents.Orchestration
import McpworksApi.Agents.Scheduler

/-! One execution of a schedule (`_execute_scheduled_function`), and of a job that was claimed. What is executed
depends on the orchestration mode: the function itself, a procedure, or an orchestration, with or without a run of the
function before it. -/

namespace McpworksApi.Agents

open Models Py Run Services Services.Functions Session

structure ExecutionEnv where
  scheduler : SchedulerEnv
  agent : AgentEnv
  canary : String
  runToken : String

inductive Plan
  | refused (detail : String)
  | procedure (name service : String) (account : Account)
  | direct
  | orchestrated (runFirst : Bool) (account : Account)

def planOf (db : Db) (schedule : AgentSchedule) (agent : Agent) : Plan :=
  let withAccount (k : Account → Plan) : Plan :=
    match db.accounts.get? agent.accountId with
    | none => .refused "Account not found"
    | some account => k account
  match schedule.orchestrationMode with
  | .procedure =>
    if !given schedule.procedureName then .refused "No procedure name configured"
    else if !given agent.aiEngine then .refused "No AI engine configured"
    else withAccount (.procedure (schedule.procedureName.getD "")
      (((splitOnce "." schedule.functionName).map Prod.fst).getD "default"))
  | .direct => .direct
  | .runThenReason => if given agent.aiEngine then withAccount (.orchestrated true) else .direct
  | .reasonFirst => if given agent.aiEngine then withAccount (.orchestrated false) else .direct

def accountTier (db : Db) (now : Time) (account : Account) : String :=
  match db.users.get? account.userId with
  | some u => tierValue (u.effectiveTier now)
  | none => "pro-agent"

def updateFire (fireId : ℕ) (status : FireStatus) (detail : Option String) (runId : Option ℕ) : Api Unit := do
  fetch fun w =>
    if runId.all fun i => (w.db.agentRuns.get? i).isSome then .ok ()
    else .error (.py .integrityError "update on table schedule_fires violates foreign key constraint")
  write fun w => { w with db := { w.db with
    scheduleFires := w.db.scheduleFires.update fireId fun f =>
      { f with status, errorDetail := detail, agentRunId := runId.or f.agentRunId } } }

def withFire (schedule : AgentSchedule) (agent : Agent) (t : Table ScheduleFire) : Table ScheduleFire :=
  t.insert fun i => { id := i, scheduleId := schedule.id, agentId := agent.id, status := .started }

def recordFire (schedule : AgentSchedule) (agent : Agent) : Api ℕ := do
  fetch fun w =>
    if (w.db.schedules.get? schedule.id).isSome ∧ (w.db.agents.get? agent.id).isSome then .ok ()
    else .error (.py .integrityError "insert on table schedule_fires violates foreign key constraint")
  let fireId ← query (·.db.scheduleFires.freshId)
  write fun w => { w with db := { w.db with
    scheduleFires := withFire schedule agent w.db.scheduleFires } }
  pure fireId

def recordOrchestration (env : SchedulerEnv) (schedule : AgentSchedule) (success : Bool) : Api Unit := do
  let next ← fetch fun _ => env.computeNextRun schedule.cronExpression schedule.timezone
  updateSchedule env schedule (if success then 0 else schedule.consecutiveFailures + 1) false next

def triggerContext (env : ExecutionEnv) (schedule : AgentSchedule) (agent : Agent) : Bool → Api String
  | true => do
    let output ← executeFunctionDirect env.scheduler schedule agent
    pure ("Scheduled execution of " ++ schedule.functionName ++ " completed.\nOutput: " ++
      if given output then output.getD "" else "(no output)")
  | false => pure ("Scheduled trigger for function " ++ schedule.functionName ++ ". Decide what actions to take.")

def orchestrateSchedule (env : ExecutionEnv) (schedule : AgentSchedule) (agent : Agent)
    (runFirst : Bool) (account : Account) :
    Api Orchestration := do
  let tier ← query fun w => accountTier w.db env.scheduler.now account
  let context ← triggerContext env schedule agent runFirst
  runOrchestration env.agent
    { agent, triggerType := "cron", triggerContext := context, tier, accountId := account.id,
      canary := env.canary, runId := env.runToken }

def runScheduledProcedure (env : ExecutionEnv) (agent : Agent) (name service : String)
    (account : Account) : Api Orchestration := do
  let tier ← query fun w => accountTier w.db env.scheduler.now account
  runProcedureOrchestration env.agent
    { agent, accountId := account.id, tier, triggerType := "cron" } name service none

def carryOut (env : ExecutionEnv) (schedule : AgentSchedule) (agent : Agent) (fireId : ℕ) : Plan → Api Unit
  | .refused detail => updateFire fireId .error (some detail) none
  | .procedure name service account => do
    let _ ← runScheduledProcedure env agent name service account
    updateFire fireId .completed none none
  | .direct =>
    handle
      (do
        let _ ← executeFunctionDirect env.scheduler schedule agent
        updateFire fireId .completed none none)
      fun e => updateFire fireId .error (some (clip 500 e.text)) none
  | .orchestrated runFirst account => do
    let r ← orchestrateSchedule env schedule agent runFirst account
    recordOrchestration env.scheduler schedule r.success
    updateFire fireId (if r.success then .completed else .error)
      (if given r.error then r.error.map (clip 500) else none) r.runId

def executeScheduledFunction (env : ExecutionEnv) (schedule : AgentSchedule) (agent : Agent) : Api Unit := do
  let fireId ← recordFire schedule agent
  let plan ← query fun w => planOf w.db schedule agent
  carryOut env schedule agent fireId plan

def updateJob (i : ℕ) (f : ScheduledJob → ScheduledJob)
    (hf : ∀ j, (f j).id = j.id := by intro; exact id rfl) : Api Unit :=
  write fun w => { w with db := { w.db with scheduledJobs := w.db.scheduledJobs.update i f hf } }

def startJob (job : ScheduledJob) : Api Unit := updateJob job.id fun j => { j with status := .running }

def finishJob (env : ExecutionEnv) (job : ScheduledJob) : Except ApiError Unit → Api Unit
  | .error e =>
    updateJob job.id fun j =>
      { j with status := .failed, completedAt := some env.scheduler.now, error := some (clip 1000 e.text) }
  | .ok () => updateJob job.id fun j => { j with status := .complete, completedAt := some env.scheduler.now }

def executeClaimedJob (env : ExecutionEnv) (job : ScheduledJob) (schedule : AgentSchedule)
    (agent : Agent) : Api Unit := do
  startJob job
  finishJob env job (← attempt (executeScheduledFunction env schedule agent))

end McpworksApi.Agents
