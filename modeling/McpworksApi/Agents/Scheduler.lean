import McpworksApi.Agents.State
import McpworksApi.Agents.Webhooks

/-! The direct run of a scheduled function (`_execute_function_direct` of the scheduler). The run is recorded, the
function is looked up in the namespace that carries the agent's name, and the outcome is written to the run and to the
schedule, whose failure policy may switch it off. -/

namespace McpworksApi.Agents

open Models Py Run Services Services.Functions Session

structure SchedulerEnv where
  run : RunEnv
  now : Time
  computeNextRun : (cronExpression timezone : String) → Except ApiError Time
  loads : String → Except JsonError Json
  str : Json → String
  atLeast : ℕ → String → Bool

def continuePolicy : Json := .obj [("strategy", .str "continue")]

def failurePolicyOf (env : SchedulerEnv) (schedule : AgentSchedule) : Except ApiError Args := do
  let policy := if schedule.failurePolicy.truthy then schedule.failurePolicy else continuePolicy
  let policy ← match policy with
    | .str text =>
      match env.loads text with
      | .ok j => .ok j
      | .error .jsonDecodeError => .ok continuePolicy
      | .error (.other e) => .error e
    | j => .ok j
  match policy with
  | .obj fields => .ok fields
  | _ => .error (.py .attributeError "object has no attribute 'get'")

def reachesLimit (env : SchedulerEnv) (failures : ℕ) : Json → Except ApiError Bool
  | .int n => .ok (n ≤ failures)
  | .bool b => .ok (b.toNat ≤ failures)
  | .float text => .ok (env.atLeast failures text)
  | _ => .error (.py .typeError "'>=' not supported between instances")

def switchesOff (env : SchedulerEnv) (schedule : AgentSchedule) (failures : ℕ) : Except ApiError Bool := do
  let policy ← failurePolicyOf env schedule
  match (policy.get? "strategy").getD (.str "continue") with
  | .str "auto_disable" => reachesLimit env failures ((policy.get? "max_failures").getD (.int 3))
  | _ => .ok false

def withOutcome (env : SchedulerEnv) (schedule : AgentSchedule) (failures : ℕ) (off : Bool) (next : Time)
    (t : Table AgentSchedule) : Table AgentSchedule :=
  t.update schedule.id fun s =>
    { s with consecutiveFailures := failures, lastRunAt := some env.now, nextRunAt := some next,
             enabled := if off then false else s.enabled }

def updateSchedule (env : SchedulerEnv) (schedule : AgentSchedule) (failures : ℕ) (off : Bool)
    (next : Time) : Api Unit :=
  write fun w => { w with db := { w.db with
    schedules := withOutcome env schedule failures off next w.db.schedules } }

def recordFailure (env : SchedulerEnv) (runId : ℕ) (schedule : AgentSchedule) (error : String) : Api Unit := do
  endRun env.run runId .failed (some error) none
  let next ← fetch fun _ => env.computeNextRun schedule.cronExpression schedule.timezone
  let off ← fetch fun _ => switchesOff env schedule (schedule.consecutiveFailures + 1)
  updateSchedule env schedule (schedule.consecutiveFailures + 1) off next

def scheduleNamespace (db : Db) (agent : Agent) (account : Account) : Except ApiError (Option Namespace) :=
  scalarOneOrNone (db.namespaces.select fun n => n.name.val = agent.name ∧ n.accountId = account.id)

/-- The package that goes with code that imports from it; it cannot be generated where a stored input schema is
malformed. -/
def scheduleFiles (db : Db) (ns : Namespace) (v : FunctionVersion) : Except ApiError (List CodeFile) :=
  if contains (v.code.getD "") "from functions" then do
    let package ← functionsPackage db ns.name.val (listAllForNamespace db ns.id)
    pure package.code
  else .ok []

def finishScheduled (env : SchedulerEnv) (runId : ℕ) (schedule : AgentSchedule) (r : ExecutionResult) :
    Api (Option String) :=
  if r.success then do
    let output := if r.output.truthy then some (clip 2000 (env.str r.output)) else none
    endRun env.run runId .completed none output
    let next ← fetch fun _ => env.computeNextRun schedule.cronExpression schedule.timezone
    updateSchedule env schedule 0 false next
    pure output
  else do
    recordFailure env runId schedule (if given r.error then r.error.getD "" else "Unknown error")
    pure none

def executeFunctionDirect (env : SchedulerEnv) (schedule : AgentSchedule) (agent : Agent) : Api (Option String) :=
  match splitOnce "." schedule.functionName with
  | none => pure none
  | some (service, function) => transaction (fun before after => { after with db := before.db }) do
    let runId ← query fun w => w.db.agentRuns.freshId
    write fun w => { w with db := { w.db with
      agentRuns := w.db.agentRuns.insert fun i =>
        { id := i, agentId := agent.id, triggerType := "cron",
          triggerDetail := some ("schedule:" ++ toString schedule.id), functionName :=
            some schedule.functionName } } }
    match ← query fun w => w.db.accounts.get? agent.accountId with
    | none => pure none
    | some account =>
      match ← fetch fun w => scheduleNamespace w.db agent account with
      | none => pure none
      | some ns =>
        match ← query fun w => getForExecution w.db ns.id service function with
        | .error e => do
          recordFailure env runId schedule e.text
          pure none
        | .ok (f, v) =>
          if env.run.sandbox.registered v.backend then do
            let state ← query fun w => getAllState w.db agent.id
            let files ← fetch fun w => scheduleFiles w.db ns v
            let r ← executeFunction env.run.sandbox .python f v (.obj []) [] (some (stateContext state)) files
            finishScheduled env runId schedule r
          else do
            recordFailure env runId schedule ("Backend not available: " ++ backendName v.backend)
            pure none

end McpworksApi.Agents
