import McpworksApi.Agents.ScheduledRuns
import McpworksApi.Session.Wp
import McpworksApi.Store.Keys

/-! What a direct run of a scheduled function does, as a function of the state it starts in: how it ends,
what it returns or raises, what it writes to the schedule, and the run that it leaves behind. -/

namespace McpworksApi.Agents

open Models Py Run Services Services.Functions

inductive DirectEnd
  | ignored
  | abandoned
  | raised (e : ApiError)
  | failed (error : String)
  | succeeded (output : Option String)

def endOf (env : SchedulerEnv) (r : ExecutionResult) : DirectEnd :=
  if r.success then .succeeded (if r.output.truthy then some (clip 2000 (env.str r.output)) else none)
  else .failed (if given r.error then r.error.getD "" else "Unknown error")

def directEnd (env : SchedulerEnv) (db : Db) (schedule : AgentSchedule) (agent : Agent) : DirectEnd :=
  match splitOnce "." schedule.functionName with
  | none => .ignored
  | some (service, function) =>
    match db.accounts.get? agent.accountId with
    | none => .abandoned
    | some account =>
      match scheduleNamespace db agent account with
      | .error e => .raised e
      | .ok none => .abandoned
      | .ok (some ns) =>
        match getForExecution db ns.id service function with
        | .error e => .failed e.text
        | .ok (f, v) =>
          if env.run.sandbox.registered v.backend then
            match scheduleFiles db ns v with
            | .error e => .raised e
            | .ok files =>
              endOf env (functionCall env.run.sandbox .python f v (.obj []) []
                (some (stateContext (getAllState db agent.id))) files).result
          else .failed ("Backend not available: " ++ backendName v.backend)

namespace DirectEnd

def settlement (env : SchedulerEnv) (schedule : AgentSchedule) : DirectEnd →
    Except ApiError (Option (ℕ × Bool × Time))
  | .ignored | .abandoned => .ok none
  | .raised e => .error e
  | .failed error => do
    endRunCheck env.run (some error) none
    let next ← env.computeNextRun schedule.cronExpression schedule.timezone
    let off ← switchesOff env schedule (schedule.consecutiveFailures + 1)
    .ok (some (schedule.consecutiveFailures + 1, off, next))
  | .succeeded output => do
    endRunCheck env.run none output
    let next ← env.computeNextRun schedule.cronExpression schedule.timezone
    .ok (some (0, false, next))

def output : DirectEnd → Option String
  | .succeeded output => output
  | _ => none

def status : DirectEnd → Option RunStatus
  | .abandoned => some .running
  | .failed _ => some .failed
  | .succeeded _ => some .completed
  | _ => none

end DirectEnd

def settle (env : SchedulerEnv) (schedule : AgentSchedule) (t : Table AgentSchedule) :
    Option (ℕ × Bool × Time) → Table AgentSchedule
  | none => t
  | some (failures, off, next) => withOutcome env schedule failures off next t

def SameBut (db db' : Db) : Prop := { db' with schedules := db.schedules, agentRuns := db.agentRuns } = db

structure DirectDone (env : SchedulerEnv) (schedule : AgentSchedule) (d : DirectEnd) (db : Db)
    (output : Option String) (db' : Db) :
    Prop where
  output_eq : output = d.output
  settled : ∃ s, d.settlement env schedule = .ok s ∧ db'.schedules = settle env schedule db.schedules s
  runs : ∃ new : List AgentRun, db'.agentRuns.rows = db.agentRuns.rows ++ new ∧ new.map (·.status) = d.status.toList
  others : SameBut db db'

section Body

variable {env : SchedulerEnv} {sch : AgentSchedule} {w : World} {mk : ℕ → AgentRun} {hmk : ∀ i, Row.id (mk i) = i}

def opened (w : World) (mk : ℕ → AgentRun) (hmk : ∀ i, Row.id (mk i) = i) : World :=
  { w with db := { w.db with agentRuns := w.db.agentRuns.insert mk hmk } }

theorem exists_endedRun (hmk : ∀ i, Row.id (mk i) = i) {runs : Table AgentRun} {status : RunStatus}
    {error sum : Option String} :
    ∃ new : List AgentRun, ((runs.insert mk hmk).update runs.freshId fun r =>
      { r with status, error, resultSummary := sum }).rows = runs.rows ++ new ∧
        new.map (·.status) = [status] := by
  refine ⟨_, Table.rows_update_insert ?_, rfl⟩
  intro r
  rfl

theorem recordFailure_done (err : String) (calls : List BackendCall) :
    Session.Wp (recordFailure env w.db.agentRuns.freshId sch err >>= fun _ => pure none)
      (fun output w' => DirectDone env sch (.failed err) w.db output w'.db)
      (fun e _ => (DirectEnd.failed err).settlement env sch = .error e)
      { opened w mk hmk with calls } := by
  refine .bind (.bind (.fetch_bind ?_ fun _ hs =>
    .write (.fetch_bind ?_ fun next hn => .fetch_bind ?_ fun off ho => .write (.pure ?_))))
  · intro e he
    simp only [DirectEnd.settlement, he]
    rfl
  · intro e he
    simp only [DirectEnd.settlement, hs, he]
    rfl
  · intro e he
    simp only [DirectEnd.settlement, hs, hn, he]
    rfl
  · constructor
    · rfl
    · refine ⟨some (sch.consecutiveFailures + 1, off, next), ?_, rfl⟩
      simp only [DirectEnd.settlement, hs, hn, ho]
      rfl
    · exact exists_endedRun hmk
    · rfl

theorem finishScheduled_done (r : ExecutionResult) (calls : List BackendCall) :
    Session.Wp (finishScheduled env w.db.agentRuns.freshId sch r)
      (fun output w' => DirectDone env sch (endOf env r) w.db output w'.db)
      (fun e _ => (endOf env r).settlement env sch = .error e)
      { opened w mk hmk with calls } := by
  unfold finishScheduled endOf
  by_cases hr : r.success = true
  · rw [if_pos hr, if_pos hr]
    refine .bind (.fetch_bind ?_ fun _ hs => .write (.fetch_bind ?_ fun next hn => .write_bind (.pure ?_)))
    · intro e he
      simp only [DirectEnd.settlement, he]
      rfl
    · intro e he
      simp only [DirectEnd.settlement, hs, he]
      rfl
    · constructor
      · rfl
      · refine ⟨some (0, false, next), ?_, rfl⟩
        simp only [DirectEnd.settlement, hs, hn]
        rfl
      · exact exists_endedRun hmk
      · rfl
  · rw [if_neg hr, if_neg hr]
    exact recordFailure_done _ calls

end Body

theorem executeFunctionDirect_wp (env : SchedulerEnv) (sc : AgentSchedule) (ag : Agent) (w : World) :
    Session.Wp (executeFunctionDirect env sc ag)
      (fun output w' => DirectDone env sc (directEnd env w.db sc ag) w.db output w'.db)
      (fun e w' => (directEnd env w.db sc ag).settlement env sc = .error e ∧ w'.db = w.db) w := by
  have hn (d : DirectEnd) (hd : d = .ignored) : DirectDone env sc d w.db none w.db := by
    subst hd
    exact ⟨rfl, ⟨none, rfl, rfl⟩, ⟨[], (List.append_nil _).symm, rfl⟩, rfl⟩
  unfold executeFunctionDirect directEnd
  rcases splitOnce "." sc.functionName with _ | ⟨svc, fn⟩
  · exact .pure (hn _ rfl)
  · refine .transaction (.mono (Q := fun output w' => DirectDone env sc _ w.db output w'.db)
      (E := fun e _ => DirectEnd.settlement env sc _ = .error e) ?_ (fun _ _ h => h) fun _ _ h => ⟨h, rfl⟩)
    refine .query_bind (.write_bind (.query_bind ?_))
    have ha (d : DirectEnd) (hd : d = .abandoned) (mk : ℕ → AgentRun) (hmk : ∀ i, Row.id (mk i) = i)
        (hm' : ∀ i, (mk i).status = .running) : DirectDone env sc d w.db none (opened w mk hmk).db := by
      subst hd
      exact ⟨rfl, ⟨none, rfl, rfl⟩, ⟨[mk w.db.agentRuns.freshId], rfl, congrArg (· :: []) (hm' _)⟩, rfl⟩
    dsimp only
    rcases w.db.accounts.get? ag.accountId with _ | account
    · exact .pure (ha _ rfl _ _ fun _ => rfl)
    · dsimp only
      refine .fetch_bind ?_ fun found hf => ?_
      · intro e he
        replace he : scheduleNamespace w.db ag account = .error e := he
        rw [he]
        rfl
      · replace hf : scheduleNamespace w.db ag account = .ok found := hf
        rw [hf]
        rcases found with _ | ns
        · exact .pure (ha _ rfl _ _ fun _ => rfl)
        · dsimp only
          rcases hg : getForExecution w.db ns.id svc fn with e | ⟨f, v⟩ <;> refine .query_bind_of_eq hg ?_
          · exact recordFailure_done e.text _
          · dsimp only
            by_cases hr : env.run.sandbox.registered v.backend = true
            · rw [if_pos hr, if_pos hr]
              refine .query_bind (.fetch_bind ?_ fun files hfi => .bind ?_)
              · intro e he
                replace he : scheduleFiles w.db ns v = .error e := he
                rw [he]
                rfl
              · replace hfi : scheduleFiles w.db ns v = .ok files := hfi
                rw [hfi]
                exact finishScheduled_done _ _
            · rw [if_neg hr, if_neg hr]
              exact recordFailure_done _ _

end McpworksApi.Agents
