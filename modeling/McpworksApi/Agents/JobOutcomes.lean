import McpworksApi.Agents.DirectRuns
import McpworksApi.Agents.OrchestrationFrame

/-! The outcome of a claimed job as it is recorded, against what became of the work that it triggered. A job is
recorded as a success when its own status is `complete` and that of its fire is `completed`. -/

namespace McpworksApi.Agents

open Models Py Run Services Services.Functions Session

def HasRows (db : Db) (schedule : AgentSchedule) (agent : Agent) : Prop :=
  (db.schedules.get? schedule.id).isSome ∧ (db.agents.get? agent.id).isSome

def CronValid (env : SchedulerEnv) (schedule : AgentSchedule) : Prop :=
  ∃ next, env.computeNextRun schedule.cronExpression schedule.timezone = .ok next

/-- The text column of a run takes the error or the output that is written to it. -/
def Storable (env : SchedulerEnv) (text : Option String) : Prop := ∀ s ∈ text, env.run.storable (clip 1000 s) = true

def PolicyApplies (env : SchedulerEnv) (schedule : AgentSchedule) : Prop :=
  ∃ off, switchesOff env schedule (schedule.consecutiveFailures + 1) = .ok off

def fired (schedule : AgentSchedule) (agent : Agent) (w : World) : World :=
  { w with db := { w.db with
    scheduleFires := withFire schedule agent w.db.scheduleFires } }

def jobRunning (job : ScheduledJob) (w : World) : World :=
  { w with db := { w.db with scheduledJobs := w.db.scheduledJobs.update job.id fun j => { j with status := .running } } }

def workStart (job : ScheduledJob) (schedule : AgentSchedule) (agent : Agent) (w : World) : World :=
  fired schedule agent (jobRunning job w)

section Work

variable (env : ExecutionEnv) (schedule : AgentSchedule) (agent : Agent) (w : World)

def PlanSucceeds : Plan → Prop
  | .refused _ => False
  | .procedure name service account =>
    ∃ r, (runScheduledProcedure env agent name service account w).1 = .ok r ∧ r.success = true
  | .direct => ∃ output, directEnd env.scheduler w.db schedule agent = .succeeded output
  | .orchestrated runFirst account =>
    ∃ r, (orchestrateSchedule env schedule agent runFirst account w).1 = .ok r ∧ r.success = true

def WorkSucceeds : Prop := HasRows w.db schedule agent ∧
    PlanSucceeds env schedule agent w (planOf w.db schedule agent)

def PlanReported : Plan → Prop
  | .refused _ => True
  | .procedure name service account =>
    ∀ r, (runScheduledProcedure env agent name service account w).1 = .ok r → r.success = true
  | .direct =>
    match directEnd env.scheduler w.db schedule agent with
    | .ignored | .abandoned => False
    | .raised _ => True
    | .failed error =>
      ¬ (Storable env.scheduler (some error) ∧ CronValid env.scheduler schedule ∧
        PolicyApplies env.scheduler schedule)
    | .succeeded output => Storable env.scheduler output ∧ CronValid env.scheduler schedule
  | .orchestrated runFirst account =>
    ∀ r, (orchestrateSchedule env schedule agent runFirst account w).1 = .ok r → r.success = true →
      CronValid env.scheduler schedule ∧ recordable env.agent.run r = true

def WorkReported : Prop := HasRows w.db schedule agent →
    PlanReported env schedule agent w (planOf w.db schedule agent)

def PlanRecorded : Plan → Prop
  | .refused _ => False
  | .procedure name service account =>
    ∃ r, (runScheduledProcedure env agent name service account w).1 = .ok r
  | .direct => ∃ s, (directEnd env.scheduler w.db schedule agent).settlement env.scheduler schedule = .ok s
  | .orchestrated runFirst account =>
    ∃ r, (orchestrateSchedule env schedule agent runFirst account w).1 = .ok r ∧ r.success = true ∧
      CronValid env.scheduler schedule ∧ recordable env.agent.run r = true

end Work

def fireStatus (db : Db) (fireId : ℕ) : Option FireStatus := (db.scheduleFires.get? fireId).map (·.status)

def jobStatus (db : Db) (jobId : ℕ) : Option JobStatus := (db.scheduledJobs.get? jobId).map (·.status)

def jobsAndFires (w : World) : Table ScheduledJob × Table ScheduleFire := (w.db.scheduledJobs, w.db.scheduleFires)

theorem unobserved_jobsAndFires : Unobserved jobsAndFires where
  asked _ _ := rfl
  request _ _ := rfl
  record _ _ := rfl
  counts _ _ _ _ := rfl
  runs _ _ := rfl
  executions _ _ := rfl

variable {env : ExecutionEnv} {schedule : AgentSchedule} {agent : Agent} {w : World} {fireId : ℕ}

theorem keeps_executeFunctionDirect : Keeps jobsAndFires (executeFunctionDirect env.scheduler schedule agent) := by
  have hs {db db' : Db} (h : SameBut db db') :
    (db'.scheduledJobs, db'.scheduleFires) = (db.scheduledJobs, db.scheduleFires) := by
    rw [← h]
  intro w
  refine Wp.always (R := fun w' => jobsAndFires w' = jobsAndFires w)
    ((executeFunctionDirect_wp env.scheduler schedule agent w).mono ?_ ?_)
  · intro output w' hd
    exact hs hd.others
  · intro e w' hr
    exact congrArg (fun db : Db => (db.scheduledJobs, db.scheduleFires)) hr.2

theorem updateFire_wp (hf : (w.db.scheduleFires.get? fireId).isSome) (st : FireStatus) (det : Option String)
    (rid : Option ℕ) :
    Wp (updateFire fireId st det rid)
      (fun _ w' => w'.db.scheduledJobs = w.db.scheduledJobs ∧ fireStatus w'.db fireId = some st ∧
        (rid.all fun i => (w.db.agentRuns.get? i).isSome) = true)
      (fun _ w' => w' = w ∧ ¬ (rid.all fun i => (w.db.agentRuns.get? i).isSome) = true) w := by
  obtain ⟨fire, hf⟩ := Option.isSome_iff_exists.mp hf
  refine .fetch_bind ?_ fun _ hok => .write ⟨rfl, ?_, ?_⟩
  · intro e he
    split at he
    · cases he
    · rename_i hm
      exact ⟨rfl, hm⟩
  · unfold fireStatus
    rw [Table.get?_update, hf]
    rfl
  · split at hok
    · rename_i ha
      exact ha
    · cases hok

theorem updateFire_none_wp (hf : (w.db.scheduleFires.get? fireId).isSome) (st : FireStatus) (det : Option String) :
    Wp (updateFire fireId st det none)
      (fun _ w' => w'.db.scheduledJobs = w.db.scheduledJobs ∧
        fireStatus w'.db fireId = some st) (fun _ _ => False) w :=
  (updateFire_wp hf st det none).mono (fun _ _ h => ⟨h.1, h.2.1⟩) fun _ _ h => h.2 rfl

theorem isSome_of_jobsAndFires {w' : World} (h : jobsAndFires w' = jobsAndFires w)
    (hf : (w.db.scheduleFires.get? fireId).isSome) :
    (w'.db.scheduleFires.get? fireId).isSome := by
  rw [show w'.db.scheduleFires = w.db.scheduleFires from congrArg Prod.snd h]
  exact hf

/-- What carrying out a plan comes to: the jobs are left alone, and a plan that is not recorded as a success
leaves the fire with another status, or raises. -/
def Carried (env : ExecutionEnv) (schedule : AgentSchedule) (agent : Agent) (fireId : ℕ)
    (plan : Plan) (w : World) : Prop :=
  Wp (carryOut env schedule agent fireId plan)
    (fun _ w' => w'.db.scheduledJobs = w.db.scheduledJobs ∧
      (fireStatus w'.db fireId = some .completed ↔ PlanRecorded env schedule agent w plan))
    (fun _ w' => w'.db.scheduledJobs = w.db.scheduledJobs ∧ ¬ PlanRecorded env schedule agent w plan) w

theorem carried_refused (hf : (w.db.scheduleFires.get? fireId).isSome) (det : String) :
    Carried env schedule agent fireId (.refused det) w := by
  refine (updateFire_none_wp hf .error (some det)).mono ?_ fun _ _ h => h.elim
  rintro - w' ⟨hj, hs⟩
  refine ⟨hj, ?_⟩
  rw [hs]
  exact ⟨nofun, nofun⟩

theorem carried_procedure (hf : (w.db.scheduleFires.get? fireId).isSome) (name svc : String) (acc : Account) :
    Carried env schedule agent fireId (.procedure name svc acc) w := by
  have hk : Keeps jobsAndFires (runScheduledProcedure env agent name svc acc) :=
    .query_bind fun _ => unobserved_jobsAndFires.runProcedureOrchestration _ _ _ _
  refine .bind ((Wp.and_keeps hk (Wp.result _ w)).mono ?_ ?_)
  · rintro r w₁ ⟨hr, hs⟩
    refine (updateFire_none_wp (isSome_of_jobsAndFires hs hf) .completed none).mono ?_ fun _ _ h => h.elim
    rintro - w' ⟨hj, hst⟩
    refine ⟨hj.trans (congrArg Prod.fst hs), ?_⟩
    rw [hst]
    exact ⟨fun _ => ⟨r, hr⟩, fun _ => rfl⟩
  · rintro e w₁ ⟨he, hs⟩
    refine ⟨congrArg Prod.fst hs, ?_⟩
    rintro ⟨r, hr⟩
    rw [he] at hr
    cases hr

theorem carried_direct (hf : (w.db.scheduleFires.get? fireId).isSome) :
    Carried env schedule agent fireId .direct w := by
  have hr := Wp.and_keeps keeps_executeFunctionDirect (executeFunctionDirect_wp env.scheduler schedule agent w)
  refine .handle (.bind (hr.mono ?_ ?_))
  · rintro output w₁ ⟨hd, hsa⟩
    refine (updateFire_none_wp (isSome_of_jobsAndFires hsa hf) .completed none).mono ?_ fun _ _ h => h.elim
    rintro - w' ⟨hj, hst⟩
    obtain ⟨s, hs, -⟩ := hd.settled
    refine ⟨hj.trans (congrArg Prod.fst hsa), ?_⟩
    rw [hst]
    exact ⟨fun _ => ⟨s, hs⟩, fun _ => rfl⟩
  · rintro e w₁ ⟨⟨he, -⟩, hsa⟩
    refine (updateFire_none_wp (isSome_of_jobsAndFires hsa hf) .error _).mono ?_ fun _ _ h => h.elim
    rintro - w' ⟨hj, hst⟩
    refine ⟨hj.trans (congrArg Prod.fst hsa), ?_⟩
    rw [hst]
    refine ⟨nofun, ?_⟩
    rintro ⟨s, hs⟩
    rw [he] at hs
    cases hs

theorem orchestrateSchedule_wp (rf : Bool) (acc : Account) :
    Wp (orchestrateSchedule env schedule agent rf acc)
      (fun r w' => jobsAndFires w' = jobsAndFires w ∧
        (r.success = true → (RunRecorded r w'.db ↔ recordable env.agent.run r = true)))
      (fun _ w' => jobsAndFires w' = jobsAndFires w) w := by
  have hc : Keeps jobsAndFires (triggerContext env schedule agent rf) := by
    cases rf with
    | true => exact keeps_executeFunctionDirect.bind fun _ => .pure _
    | false => exact .pure _
  refine .query_bind (.bind ((Wp.and_keeps hc (Wp.result _ w)).mono ?_ fun _ _ h => h.2))
  rintro context w₁ ⟨-, hs⟩
  refine (Wp.and_keeps (unobserved_jobsAndFires.runOrchestration _) (runOrchestration_wp env.agent _ w₁)).mono ?_ ?_
  · rintro r w' ⟨hr, hs'⟩
    exact ⟨hs'.trans hs, hr⟩
  · rintro e w' ⟨hf, -⟩
    exact hf.elim

theorem recordOrchestration_wp (env : SchedulerEnv) (suc : Bool) :
    Wp (recordOrchestration env schedule suc)
      (fun _ w' => CronValid env schedule ∧ jobsAndFires w' = jobsAndFires w ∧ w'.db.agentRuns = w.db.agentRuns)
      (fun _ w' => ¬ CronValid env schedule ∧ w' = w) w := by
  refine .fetch_bind ?_ fun next hn => .write ⟨⟨next, hn⟩, rfl, rfl⟩
  intro e he
  refine ⟨?_, rfl⟩
  rintro ⟨next, hn⟩
  rw [hn] at he
  cases he

theorem carried_orchestrated (hfi : (w.db.scheduleFires.get? fireId).isSome) (rf : Bool) (acc : Account) :
    Carried env schedule agent fireId (.orchestrated rf acc) w := by
  refine .bind (((Wp.result _ w).and (orchestrateSchedule_wp rf acc)).mono ?_ ?_)
  · rintro r w₁ ⟨hr, hsa, hre⟩
    have hj₁ : w₁.db.scheduledJobs = w.db.scheduledJobs := congrArg Prod.fst hsa
    have ho {p : Prop} (h : PlanRecorded env schedule agent w (.orchestrated rf acc))
        (hp : r.success = true → CronValid env.scheduler schedule → recordable env.agent.run r = true → p) : p := by
      obtain ⟨r', hr', hs, hc, hf⟩ := h
      obtain rfl : r = r' := by
        rw [hr] at hr'
        exact Except.ok.inj hr'
      exact hp hs hc hf
    refine .bind ((recordOrchestration_wp env.scheduler r.success).mono ?_ ?_)
    · rintro - w₂ ⟨hc, hs₂, hru⟩
      refine (updateFire_wp (isSome_of_jobsAndFires (hs₂.trans hsa) hfi) _ _ _).mono ?_ ?_
      · rintro - w' ⟨hj, hst, ha⟩
        refine ⟨hj.trans ((congrArg Prod.fst hs₂).trans hj₁), ?_⟩
        rw [hru] at ha
        rw [hst]
        by_cases hs : r.success = true
        · rw [if_pos hs]
          exact ⟨fun _ => ⟨r, hr, hs, hc, (hre hs).mp ha⟩, fun _ => rfl⟩
        · rw [if_neg hs]
          exact ⟨nofun, fun h => ho h fun hy _ _ => absurd hy hs⟩
      · rintro e w' ⟨rfl, hm⟩
        rw [hru] at hm
        refine ⟨(congrArg Prod.fst hs₂).trans hj₁, fun h => ho h fun hs _ hf => ?_⟩
        exact hm ((hre hs).mpr hf)
    · rintro e w₂ ⟨hc, rfl⟩
      exact ⟨hj₁, fun h => ho h fun _ hy _ => hc hy⟩
  · rintro e w₁ ⟨he, hsa⟩
    refine ⟨congrArg Prod.fst hsa, ?_⟩
    rintro ⟨r, hr, -⟩
    rw [he] at hr
    cases hr

theorem carried (hf : (w.db.scheduleFires.get? fireId).isSome) (plan : Plan) :
    Carried env schedule agent fireId plan w := by
  cases plan with
  | refused det => exact carried_refused hf det
  | procedure name svc account => exact carried_procedure hf name svc account
  | direct => exact carried_direct hf
  | orchestrated rf account => exact carried_orchestrated hf rf account

theorem endRunCheck_error {env : SchedulerEnv} {error : String} :
    endRunCheck env.run (some error) none = .ok () ↔ Storable env (some error) := by
  simp [endRunCheck, Storable]

theorem endRunCheck_output {env : SchedulerEnv} {output : Option String} :
    endRunCheck env.run none output = .ok () ↔ Storable env output := by
  cases output <;> simp [endRunCheck, Storable]

theorem DirectEnd.exists_settlement_failed {env : SchedulerEnv} {error : String} :
    (∃ s, (DirectEnd.failed error).settlement env schedule = .ok s) ↔
      Storable env (some error) ∧ CronValid env schedule ∧ PolicyApplies env schedule := by
  rw [← endRunCheck_error]
  simp only [DirectEnd.settlement, CronValid, PolicyApplies, bind_eq_ok]
  constructor
  · rintro ⟨s, ⟨⟩, hs, next, hn, off, ho, -⟩
    exact ⟨hs, ⟨next, hn⟩, off, ho⟩
  · rintro ⟨hs, ⟨next, hn⟩, off, ho⟩
    exact ⟨_, (), hs, next, hn, off, ho, rfl⟩

theorem DirectEnd.exists_settlement_succeeded {env : SchedulerEnv} {output : Option String} :
    (∃ s, (DirectEnd.succeeded output).settlement env schedule = .ok s) ↔
      Storable env output ∧ CronValid env schedule := by
  rw [← endRunCheck_output]
  simp only [DirectEnd.settlement, CronValid, bind_eq_ok]
  constructor
  · rintro ⟨s, ⟨⟩, hs, next, hn, -⟩
    exact ⟨hs, next, hn⟩
  · rintro ⟨hs, next, hn⟩
    exact ⟨_, (), hs, next, hn, rfl⟩

theorem planReported_iff (plan : Plan) :
    (PlanRecorded env schedule agent w plan ↔ PlanSucceeds env schedule agent w plan) ↔
      PlanReported env schedule agent w plan := by
  cases plan with
  | refused det => exact ⟨fun _ => trivial, fun _ => Iff.rfl⟩
  | procedure name svc account =>
    constructor
    · intro h r hr
      obtain ⟨r', hr', hs⟩ := h.mp ⟨r, hr⟩
      rw [hr] at hr'
      exact Except.ok.inj hr' ▸ hs
    · intro h
      exact ⟨fun ⟨r, hr⟩ => ⟨r, hr, h r hr⟩, fun ⟨r, hr, _⟩ => ⟨r, hr⟩⟩
  | direct =>
    simp only [PlanRecorded, PlanSucceeds, PlanReported]
    cases directEnd env.scheduler w.db schedule agent with
    | ignored => simp [DirectEnd.settlement]
    | abandoned => simp [DirectEnd.settlement]
    | raised e => simp [DirectEnd.settlement]
    | failed error =>
      rw [DirectEnd.exists_settlement_failed]
      simp
    | succeeded output =>
      rw [DirectEnd.exists_settlement_succeeded]
      simp
  | orchestrated rf account =>
    constructor
    · intro h r hr hs
      obtain ⟨r', hr', -, hc, hf⟩ := h.mpr ⟨r, hr, hs⟩
      rw [hr] at hr'
      exact Except.ok.inj hr' ▸ ⟨hc, hf⟩
    · intro h
      constructor
      · rintro ⟨r, hr, hs, -⟩
        exact ⟨r, hr, hs⟩
      · rintro ⟨r, hr, hs⟩
        exact ⟨r, hr, hs, h r hr hs⟩

def RecordedSuccess (db : Db) (jobId fireId : ℕ) : Prop :=
  jobStatus db jobId = some .complete ∧ fireStatus db fireId = some .completed

theorem executeScheduledFunction_wp : Wp (executeScheduledFunction env schedule agent)
      (fun _ w' => w'.db.scheduledJobs = w.db.scheduledJobs ∧
        (fireStatus w'.db w.db.scheduleFires.freshId = some .completed ↔
          HasRows w.db schedule agent ∧ PlanRecorded env schedule agent (fired schedule agent w)
            (planOf w.db schedule agent)))
      (fun _ w' => w'.db.scheduledJobs = w.db.scheduledJobs ∧
        ¬ (HasRows w.db schedule agent ∧ PlanRecorded env schedule agent (fired schedule agent w)
          (planOf w.db schedule agent))) w := by
  refine .bind (.fetch_bind ?_ fun _ hok => .query_bind (.write_bind (.pure (.query_bind ?_))))
  · intro e he
    split at he
    · cases he
    · rename_i hm
      exact ⟨rfl, fun h => hm h.1⟩
  · have hr : HasRows w.db schedule agent := by
      split at hok
      · rename_i hr
        exact hr
      · cases hok
    have hf : ((fired schedule agent w).db.scheduleFires.get? w.db.scheduleFires.freshId).isSome := by
      have hn : (withFire schedule agent w.db.scheduleFires).get? w.db.scheduleFires.freshId =
        some _ := Table.get?_insert
      rw [fired, hn]
      rfl
    have hc : Carried env schedule agent _ (planOf w.db schedule agent) (fired schedule agent w) := carried hf _
    refine hc.mono ?_ ?_
    · rintro - w' ⟨hj, hs⟩
      refine ⟨hj, hs.trans ?_⟩
      simp only [hr, true_and]
    · rintro e w' ⟨hj, hno⟩
      exact ⟨hj, fun h => hno h.2⟩

theorem updateJob_wp {i : ℕ} {f : ScheduledJob → ScheduledJob} {hf : ∀ j, (f j).id = j.id}
    {E : ApiError → World → Prop}
    (st : JobStatus) (hj : (w.db.scheduledJobs.get? i).isSome) (hs : ∀ j, (f j).status = st) :
    Wp (updateJob i f hf) (fun _ w' => jobStatus w'.db i = some st ∧
      w'.db.scheduleFires = w.db.scheduleFires) E w := by
  obtain ⟨job, hj⟩ := Option.isSome_iff_exists.mp hj
  refine .write ⟨?_, rfl⟩
  unfold jobStatus
  rw [Table.get?_update, hj]
  exact congrArg some (hs job)

theorem executeClaimedJob_recorded (job : ScheduledJob) (hj : (w.db.scheduledJobs.get? job.id).isSome) :
    RecordedSuccess (executeClaimedJob env job schedule agent w).2.db job.id w.db.scheduleFires.freshId ↔
      HasRows w.db schedule agent ∧
        PlanRecorded env schedule agent (workStart job schedule agent w) (planOf w.db schedule agent) := by
  have hr : ((jobRunning job w).db.scheduledJobs.get? job.id).isSome := by
    rw [jobRunning, Table.get?_update, Option.isSome_map]
    exact hj
  refine Wp.always (R := fun w' : World => RecordedSuccess w'.db job.id _ ↔ _) (.write_bind (.bind (.attempt ?_)))
  refine (executeScheduledFunction_wp (w := jobRunning job w)).mono ?_ ?_
  · rintro - w₁ ⟨hjo, hs⟩
    rw [← hjo] at hr
    refine (updateJob_wp .complete hr ?_).mono ?_ fun _ _ h => h
    · intro j
      rfl
    · rintro - w' ⟨hj, hf⟩
      rw [RecordedSuccess, hj, fireStatus, hf]
      exact (and_iff_right rfl).trans hs
  · rintro e w₁ ⟨hjo, hn⟩
    rw [← hjo] at hr
    refine (updateJob_wp .failed hr ?_).mono ?_ fun _ _ h => h
    · intro j
      rfl
    · rintro - w' ⟨hj, -⟩
      rw [RecordedSuccess, hj]
      exact ⟨nofun, fun h => (hn h).elim⟩

/-- The outcome of a job is recorded as it was exactly under the conditions of `WorkReported`. -/
theorem outcome_recorded_iff (env : ExecutionEnv) (job : ScheduledJob) (schedule : AgentSchedule)
    (agent : Agent) (w : World)
    (hjob : (w.db.scheduledJobs.get? job.id).isSome) :
    (RecordedSuccess (executeClaimedJob env job schedule agent w).2.db job.id w.db.scheduleFires.freshId ↔
        WorkSucceeds env schedule agent (workStart job schedule agent w)) ↔
      WorkReported env schedule agent (workStart job schedule agent w) := by
  rw [executeClaimedJob_recorded job hjob]
  exact and_congr_right_iff.trans (imp_congr_right fun _ => planReported_iff (planOf w.db schedule agent))

section Instances

def mailSchedule : AgentSchedule :=
  { id := 7, agentId := 6, functionName := "mail.send", cronExpression := "0 * * * *", failurePolicy := continuePolicy }

def mailJob : ScheduledJob := { id := 8, agentId := 6, scheduleId := 7, fireTime := 0, status := .claimed, createdAt := 0 }

def mailJobDb : Db :=
  { mailDb "sms" with
    accounts := .single { id := 2, userId := 1 }
    schedules := .single mailSchedule
    scheduledJobs := .single mailJob }

def sandboxThat (success : Bool) : Sandbox := { eagerSandbox with run := fun _ => { success } }

def executionThat (success : Bool) : ExecutionEnv where
  scheduler := { plainEntryEnv.scheduler with run := { plainEnv with sandbox := sandboxThat success } }
  agent := plainAgentEnv
  canary := "canary"
  runToken := "run"

theorem sent_mail_recorded :
    RecordedSuccess (executeClaimedJob (executionThat true) mailJob mailSchedule (mailAgent "sms")
      { db := mailJobDb }).2.db 8
        mailJobDb.scheduleFires.freshId ↔
      WorkSucceeds (executionThat true) mailSchedule (mailAgent "sms")
        (workStart mailJob mailSchedule (mailAgent "sms") { db := mailJobDb }) :=
  (outcome_recorded_iff (executionThat true) mailJob mailSchedule (mailAgent "sms") { db := mailJobDb } rfl).mpr
    fun _ => ⟨fun _ _ => rfl, 0, rfl⟩

/-- The function fails, and its job and its fire are recorded as a success. -/
theorem failed_mail_recorded_as_success :
    RecordedSuccess (executeClaimedJob (executionThat false) mailJob mailSchedule (mailAgent "sms")
      { db := mailJobDb }).2.db 8
        mailJobDb.scheduleFires.freshId ∧
      ¬ WorkSucceeds (executionThat false) mailSchedule (mailAgent "sms")
        (workStart mailJob mailSchedule (mailAgent "sms") { db := mailJobDb }) := by
  refine ⟨⟨by rfl, by rfl⟩, ?_⟩
  rintro ⟨-, output, ho⟩
  cases ho

end Instances

end McpworksApi.Agents
