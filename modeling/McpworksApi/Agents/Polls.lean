import McpworksApi.Agents.JobOutcomes
import McpworksApi.Agents.JobQueue

/-! A poll of the scheduler (`_poll_and_execute`): due schedules become jobs, pending jobs are claimed, and the claimed
jobs are executed by concurrent tasks. The steps of a poll are its transactions, in any interleaving of the tasks, and
between any two of them the rest of the system may change everything but the jobs and runs of this poll. -/

namespace McpworksApi.Agents

open Models Py Run Services Services.Functions Session

inductive Phase
  | waiting
  | running
  | executed (result : Except ApiError Unit)
  | done

structure Task where
  work : ClaimedJob
  phase : Phase := .waiting

inductive Stage
  | started
  | selected (due : List AgentSchedule)
  | created
  | working (tasks : List Task)
  | raised

structure PollState where
  world : World
  stage : Stage := .started
  moved : List ℕ := []
  opened : List ℕ := []

def movedJobs (db db' : Db) : List ℕ :=
  (db'.scheduledJobs.select fun j => j.status ≠ .pending ∧
    (db.scheduledJobs.get? j.id).any (·.status = .pending)).map (·.id)

def openedRuns (db db' : Db) : List ℕ :=
  (db'.agentRuns.select fun r => r.triggerType = "cron" ∧ (db.agentRuns.get? r.id).isNone).map (·.id)

structure Interferes (s : PollState) (w : World) : Prop where
  jobs : ∀ j ∈ w.db.scheduledJobs.rows, j.id ∈ s.moved →
    ∃ i ∈ s.world.db.scheduledJobs.rows, i.id = j.id ∧ i.status = j.status
  runs : ∀ r ∈ w.db.agentRuns.rows, r.id ∈ s.opened →
    ∃ q ∈ s.world.db.agentRuns.rows, q.id = r.id ∧ q.triggerType = r.triggerType ∧ q.status = r.status

structure PollCondition where
  claims : World → Prop
  executes : ExecutionEnv → ClaimedJob → World → Prop

/-- One step of a worker's poll, or of the world around it. -/
inductive PollStep (C : PollCondition) : PollState → PollState → Prop
  | select (now : Time) (w : World) : PollStep C { world := w } { world := w, stage := .selected (dueSchedules w.db now) }
  | create (env : SchedulerEnv) (due : List AgentSchedule) (now : Time) (w w' : World)
      (h : createScheduledJobs env due now w = (.ok (), w')) :
      PollStep C { world := w, stage := .selected due } { world := w', stage := .created }
  | createRaised (env : SchedulerEnv) (due : List AgentSchedule) (now : Time) (w w' : World) (e : ApiError)
      (h : createScheduledJobs env due now w = (.error e, w')) :
      PollStep C { world := w, stage := .selected due } { world := w', stage := .raised }
  | claim (env : SchedulerEnv) (w w' : World) (work : List ClaimedJob)
      (h : claimPendingJobs env w = (.ok work, w')) (hC : C.claims w) :
      PollStep C { world := w, stage := .created }
        { world := w', stage := .working (work.map fun c => { work := c }), moved := movedJobs w.db w'.db }
  | launch {s : PollState} (before after : List Task) (c : ClaimedJob)
      (h : s.stage = .working (before ++ { work := c } :: after)) :
      PollStep C s
        { s with world := (startJob c.job s.world).2, stage := .working (before ++ { work := c, phase := .running } :: after) }
  | execute (env : ExecutionEnv) {s : PollState} (before after : List Task) (c : ClaimedJob)
      (h : s.stage = .working (before ++ { work := c, phase := .running } :: after)) (hC : C.executes env c s.world) :
      PollStep C s
        { s with
          world := (executeScheduledFunction env c.schedule c.agent s.world).2
          stage := .working (before ++
            { work := c, phase := .executed (executeScheduledFunction env c.schedule c.agent s.world).1 } :: after)
          opened := s.opened ++ openedRuns s.world.db (executeScheduledFunction env c.schedule c.agent s.world).2.db }
  | finish (env : ExecutionEnv) {s : PollState} (before after : List Task) (c : ClaimedJob) (r : Except ApiError Unit)
      (h : s.stage = .working (before ++ { work := c, phase := .executed r } :: after)) :
      PollStep C s
        { s with
          world := (finishJob env c.job r s.world).2
          stage := .working (before ++ { work := c, phase := .done } :: after) }
  | heartbeat (env : ExecutionEnv) {s : PollState} (tasks : List Task) (agent : Agent) (h : s.stage = .working tasks) :
      PollStep C s { s with world := (executeHeartbeat env agent s.world).2 }
  | interfere {s : PollState} (w : World) (h : Interferes s w) : PollStep C s { s with world := w }

def PollState.Ended (s : PollState) : Prop :=
  s.stage = .raised ∨ ∃ tasks, s.stage = .working tasks ∧ ∀ t ∈ tasks, t.phase = .done

structure PollState.Clean (s : PollState) : Prop where
  jobs : ∀ j ∈ s.world.db.scheduledJobs.rows, j.id ∈ s.moved → j.status = .complete ∨
    j.status = .failed ∨ j.status = .pending
  runs : ∀ r ∈ s.world.db.agentRuns.rows, r.id ∈ s.opened → r.triggerType = "cron" →
    r.status = .completed ∨ r.status = .failed

variable {w : World}

theorem nodup_select_ids {α : Type} [Row α] (t : Table α) (p : α → Bool) : ((t.select p).map Row.id).Nodup :=
  t.nodup.sublist ((List.filter_sublist).map _)

theorem pendingJobs_nodup (db : Db) : ((pendingJobs db).map (·.id)).Nodup := by
  unfold pendingJobs
  rw [List.map_append, List.nodup_append]
  refine ⟨?_, ?_, ?_⟩
  · exact (nodup_select_ids db.scheduledJobs _).sublist ((List.take_sublist _ _).map _)
  · exact (nodup_select_ids db.scheduledJobs _).sublist ((List.take_sublist _ _).map _)
  · intro i hi k hk hik
    obtain ⟨a, ha, rfl⟩ := List.mem_map.mp hi
    obtain ⟨b, hb, rfl⟩ := List.mem_map.mp hk
    obtain ⟨ha, han⟩ := Table.mem_select.mp (List.mem_of_mem_take ha)
    obtain ⟨hb, hbs⟩ := Table.mem_select.mp (List.mem_of_mem_take hb)
    obtain rfl := Table.eq_of_id_eq ha hb hik
    simp at han hbs
    simp [han.2] at hbs

/-- What claiming jobs did: the work is for some of the jobs, and a job that is not in the work is as it was, if
each job has its schedule and agent. -/
structure Claims (jobs : List ScheduledJob) (db : Db) (work : List ClaimedJob) (db' : Db) : Prop where
  sublist : (work.map (·.job)).Sublist jobs
  others : { db' with scheduledJobs := db.scheduledJobs } = db
  kept : (∀ j ∈ jobs, (claimedWork db j).isSome) →
    ∀ j ∈ db'.scheduledJobs.rows, j ∈ db.scheduledJobs.rows ∨ ∃ c ∈ work, c.job.id = j.id

theorem claimedWork_congr {db db' : Db} (h : { db' with scheduledJobs := db.scheduledJobs } = db)
    (job : ScheduledJob) :
    claimedWork db' job = claimedWork db job := by
  rw [← h]
  rfl

theorem claimedWork_job {db : Db} {job : ScheduledJob} {c : ClaimedJob}
    (h : claimedWork db job = some c) : c.job = job := by
  unfold claimedWork at h
  obtain ⟨sc, -, h⟩ := Option.bind_eq_some_iff.mp h
  obtain ⟨agt, -, rfl⟩ := Option.map_eq_some_iff.mp h
  rfl

theorem claims_update {db : Db} {job : ScheduledJob} {f : ScheduledJob → ScheduledJob} {hf : ∀ j, (f j).id = j.id} :
    Claims [job] db (claimedWork db job).toList { db with scheduledJobs := db.scheduledJobs.update job.id f hf } where
  sublist := by
    rcases hw : claimedWork db job with _ | c
    · exact List.nil_sublist _
    · rw [← claimedWork_job hw]
      exact List.Sublist.refl _
  others := rfl
  kept h j hj := by
    obtain ⟨c, hc⟩ := Option.isSome_iff_exists.mp (h job (List.mem_singleton_self _))
    rcases Table.mem_update hf hj with ⟨hj, -⟩ | ⟨a, -, ha, rfl⟩
    · exact .inl hj
    · refine .inr ⟨c, by rw [hc]; exact List.mem_singleton_self _, ?_⟩
      rw [claimedWork_job hc]
      exact (ha.symm.trans (hf a).symm)

theorem Claims.append {db db₁ db₂ : Db} {jobs jobs' : List ScheduledJob}
    {work work' : List ClaimedJob} (h : Claims jobs db work db₁)
    (h' : Claims jobs' db₁ work' db₂) : Claims (jobs ++ jobs') db (work ++ work') db₂ where
  sublist := by
    rw [List.map_append]
    exact h.sublist.append h'.sublist
  others := (congrArg (fun d : Db => { d with scheduledJobs := db.scheduledJobs }) h'.others).trans h.others
  kept ha j hj := by
    have ha' : ∀ i ∈ jobs', (claimedWork db₁ i).isSome := by
      intro i hi
      rw [claimedWork_congr h.others]
      exact ha i (List.mem_append_right _ hi)
    rcases h'.kept ha' j hj with hj | ⟨c, hc, hid⟩
    · rcases h.kept (fun i hi => ha i (List.mem_append_left _ hi)) j hj with hj | ⟨c, hc, hid⟩
      · exact .inl hj
      · exact .inr ⟨c, List.mem_append_left _ hc, hid⟩
    · exact .inr ⟨c, List.mem_append_right _ hc, hid⟩

theorem claimJob_wp (now : Time) (job : ScheduledJob) (w : World) :
    Wp (claimJob now job) (fun c w' => Claims [job] w.db c.toList w'.db) (fun _ _ => False) w := by
  apply Wp.query_bind
  cases claimant w.db job with
  | none => exact .pure ⟨List.nil_sublist _, rfl, fun _ j hj => .inl hj⟩
  | some rid => exact .write_bind (.query claims_update)

theorem claimAll_wp (now : Time) (jobs : List ScheduledJob) (w : World) :
    Wp (claimAll now jobs) (fun work w' => Claims jobs w.db work w'.db) (fun _ _ => False) w := by
  induction jobs generalizing w with
  | nil => exact .pure ⟨List.Sublist.refl _, rfl, fun _ j hj => .inl hj⟩
  | cons job jobs ih =>
    apply Wp.bind
    apply (claimJob_wp now job w).mono
    · intro c w₁ hc
      apply Wp.bind
      apply (ih w₁).mono
      · intro rest w₂ hr
        exact .pure (hc.append hr)
      · exact fun _ _ h => h
    · exact fun _ _ h => h

theorem claimPendingJobs_wp (env : SchedulerEnv) (w : World) :
    Wp (claimPendingJobs env) (fun work w' => Claims (pendingJobs w.db) w.db work w'.db) (fun _ _ => False) w :=
  .transaction (.query_bind (claimAll_wp env.now _ w))

def RunEnded (r : AgentRun) : Prop := r.triggerType = "cron" → r.status = .completed ∨ r.status = .failed

def RunsEnded (P : AgentRun → Prop) (w : World) : Prop := ∀ r ∈ w.db.agentRuns.rows, P r → RunEnded r

theorem undisturbed_runsEnded (P : AgentRun → Prop) : Undisturbed (RunsEnded P) where
  asked _ _ h := h
  request _ _ h := h
  record _ _ h := h
  counts _ _ _ _ h := h
  runs w mk hmk hai h := by
    intro r hr hP
    replace hr : r ∈ (w.db.agentRuns.insert mk hmk).rows := hr
    rcases Table.mem_insert.mp hr with hr | rfl
    · exact h r hr hP
    · intro hc
      rw [hai] at hc
      exact absurd hc (by decide)
  executions _ _ h := h

section Executions

variable {env : ExecutionEnv} {sch : AgentSchedule} {ag : Agent} {P : AgentRun → Prop}

def Plan.runsFunction : Plan → Bool
  | .direct => true
  | .orchestrated runFirst _ => runFirst
  | _ => false

theorem direct_runsEnded (hw : RunsEnded P w) (he : directEnd env.scheduler w.db sch ag ≠ .abandoned) :
    Wp (executeFunctionDirect env.scheduler sch ag) (fun _ => RunsEnded P) (fun _ => RunsEnded P) w := by
  apply (executeFunctionDirect_wp env.scheduler sch ag w).mono
  · intro output w' hd r hr hP
    obtain ⟨new, hro, hs⟩ := hd.runs
    rw [hro] at hr
    rcases List.mem_append.mp hr with hr | hr
    · exact hw r hr hP
    · have hr : r.status ∈ (directEnd env.scheduler w.db sch ag).status.toList := hs ▸ List.mem_map_of_mem hr
      intro _
      revert hr he
      cases directEnd env.scheduler w.db sch ag <;> simp [DirectEnd.status]
      · exact Or.inr
      · exact Or.inl
  · rintro e w' ⟨-, hdb⟩ r hr
    rw [hdb] at hr
    exact hw r hr

theorem updateFire_runsEnded (fi : ℕ) (st : FireStatus) (det : Option String) (rid : Option ℕ) :
    Maintains (RunsEnded P) (updateFire fi st det rid) fun _ => True :=
  .fetch_bind fun _ _ _ _ => .write (fun _ h => h) trivial

theorem orchestrateSchedule_runsEnded (hw : RunsEnded P w) (rf : Bool) (acc : Account)
    (he : rf = true → directEnd env.scheduler w.db sch ag ≠ .abandoned) :
    Wp (orchestrateSchedule env sch ag rf acc) (fun _ => RunsEnded P) (fun _ => RunsEnded P) w := by
  have hc : Wp (triggerContext env sch ag rf) (fun _ => RunsEnded P) (fun _ => RunsEnded P) w := by
    cases rf with
    | true => exact .bind ((direct_runsEnded hw (he rfl)).mono (fun _ _ h => .pure h) fun _ _ h => h)
    | false => exact .pure hw
  apply Wp.query_bind
  apply Wp.bind
  apply hc.mono
  · intro context w₁ hw₁
    exact (Wp.of_maintains ((undisturbed_runsEnded P).runOrchestration _) hw₁).mono (fun _ _ h => h.1) fun _ _ h => h
  · exact fun _ _ h => h

theorem carryOut_runsEnded (hw : RunsEnded P w) (fi : ℕ) (plan : Plan)
    (he : plan.runsFunction = true → directEnd env.scheduler w.db sch ag ≠ .abandoned) :
    RunsEnded P (carryOut env sch ag fi plan w).2 := by
  cases plan with
  | refused det => exact (updateFire_runsEnded _ _ _ _ _ hw).1
  | procedure name svc account =>
    have hp : Maintains (RunsEnded P) (runScheduledProcedure env ag name svc account) fun _ => True :=
      .query_bind fun _ _ => ((undisturbed_runsEnded P).undisturbing _ _).runProcedureOrchestration _ _ _
    exact (Maintains.bind hp (fun _ _ => updateFire_runsEnded _ _ _ _) _ hw).1
  | direct =>
    apply Wp.always
    apply Wp.handle
    apply Wp.bind
    apply (direct_runsEnded hw (he rfl)).mono
    · intro output w₁ hw₁
      apply (Wp.of_maintains (updateFire_runsEnded _ _ _ _) hw₁).mono
      · exact fun _ _ h => h.1
      · intro e w₂ hw₂
        exact Wp.always_iff.mpr (updateFire_runsEnded _ _ _ _ _ hw₂).1
    · intro e w₁ hw₁
      exact Wp.always_iff.mpr (updateFire_runsEnded _ _ _ _ _ hw₁).1
  | orchestrated rf account =>
    have hr (r : Orchestration) : Maintains (RunsEnded P)
      (recordOrchestration env.scheduler sch r.success) fun _ => True :=
      .fetch_bind fun _ _ _ _ => .write (fun _ h => h) trivial
    apply Wp.always
    apply Wp.bind
    apply (orchestrateSchedule_runsEnded hw rf account he).mono
    · intro r w₁ hw₁
      exact Wp.always_iff.mpr (Maintains.bind (hr r) (fun _ _ => updateFire_runsEnded _ _ _ _) _ hw₁).1
    · exact fun _ _ h => h

def Settles (env : ExecutionEnv) (c : ClaimedJob) (w : World) : Prop :=
  (planOf w.db c.schedule c.agent).runsFunction = true → directEnd env.scheduler w.db c.schedule c.agent ≠ .abandoned

theorem execute_runsEnded {c : ClaimedJob} (hw : RunsEnded P w) (hs : Settles env c w) :
    RunsEnded P (executeScheduledFunction env c.schedule c.agent w).2 := by
  apply Wp.always
  refine .bind (.fetch_bind (fun _ _ => hw) fun _ _ => .query_bind (.write_bind (.pure (.query_bind ?_))))
  exact Wp.always_iff.mpr (carryOut_runsEnded (w := fired c.schedule c.agent w) hw _ _ hs)

theorem execute_jobs (c : ClaimedJob) :
    (executeScheduledFunction env c.schedule c.agent w).2.db.scheduledJobs = w.db.scheduledJobs := by
  apply Wp.always (R := fun w' : World => w'.db.scheduledJobs = w.db.scheduledJobs)
  exact executeScheduledFunction_wp.mono (fun _ _ h => h.1) fun _ _ h => h.1

theorem heartbeat_maintains {I : World → Prop} (hI : Undisturbed I)
    (ha : ∀ w agents, I w → I { w with db := { w.db with agents } })
    (ag : Agent) : Maintains I (executeHeartbeat env ag) fun _ => True := by
  unfold executeHeartbeat
  split
  · exact .pure trivial
  apply Maintains.query_bind
  intro w _
  cases w.db.accounts.get? ag.accountId with
  | none => exact .pure trivial
  | some account =>
    refine .query_bind fun _ _ => .query_bind fun _ _ => .bind (hI.runOrchestration _) fun _ _ => ?_
    exact .write (fun w => ha w _) trivial

end Executions

structure PollInv (s : PollState) : Prop where
  runs : RunsEnded (·.id ∈ s.opened) s.world
  moved : ∀ i ∈ s.moved, ∃ tasks, s.stage = .working tasks ∧ ∃ t ∈ tasks, t.work.job.id = i
  nodup : ∀ tasks, s.stage = .working tasks → (tasks.map (·.work.job.id)).Nodup
  done : ∀ tasks, s.stage = .working tasks → ∀ t ∈ tasks, t.phase = .done →
    ∀ j ∈ s.world.db.scheduledJobs.rows, j.id ∈ s.moved → j.id = t.work.job.id →
      j.status = .complete ∨ j.status = .failed

theorem pollInv_start (w : World) (stage : Stage) (h : ∀ ts, stage ≠ .working ts) :
    PollInv { world := w, stage } where
  runs _ _ h := by cases h
  moved _ h := by cases h
  nodup ts htasks := absurd htasks (h ts)
  done ts htasks := absurd htasks (h ts)

theorem PollInv.update {s : PollState} (h : PollInv s) {pre post : List Task} {c : ClaimedJob}
    {p p' : Phase} {w' : World}
    {opened : List ℕ} (hs : s.stage = .working (pre ++ { work := c, phase := p } :: post))
    (hr : RunsEnded (·.id ∈ opened) w')
    (hot : ∀ j ∈ w'.db.scheduledJobs.rows, j.id ≠ c.job.id →
      ∃ i ∈ s.world.db.scheduledJobs.rows, i.id = j.id ∧ i.status = j.status)
    (hse : p' = .done → ∀ j ∈ w'.db.scheduledJobs.rows, j.id = c.job.id → j.status = .complete ∨ j.status = .failed) :
    PollInv { s with world := w', stage := .working (pre ++ { work := c, phase := p' } :: post), opened } := by
  have hn := h.nodup _ hs
  refine ⟨hr, ?_, ?_, ?_⟩
  · intro i hi
    obtain ⟨ts, hta, t, ht, rfl⟩ := h.moved i hi
    refine ⟨_, rfl, ?_⟩
    obtain rfl := Stage.working.inj (hta.symm.trans hs)
    rcases List.perm_middle.mem_iff.mp ht with _ | ⟨_, ht⟩
    · exact ⟨_, List.mem_append_right _ List.mem_cons_self, rfl⟩
    · exact ⟨t, List.perm_middle.mem_iff.mpr (List.mem_cons_of_mem _ ht), rfl⟩
  · intro ts hta
    obtain rfl := Stage.working.inj hta
    simpa using hn
  · intro ts hta t ht hd j hj hm hid
    obtain rfl := Stage.working.inj hta
    rcases List.perm_middle.mem_iff.mp ht with _ | ⟨_, ht⟩
    · exact hse hd j hj hid
    · have hne : t.work.job.id ≠ c.job.id := by
        intro heq
        have hnm := (List.perm_middle.map fun t : Task => t.work.job.id).nodup_iff.mp hn
        exact (List.nodup_cons.mp hnm).1 (List.mem_map.mpr ⟨t, ht, heq⟩)
      obtain ⟨i, hi, hij, hst⟩ := hot j hj (hid ▸ hne)
      rw [← hst]
      exact h.done _ hs t (List.perm_middle.mem_iff.mpr (List.mem_cons_of_mem _ ht)) hd i hi
        (hij ▸ hm) (hij.trans hid)

def settling : PollCondition where
  claims w := ∀ j ∈ pendingJobs w.db, (claimedWork w.db j).isSome
  executes := Settles

theorem pollInv_claim {w w' : World} {work : List ClaimedJob} (hcl : Claims (pendingJobs w.db) w.db work w'.db)
    (ha : ∀ j ∈ pendingJobs w.db, (claimedWork w.db j).isSome) :
    PollInv { world := w', stage := .working (work.map fun c => { work := c }), moved := movedJobs w.db w'.db } := by
  refine ⟨?_, ?_, ?_, ?_⟩
  · intro r hr ho
    cases ho
  · intro i hi
    refine ⟨_, rfl, ?_⟩
    obtain ⟨j, hj, rfl⟩ := List.mem_map.mp hi
    obtain ⟨hj, hm⟩ := Table.mem_select.mp hj
    simp only [ne_eq, Bool.decide_and, Bool.and_eq_true, decide_eq_true_eq] at hm
    rcases hcl.kept ha j hj with hol | ⟨c, hc, hid⟩
    · -- a job that was not touched is still pending
      have hg : w.db.scheduledJobs.get? j.id = some j := Table.get?_eq_some.mpr ⟨hol, rfl⟩
      rw [hg] at hm
      exact absurd (by simpa using hm.2) hm.1
    · exact ⟨_, List.mem_map_of_mem hc, hid⟩
  · intro ts hta
    obtain rfl := Stage.working.inj hta
    have hn := (pendingJobs_nodup w.db).sublist (hcl.sublist.map (·.id))
    rw [List.map_map] at hn ⊢
    exact hn
  · intro ts hta t ht hd
    obtain rfl := Stage.working.inj hta
    obtain ⟨c, -, rfl⟩ := List.mem_map.mp ht
    cases hd

theorem updateJob_others {i : ℕ} {f : ScheduledJob → ScheduledJob} {hf : ∀ j, (f j).id = j.id} {j : ScheduledJob}
    (hj : j ∈ (updateJob i f hf w).2.db.scheduledJobs.rows) (hne : j.id ≠ i) :
    ∃ k ∈ w.db.scheduledJobs.rows, k.id = j.id ∧ k.status = j.status := by
  rcases Table.mem_update hf hj with ⟨hj, -⟩ | ⟨a, -, ha, rfl⟩
  · exact ⟨j, hj, rfl, rfl⟩
  · exact absurd ((hf a).trans ha) hne

theorem pollInv_step {s s' : PollState} (h : PollInv s) (hsp : PollStep settling s s') : PollInv s' := by
  cases hsp with
  | select | create | createRaised => exact pollInv_start _ _ (by simp)
  | claim env w w' work hcl ha => exact pollInv_claim ((claimPendingJobs_wp env w).of_ok hcl) ha
  | launch before after c hst =>
    refine h.update hst h.runs ?_ nofun
    intro j hj hne
    exact updateJob_others hj hne
  | execute env before after c hst hse =>
    refine h.update hst (execute_runsEnded ?_ hse) ?_ nofun
    · intro r hr hid
      rcases List.mem_append.mp hid with hid | hid
      · exact h.runs r hr hid
      · -- a run that was there before is not a new one
        obtain ⟨q, hq, hqr⟩ := List.mem_map.mp hid
        have hn := (Table.mem_select.mp hq).2
        have hg : s.world.db.agentRuns.get? q.id = some r := Table.get?_eq_some.mpr ⟨hr, hqr.symm⟩
        simp [hg] at hn
    · intro j hj _
      rw [execute_jobs] at hj
      exact ⟨j, hj, rfl, rfl⟩
  | finish env before after c r hst =>
    have hs : ∃ (f : ScheduledJob → ScheduledJob)
      (hf : ∀ j, (f j).id = j.id), finishJob env c.job r = updateJob c.job.id f hf ∧
        ∀ j, (f j).status = .complete ∨ (f j).status = .failed := by
      cases r with
      | error e => exact ⟨_, _, rfl, fun _ => .inr rfl⟩
      | ok _ => exact ⟨_, _, rfl, fun _ => .inl rfl⟩
    obtain ⟨f, hf, heq, hs⟩ := hs
    rw [heq]
    refine h.update hst h.runs ?_ ?_
    · intro j hj hne
      exact updateJob_others hj hne
    · intro _ j hj hid
      rcases Table.mem_update hf hj with ⟨-, hne⟩ | ⟨a, -, -, rfl⟩
      · exact absurd hid hne
      · exact hs a
  | heartbeat env ts agt hst =>
    have hjo : Undisturbed fun w => w.db.scheduledJobs = s.world.db.scheduledJobs :=
      ⟨fun _ _ h => h, fun _ _ h => h, fun _ _ h => h, fun _ _ _ _ h => h, fun _ _ _ _ h => h, fun _ _ h => h⟩
    have hsa : (executeHeartbeat env agt s.world).2.db.scheduledJobs = s.world.db.scheduledJobs :=
      (heartbeat_maintains hjo (fun _ _ h => h) agt s.world rfl).1
    refine ⟨(heartbeat_maintains (undisturbed_runsEnded _) (fun _ _ h => h) agt s.world h.runs).1,
      h.moved, h.nodup, ?_⟩
    intro ts hta t ht hd j hj
    rw [hsa] at hj
    exact h.done ts hta t ht hd j hj
  | interfere w ho =>
    refine ⟨?_, h.moved, h.nodup, ?_⟩
    · intro r hr hop
      obtain ⟨q, hq, hid, htr, hs⟩ := ho.runs r hr hop
      have hqo : q.id ∈ s.opened := hid ▸ hop
      have he : RunEnded q := h.runs q hq hqo
      unfold RunEnded at he ⊢
      rwa [htr, hs] at he
    · intro ts hta t ht hd j hj hm hid
      obtain ⟨i, hi, hij, hs⟩ := ho.jobs j hj hm
      rw [← hs]
      exact h.done ts hta t ht hd i hi (hij ▸ hm) (hij.trans hid)

/-- At the end of a poll whose claims and executions meet the conditions, its jobs and runs have come to theirs. -/
theorem no_stranded_jobs {w : World} {s : PollState}
    (hrun : Relation.ReflTransGen (PollStep settling) { world := w } s)
    (hended : s.Ended) : s.Clean := by
  have hin : PollInv s := by
    clear hended
    induction hrun with
    | refl => exact pollInv_start _ _ (by simp)
    | tail _ hs ih => exact pollInv_step ih hs
  refine ⟨?_, hin.runs⟩
  intro j hj hm
  obtain ⟨ts, hta, t, ht, hid⟩ := hin.moved j.id hm
  have hd : t.phase = .done := by
    rcases hended with hr | ⟨ts', ht', ha⟩
    · rw [hr] at hta
      cases hta
    · obtain rfl := Stage.working.inj (hta.symm.trans ht')
      exact ha t ht
  rcases hin.done ts hta t ht hd j hj hm hid.symm with h | h
  · exact .inl h
  · exact .inr (.inl h)

section Instances

theorem poll_of_one_job {C : PollCondition} (env : ExecutionEnv) {w w₁ : World} {c : ClaimedJob}
    (hd : dueSchedules w.db env.scheduler.now = []) (hc : claimPendingJobs env.scheduler w = (.ok [c], w₁))
    (hcl : C.claims w) (he : C.executes env c (startJob c.job w₁).2) :
    let w₂ := (startJob c.job w₁).2
    let w₃ := (executeScheduledFunction env c.schedule c.agent w₂).2
    Relation.ReflTransGen (PollStep C) { world := w }
      { world := (finishJob env c.job (executeScheduledFunction env c.schedule c.agent w₂).1 w₃).2
        stage := .working [{ work := c, phase := .done }]
        moved := movedJobs w.db w₁.db
        opened := openedRuns w₂.db w₃.db } := by
  have hs : PollStep C { world := w } { world := w, stage := .selected [] } := hd ▸ .select env.scheduler.now w
  have hcr : PollStep C { world := w, stage := .selected [] } { world := w, stage := .created } :=
    .create env.scheduler [] env.scheduler.now w w rfl
  refine .head hs (.head hcr (.head (.claim env.scheduler w w₁ [c] hc hcl) ?_))
  refine .head (.launch [] [] c rfl) (.head (.execute env [] [] c rfl he) (.single ?_))
  exact .finish env [] [] c _ rfl

def pendingDb (agentName : String) : Db :=
  { mailJobDb with
    agents := .single { mailAgent "sms" with name := agentName }
    replicas := .single { id := 9, agentId := 6, replicaName := "acme-1", status := .running, createdAt := 0 }
    scheduledJobs := .single { mailJob with status := .pending } }

def pendingWork (agentName : String) : ClaimedJob :=
  ⟨{ mailJob with status := .pending }, mailSchedule, { mailAgent "sms" with name := agentName }⟩

theorem mail_poll_clean : ∃ s, Relation.ReflTransGen (PollStep settling)
    { world := { db := pendingDb "acme" } } s ∧ s.moved = [8] ∧ s.Clean := by
  have hc : ∀ j ∈ pendingJobs (pendingDb "acme"), (claimedWork (pendingDb "acme") j).isSome := by decide +kernel
  have hr := poll_of_one_job (C := settling) (executionThat true) (w := { db := pendingDb "acme" })
    (c := pendingWork "acme") rfl rfl
    hc nofun
  exact ⟨_, hr, rfl, no_stranded_jobs hr (.inr ⟨_, rfl, by simp⟩)⟩

/-- No namespace has the name of the agent `clerk`, and the run of its function is left open. -/
theorem clerk_poll_leaves_run_open :
    ∃ s, Relation.ReflTransGen (PollStep ⟨fun _ => True, fun _ _ _ => True⟩)
      { world := { db := pendingDb "clerk" } } s ∧ s.Ended ∧ ¬ s.Clean := by
  refine ⟨_, poll_of_one_job (executionThat true) (c := pendingWork "clerk") rfl rfl trivial
    trivial, .inr ⟨_, rfl, by simp⟩, ?_⟩
  intro h
  have he := h.runs
    { id := 1, agentId := 6, triggerType := "cron", triggerDetail := some "schedule:7", functionName := some "mail.send" }
    (by decide +kernel) (by decide +kernel) rfl
  revert he
  decide

end Instances

end McpworksApi.Agents
