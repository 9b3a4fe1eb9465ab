import McpworksApi.Agents.JobQueue

/-! Scheduler processes that poll at the same time. Every SQL statement of a poll is a step of its own. What a
transaction has written is seen by itself at once and by the others when it commits, and a row that it has written or
locked is written by no other until then. -/

namespace McpworksApi.Agents

open Models Py Run Services Session

structure Occurrence where
  scheduleId : ℕ
  due : Option Time
  deriving DecidableEq, Repr

def occurrenceOf (s : AgentSchedule) : Occurrence := ⟨s.id, s.nextRunAt⟩

inductive Write
  | job (schedule : AgentSchedule) (fireTime now : Time) (replicaId : Option ℕ)
  | next (scheduleId : ℕ) (time : Time)
  | claim (jobId replicaId : ℕ) (now : Time)

structure Ledger where
  db : Db
  origin : ℕ → Option Occurrence := fun _ => none

def Write.apply (l : Ledger) : Write → Ledger
  | .job schedule fireTime now replicaId =>
    { db := { l.db with
        scheduledJobs := l.db.scheduledJobs.insert fun i =>
          { id := i, agentId := schedule.agentId, scheduleId := schedule.id, replicaId, fireTime,
            createdAt := now } }
      origin := Function.update l.origin l.db.scheduledJobs.freshId (some (occurrenceOf schedule)) }
  | .next scheduleId time =>
    { l with db := { l.db with schedules := withNextRun scheduleId time l.db.schedules } }
  | .claim jobId replicaId now =>
    { l with db := { l.db with
      scheduledJobs := l.db.scheduledJobs.update jobId fun j =>
        { j with status := .claimed, claimedBy := some replicaId, claimedAt := some now } } }

def applyAll (l : Ledger) (writes : List Write) : Ledger := writes.foldl Write.apply l

def creationWrites (schedule : AgentSchedule) (fireTime now : Time) (targets : List (Option ℕ))
    (next : Time) : List Write :=
  targets.map (.job schedule fireTime now) ++ [.next schedule.id next]

/-- A schedule that a poll found due and dealt with: what it saw when it looked for replicas, and the next run that
it wrote. -/
structure Served where
  schedule : AgentSchedule
  seen : Db
  next : Time

def Served.targets (v : Served) : List (Option ℕ) := jobTargets v.seen v.schedule

/-- One run of `_create_scheduled_jobs`: what is written so far and the schedules to come. -/
structure Creation where
  now : Time
  writes : List Write := []
  served : List Served := []
  todo : List AgentSchedule

inductive CreationPoint
  | next
  | found
  | targeted (seen : Db)
  | inserted (seen : Db)

structure Claiming where
  writes : List Write := []
  locks : List ℕ
  todo : List ScheduledJob
  work : List ClaimedJob := []

inductive ClaimPoint
  | next
  | chosen (replicaId : ℕ)
  | marked

inductive Worker
  | idle
  | creating (c : Creation) (point : CreationPoint)
  | created
  | locked (singles : List ScheduledJob)
  | claiming (k : Claiming) (point : ClaimPoint)
  | working (work : List ClaimedJob)

def scheduleLocks : Worker → List ℕ
  | .creating c _ => c.writes.filterMap fun
    | .next scheduleId _ => some scheduleId
    | _ => none
  | _ => []

def jobLocks : Worker → List ℕ
  | .locked singles => singles.map (·.id)
  | .claiming k _ => k.locks
  | _ => []

structure Fleet where
  ledger : Ledger
  workers : ℕ → Worker := fun _ => .idle
  served : List Served := []
  started : List (ℕ × ScheduledJob) := []

namespace Fleet

def set (f : Fleet) (i : ℕ) (x : Worker) : Fleet := { f with workers := Function.update f.workers i x }

def view (f : Fleet) (writes : List Write) : Db := (applyAll f.ledger writes).db

def ScheduleFree (f : Fleet) (i scheduleId : ℕ) : Prop := ∀ k, k ≠ i → scheduleId ∉ scheduleLocks (f.workers k)

def JobFree (f : Fleet) (i jobId : ℕ) : Prop := ∀ k, k ≠ i → jobId ∉ jobLocks (f.workers k)

end Fleet

def jobsAt (db : Db) (scheduleId : ℕ) (fireTime : Time) : List ScheduledJob :=
  db.scheduledJobs.select fun j => j.scheduleId = scheduleId ∧ j.fireTime = fireTime

def pendingSingles (db : Db) : List ScheduledJob := db.scheduledJobs.select fun j =>
    j.status = .pending ∧ j.replicaId.isNone

def pendingClusterJobs (db : Db) : List ScheduledJob := db.scheduledJobs.select fun j =>
    j.status = .pending ∧ j.replicaId.isSome

def JobsGoOn (t t' : Table ScheduledJob) : Prop :=
  List.Forall₂ (fun j j' => j'.id = j.id ∧ j'.replicaId = j.replicaId ∧
    (j'.status = .pending → j.status = .pending)) t.rows t'.rows

/-- What is assumed of the steps of a run, by their kind. -/
structure FleetCondition where
  select : Fleet → ℕ → List AgentSchedule → Prop
  advance : AgentSchedule → Time → Prop
  commit : Db → List Write → Prop
  pick : Fleet → ℕ → List ScheduledJob → Prop
  outside : Fleet → Db → Prop

/-- One step of one worker, between two switch points or locks, or of the world outside. -/
inductive FleetStep (C : FleetCondition) : Fleet → Fleet → Prop
  -- `_poll_and_execute`: the schedules that are due
  | select {f : Fleet} (i : ℕ) (now : Time) (h : f.workers i = .idle)
      (hC : C.select f i (dueSchedules f.ledger.db now)) :
      FleetStep C f (f.set i (.creating { now, todo := dueSchedules f.ledger.db now } .next))
  -- `_create_scheduled_jobs`
  | find {f : Fleet} (i : ℕ) {c : Creation} {s : AgentSchedule} {rest : List AgentSchedule}
      (h : f.workers i = .creating c .next)
      (htodo : c.todo = s :: rest) (hnone : jobsAt (f.view c.writes) s.id c.now = []) :
      FleetStep C f (f.set i (.creating c .found))
  | skip {f : Fleet} (i : ℕ) {c : Creation} {s : AgentSchedule} {rest : List AgentSchedule} {j : ScheduledJob}
      (h : f.workers i = .creating c .next) (htodo : c.todo = s :: rest)
        (hone : jobsAt (f.view c.writes) s.id c.now = [j]) :
      -- the schedule is left as it is, and stays due
      FleetStep C f (f.set i (.creating { c with todo := rest } .next))
  | targets {f : Fleet} (i : ℕ) {c : Creation} {s : AgentSchedule} {rest : List AgentSchedule}
      (h : f.workers i = .creating c .found)
      (htodo : c.todo = s :: rest) :
      FleetStep C f (f.set i (.creating c (.targeted (f.view c.writes))))
  | insert {f : Fleet} (i : ℕ) (now : Time) {c : Creation} {s : AgentSchedule} {rest : List AgentSchedule} {seen : Db}
      (h : f.workers i = .creating c (.targeted seen)) (htodo : c.todo = s :: rest) :
      FleetStep C f (f.set i (.creating
        { c with writes := c.writes ++ (jobTargets seen s).map (.job s c.now now) } (.inserted seen)))
  | advance {f : Fleet} (env : SchedulerEnv) (i : ℕ) {c : Creation} {s : AgentSchedule} {rest : List AgentSchedule}
      {seen : Db} {next : Time} (h : f.workers i = .creating c (.inserted seen)) (htodo : c.todo = s :: rest)
      (hnext : env.computeNextRun s.cronExpression s.timezone = .ok next)
        (hfree : f.ScheduleFree i s.id) (hC : C.advance s next) :
      FleetStep C f (f.set i (.creating
        { c with writes := c.writes ++ [.next s.id next], served := c.served ++
          [⟨s, seen, next⟩], todo := rest } .next))
  | commit {f : Fleet} (i : ℕ) {c : Creation} (h : f.workers i = .creating c .next) (htodo : c.todo = [])
      (hC : C.commit f.ledger.db c.writes) :
      FleetStep C f { f.set i .created with ledger := applyAll f.ledger c.writes, served := f.served ++ c.served }
  -- `_claim_pending_jobs`
  | lock {f : Fleet} (i : ℕ) {singles : List ScheduledJob} (h : f.workers i = .created)
      (hsingles : singles.Sublist (pendingSingles f.ledger.db)) (hlimit : singles.length ≤ maxConcurrentExecutions)
      (hfree : ∀ j ∈ singles, f.JobFree i j.id) :
      FleetStep C f (f.set i (.locked singles))
  | pick {f : Fleet} (i : ℕ) {singles jobs : List ScheduledJob} (h : f.workers i = .locked singles)
      (hjobs : jobs.Sublist (pendingClusterJobs f.ledger.db))
        (hlimit : jobs.length ≤ maxConcurrentExecutions) (hC : C.pick f i jobs) :
      FleetStep C f (f.set i (.claiming { locks := singles.map (·.id), todo := singles ++ jobs } .next))
  | choose {f : Fleet} (i : ℕ) {k : Claiming} {j : ScheduledJob} {rest : List ScheduledJob} {replicaId : ℕ}
      (h : f.workers i = .claiming k .next) (htodo : k.todo = j :: rest)
        (hclaimant : claimant (f.view k.writes) j = some replicaId) :
      FleetStep C f (f.set i (.claiming k (.chosen replicaId)))
  | pass {f : Fleet} (i : ℕ) {k : Claiming} {j : ScheduledJob} {rest : List ScheduledJob}
      (h : f.workers i = .claiming k .next)
      (htodo : k.todo = j :: rest) (hclaimant : claimant (f.view k.writes) j = none) :
      FleetStep C f (f.set i (.claiming { k with todo := rest } .next))
  | mark {f : Fleet} (i : ℕ) (now : Time) {k : Claiming} {j : ScheduledJob} {rest : List ScheduledJob} {replicaId : ℕ}
      (h : f.workers i = .claiming k (.chosen replicaId)) (htodo : k.todo = j :: rest) (hfree : f.JobFree i j.id) :
      FleetStep C f (f.set i (.claiming
        { k with writes := k.writes ++ [.claim j.id replicaId now], locks := k.locks ++ [j.id] } .marked))
  | look {f : Fleet} (i : ℕ) {k : Claiming} {j : ScheduledJob} {rest : List ScheduledJob}
      (h : f.workers i = .claiming k .marked)
      (htodo : k.todo = j :: rest) :
      FleetStep C f (f.set i (.claiming { k with todo := rest, work := k.work ++
        (claimedWork (f.view k.writes) j).toList } .next))
  | commitClaims {f : Fleet} (i : ℕ) {k : Claiming} (h : f.workers i = .claiming k .next) (htodo : k.todo = []) :
      FleetStep C f { f.set i (.working k.work) with ledger := applyAll f.ledger k.writes }
  -- `_execute_claimed_job`
  | start {f : Fleet} (i : ℕ) {before after : List ClaimedJob} {c : ClaimedJob}
      (h : f.workers i = .working (before ++ c :: after)) :
      FleetStep C f
        { f.set i (.working (before ++ after)) with
          ledger := { f.ledger with db := { f.ledger.db with
            scheduledJobs := f.ledger.db.scheduledJobs.update c.job.id fun j => { j with status := .running } } }
          started := f.started ++ [(i, c.job)] }
  | rest {f : Fleet} (i : ℕ) (h : f.workers i = .working []) : FleetStep C f (f.set i .idle)
  -- an error, or the end of a process
  | abort {f : Fleet} (i : ℕ) : FleetStep C f (f.set i .idle)
  -- executions, and the rest of the system
  | outside {f : Fleet} (db : Db) (hjobs : JobsGoOn f.ledger.db.scheduledJobs db.scheduledJobs)
      (hC : C.outside f db) :
      FleetStep C f { f with ledger := { f.ledger with db } }

end McpworksApi.Agents
