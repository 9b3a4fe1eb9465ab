import McpworksApi.Agents.Workers
import McpworksApi.Store.Keys

/-! Jobs and occurrences. When no occurrence is found due while another poll has it in hand, and the times of schedules
only move forward, then every occurrence that was served has exactly the jobs that it should have (`CreationInv`). -/

namespace McpworksApi.Agents

open Models

def Before : Option Time → Option Time → Prop
  | none, some _ => True
  | some a, some b => a < b
  | _, none => False

def NotAfter (a b : Option Time) : Prop := a = b ∨ Before a b

theorem Before.irrefl {a : Option Time} : ¬ Before a a := by
  cases a with
  | none => exact id
  | some a => exact lt_irrefl a

theorem Before.trans_notAfter {a b c : Option Time} (h : Before a b) (h' : NotAfter b c) : Before a c := by
  rcases h' with rfl | h'
  · exact h
  · cases a <;> cases b <;> cases c <;> first | exact h.elim | exact h'.elim | exact trivial | exact lt_trans h h'

def rowsOf (l : Ledger) (o : Occurrence) : List (Option ℕ) :=
  (l.db.scheduledJobs.rows.filter fun j => l.origin j.id = some o).map (·.replicaId)

def jobsFor (served : List Served) (o : Occurrence) : List (Option ℕ) :=
  served.flatMap fun v => if occurrenceOf v.schedule = o then v.targets else []

theorem jobsFor_append (vs vs' : List Served) (o : Occurrence) :
    jobsFor (vs ++ vs') o = jobsFor vs o ++ jobsFor vs' o :=
  List.flatMap_append

theorem jobsFor_eq_nil {vs : List Served} {o : Occurrence}
    (h : o ∉ vs.map fun v => occurrenceOf v.schedule) : jobsFor vs o = [] := by
  apply List.flatMap_eq_nil_iff.mpr
  intro v hv
  apply if_neg
  rintro rfl
  exact h (List.mem_map_of_mem hv)

theorem jobsFor_of_mem {vs : List Served} (hn : (vs.map fun v => occurrenceOf v.schedule).Nodup)
    {v : Served} (hv : v ∈ vs) :
    jobsFor vs (occurrenceOf v.schedule) = v.targets := by
  induction vs with
  | nil => cases hv
  | cons u vs ih =>
    rw [List.map_cons, List.nodup_cons] at hn
    change (if occurrenceOf u.schedule = _ then u.targets else []) ++ jobsFor vs _ = _
    rcases List.mem_cons.mp hv with rfl | hv
    · rw [if_pos rfl, jobsFor_eq_nil hn.1, List.append_nil]
    · have hne : occurrenceOf u.schedule ≠ occurrenceOf v.schedule := by
        intro h
        exact hn.1 (h ▸ List.mem_map_of_mem hv)
      rw [if_neg hne, List.nil_append, ih hn.2 hv]

def Write.jobFor (o : Occurrence) : Write → Option (Option ℕ)
  | .job schedule _ _ replicaId => if occurrenceOf schedule = o then some replicaId else none
  | _ => none

def Write.nextOf : Write → Option (ℕ × Time)
  | .next scheduleId time => some (scheduleId, time)
  | _ => none

def Write.IsClaim : Write → Prop
  | .claim _ _ _ => True
  | _ => False

variable {c : Creation} {s : AgentSchedule} {rest : List AgentSchedule} {point : CreationPoint} {l : Ledger}
  {db : Db}

theorem rowsOf_goOn (h : JobsGoOn l.db.scheduledJobs db.scheduledJobs) (o : Occurrence) :
    rowsOf { l with db } o = rowsOf l o := by
  unfold rowsOf
  unfold JobsGoOn at h
  generalize l.db.scheduledJobs.rows = rows at h
  change ((db.scheduledJobs.rows.filter _).map _) = _
  generalize db.scheduledJobs.rows = rows' at h
  induction h with
  | nil => rfl
  | cons hj _ ih =>
    obtain ⟨hid, hr, -⟩ := hj
    rw [List.filter_cons, List.filter_cons, hid]
    split
    · rw [List.map_cons, List.map_cons, hr, ih]
    · exact ih

theorem jobsGoOn_update (t : Table ScheduledJob) (i : ℕ) {f : ScheduledJob → ScheduledJob} (hf : ∀ j, (f j).id = j.id)
    (hr : ∀ j, (f j).replicaId = j.replicaId) (hs : ∀ j, (f j).status ≠ .pending) : JobsGoOn t (t.update i f hf) := by
  unfold JobsGoOn
  change List.Forall₂ _ t.rows (t.rows.map _)
  apply List.forall₂_map_right_iff.mpr
  apply List.forall₂_same.mpr
  intro j _
  split
  · exact ⟨hf j, hr j, fun h => absurd h (hs j)⟩
  · exact ⟨rfl, rfl, id⟩

theorem jobsGoOn_running (t : Table ScheduledJob) (i : ℕ) :
    JobsGoOn t (t.update i fun j => { j with status := .running }) := by
  apply jobsGoOn_update <;> simp

theorem jobsGoOn_claim (l : Ledger) (ji rid : ℕ) (now : Time) :
    JobsGoOn l.db.scheduledJobs (Write.apply l (.claim ji rid now)).db.scheduledJobs := by
  apply jobsGoOn_update <;> simp

theorem rowsOf_apply (l : Ledger) (w : Write) (o : Occurrence) :
    rowsOf (w.apply l) o = rowsOf l o ++ (w.jobFor o).toList := by
  cases w with
  | job sch ft now rid =>
    have hol : (l.db.scheduledJobs.rows.filter fun j =>
          Function.update l.origin l.db.scheduledJobs.freshId (some (occurrenceOf sch)) j.id = some o) =
        l.db.scheduledJobs.rows.filter fun j => l.origin j.id = some o := by
      apply List.filter_congr
      intro j hj
      have hne : j.id ≠ l.db.scheduledJobs.freshId := Table.freshId_ne hj
      rw [Function.update_of_ne hne]
    unfold rowsOf
    change (List.filter _ (l.db.scheduledJobs.rows ++ [_])).map _ = _
    rw [List.filter_append, List.map_append]
    congr 1
    · exact congrArg _ hol
    · by_cases ho : occurrenceOf sch = o <;> simp [Write.apply, Write.jobFor, ho]
  | next scheduleId time => exact (List.append_nil _).symm
  | claim ji rid now =>
    change _ = rowsOf l o ++ []
    rw [List.append_nil]
    exact rowsOf_goOn (jobsGoOn_claim l ji rid now) o

theorem rowsOf_applyAll (l : Ledger) (ws : List Write) (o : Occurrence) :
    rowsOf (applyAll l ws) o = rowsOf l o ++ ws.filterMap (Write.jobFor o) := by
  induction ws generalizing l with
  | nil => exact (List.append_nil _).symm
  | cons w ws ih =>
    change rowsOf (applyAll (w.apply l) ws) o = _
    rw [ih, rowsOf_apply, List.append_assoc, List.filterMap_cons]
    cases w.jobFor o <;> rfl

theorem nextRunAt_applyAll {ws : List Write} {s' : AgentSchedule} (hs' : s' ∈ (applyAll l ws).db.schedules.rows) :
    ∃ s ∈ l.db.schedules.rows, s.id = s'.id ∧
      ((s'.nextRunAt = s.nextRunAt ∧ ∀ t, (s'.id, t) ∉ ws.filterMap Write.nextOf) ∨
        ∃ t, (s'.id, t) ∈ ws.filterMap Write.nextOf ∧ s'.nextRunAt = some t) := by
  induction ws generalizing l with
  | nil => exact ⟨s', hs', rfl, .inl ⟨rfl, fun _ => List.not_mem_nil⟩⟩
  | cons w ws ih =>
    obtain ⟨s₁, hs₁, hi₁, hc⟩ := ih hs'
    cases w with
    | job sch ft now rid => exact ⟨s₁, hs₁, hi₁, hc⟩
    | claim ji rid now => exact ⟨s₁, hs₁, hi₁, hc⟩
    | next scheduleId time =>
      rcases Table.mem_update (f := fun s : AgentSchedule => { s with nextRunAt := some time })
        (fun _ => rfl) hs₁ with ⟨ho, hne⟩ | ⟨s, hs, hid, rfl⟩
      · refine ⟨s₁, ho, hi₁, ?_⟩
        rcases hc with ⟨hsa, hno⟩ | ⟨t, ht, hn⟩
        · refine .inl ⟨hsa, fun t ht => ?_⟩
          rcases List.mem_cons.mp ht with heq | ht
          · exact hne (hi₁.trans (congrArg Prod.fst heq))
          · exact hno t ht
        · exact .inr ⟨t, List.mem_cons_of_mem _ ht, hn⟩
      · refine ⟨s, hs, hi₁, .inr ?_⟩
        rcases hc with ⟨hsa, -⟩ | ⟨t, ht, hn⟩
        · refine ⟨time, List.mem_cons.mpr (.inl ?_), hsa⟩
          exact congrArg (·, time) (hi₁.symm.trans hid)
        · exact ⟨t, List.mem_cons_of_mem _ ht, hn⟩

def hand : Worker → List Occurrence
  | .creating c _ => (c.served.map (·.schedule) ++ c.todo).map occurrenceOf
  | _ => []

def insertedJobs : List AgentSchedule → CreationPoint → Occurrence → List (Option ℕ)
  | s :: _, .inserted seen, o => if occurrenceOf s = o then jobTargets seen s else []
  | _, _, _ => []

structure CreationFine (c : Creation) (point : CreationPoint) : Prop where
  ids : ((c.served.map (·.schedule) ++ c.todo).map (·.id)).Nodup
  jobs : ∀ o, c.writes.filterMap (Write.jobFor o) = jobsFor c.served o ++ insertedJobs c.todo point o
  nexts : c.writes.filterMap Write.nextOf = c.served.map fun v => (v.schedule.id, v.next)
  ahead : ∀ v ∈ c.served, Before v.schedule.nextRunAt (some v.next)

theorem CreationFine.hand_nodup (h : CreationFine c point) : (hand (.creating c point)).Nodup := by
  apply List.Nodup.of_map Occurrence.scheduleId
  unfold hand
  rw [List.map_map]
  exact h.ids

theorem filterMap_jobFor_jobs (s : AgentSchedule) (ft now : Time) (tar : List (Option ℕ)) (o : Occurrence) :
    (tar.map (Write.job s ft now)).filterMap (Write.jobFor o) = if occurrenceOf s = o then tar else [] := by
  rw [List.filterMap_map]
  by_cases ho : occurrenceOf s = o
  · rw [if_pos ho]
    exact (List.filterMap_congr fun r _ => if_pos ho).trans List.filterMap_some
  · rw [if_neg ho]
    exact List.filterMap_eq_nil_iff.mpr fun r _ => if_neg ho

theorem CreationFine.insert {seen : Db} {now : Time}
    (h : CreationFine c (.targeted seen)) (ht : c.todo = s :: rest) :
    CreationFine { c with writes := c.writes ++ (jobTargets seen s).map (.job s c.now now) } (.inserted seen) where
  ids := h.ids
  jobs o := by
    have hj := h.jobs o
    rw [ht] at hj ⊢
    rw [List.filterMap_append, hj, filterMap_jobFor_jobs]
    exact congrArg (· ++ _) (List.append_nil _)
  nexts := by
    have hn : ((jobTargets seen s).map (Write.job s c.now now)).filterMap Write.nextOf = [] := by
      rw [List.filterMap_map]
      exact List.filterMap_eq_nil_iff.mpr fun _ _ => rfl
    rw [List.filterMap_append, hn, List.append_nil]
    exact h.nexts
  ahead := h.ahead

theorem CreationFine.advance {seen : Db} {next : Time}
    (h : CreationFine c (.inserted seen)) (ht : c.todo = s :: rest) (hn : Before s.nextRunAt (some next)) :
    CreationFine
      { c with writes := c.writes ++ [.next s.id next], served := c.served ++ [⟨s, seen, next⟩], todo := rest } .next where
  ids := by
    have hid := h.ids
    rw [ht] at hid
    simpa using hid
  jobs o := by
    have hj := h.jobs o
    rw [ht] at hj
    rw [List.filterMap_append, hj, jobsFor_append]
    simp [insertedJobs, jobsFor, Write.jobFor, Served.targets]
  nexts := by
    rw [List.filterMap_append, h.nexts, List.map_append]
    rfl
  ahead v hv := by
    rcases List.mem_append.mp hv with hv | hv
    · exact h.ahead v hv
    · obtain rfl := List.mem_singleton.mp hv
      exact hn

theorem CreationFine.skip (h : CreationFine c .next)
    (ht : c.todo = s :: rest) : CreationFine { c with todo := rest } .next where
  ids := by
    have hid := h.ids
    rw [ht] at hid
    exact hid.sublist (((List.sublist_cons_self s rest).append_left _).map _)
  jobs o := by
    have hj := h.jobs o
    rw [ht] at hj
    rw [hj]
    cases rest <;> rfl
  nexts := h.nexts
  ahead := h.ahead

structure WorkerFine (x : Worker) : Prop where
  creation : ∀ c point, x = .creating c point → CreationFine c point
  claims : ∀ k point, x = .claiming k point → ∀ w ∈ k.writes, w.IsClaim

structure CreationInv (f : Fleet) : Prop where
  rows : ∀ o, rowsOf f.ledger o = jobsFor f.served o
  nodup : (f.served.map fun v => occurrenceOf v.schedule).Nodup
  past : ∀ v ∈ f.served, ∀ s ∈ f.ledger.db.schedules.rows, s.id = v.schedule.id →
    Before v.schedule.nextRunAt s.nextRunAt
  fine : ∀ i, WorkerFine (f.workers i)
  apart : ∀ i k, i ≠ k → List.Disjoint (hand (f.workers i)) (hand (f.workers k))
  fresh : ∀ i, ∀ o ∈ hand (f.workers i), o ∉ f.served.map fun v => occurrenceOf v.schedule

variable {f : Fleet} {i : ℕ} {x : Worker}

theorem set_workers_self : (f.set i x).workers i = x := Function.update_self _ _ _

theorem set_workers_of_ne {k : ℕ} (h : k ≠ i) : (f.set i x).workers k = f.workers k := Function.update_of_ne h _ _

theorem forall_set {P : ℕ → Worker → Prop} (hs : P i x) (ho : ∀ k, k ≠ i → P k (f.workers k)) :
    ∀ k, P k ((f.set i x).workers k) := by
  intro k
  by_cases hk : k = i
  · subst hk
    rw [set_workers_self]
    exact hs
  · rw [set_workers_of_ne hk]
    exact ho k hk

theorem disjoint_set {α : Type} {g : Worker → List α} (hn : ∀ k, k ≠ i → List.Disjoint (g x) (g (f.workers k)))
    (ho : ∀ j k, j ≠ k → List.Disjoint (g (f.workers j)) (g (f.workers k))) :
    ∀ j k, j ≠ k → List.Disjoint (g ((f.set i x).workers j)) (g ((f.set i x).workers k)) := by
  apply forall_set (P := fun j y => ∀ k, j ≠ k → List.Disjoint (g y) (g ((f.set i x).workers k)))
  · intro k hk
    rw [set_workers_of_ne (Ne.symm hk)]
    exact hn k (Ne.symm hk)
  · intro j hj
    apply forall_set (P := fun k y => j ≠ k → List.Disjoint (g (f.workers j)) (g y))
    · exact fun _ => (hn j hj).symm
    · exact fun k _ => ho j k

theorem CreationInv.set (h : CreationInv f) (hx : WorkerFine x) (hh : hand x ⊆ hand (f.workers i)) :
    CreationInv (f.set i x) where
  rows := h.rows
  nodup := h.nodup
  past := h.past
  fine := forall_set (P := fun _ => WorkerFine) hx fun k _ => h.fine k
  apart := disjoint_set (fun k hk _ ho => h.apart i k (Ne.symm hk) (hh ho)) h.apart
  fresh := forall_set (P := fun _ y => ∀ o ∈ hand y, o ∉ f.served.map fun v => occurrenceOf v.schedule)
    (fun o ho => h.fresh i o (hh ho)) fun k _ => h.fresh k

theorem CreationInv.ledger (h : CreationInv f) (hr : ∀ o, rowsOf l o = rowsOf f.ledger o)
    (hp : ∀ v ∈ f.served, ∀ s ∈ l.db.schedules.rows, s.id = v.schedule.id → Before v.schedule.nextRunAt s.nextRunAt)
    (started : List (ℕ × ScheduledJob)) : CreationInv { f with ledger := l, started } where
  rows o := (hr o).trans (h.rows o)
  nodup := h.nodup
  past := hp
  fine := h.fine
  apart := h.apart
  fresh := h.fresh

theorem workerFine_of_ne (hc : ∀ c point, x ≠ .creating c point)
    (hcl : ∀ k point, x ≠ .claiming k point) : WorkerFine x :=
  ⟨fun c point h => absurd h (hc c point), fun k point h => absurd h (hcl k point)⟩

theorem dueSchedules_nodup (db : Db) (now : Time) : ((dueSchedules db now).map (·.id)).Nodup :=
  db.schedules.nodup.sublist ((List.filter_sublist.trans List.filter_sublist).map _)

theorem mem_of_mem_dueSchedules {now : Time} (h : s ∈ dueSchedules db now) : s ∈ db.schedules.rows :=
  List.mem_of_mem_filter (List.mem_of_mem_filter h)

theorem CreationInv.select (h : CreationInv f) (now : Time)
    (ha : ∀ k, k ≠ i → List.Disjoint ((dueSchedules f.ledger.db now).map occurrenceOf) (hand (f.workers k))) :
    CreationInv (f.set i (.creating { now, todo := dueSchedules f.ledger.db now } .next)) where
  rows := h.rows
  nodup := h.nodup
  past := h.past
  fine := by
    apply forall_set (P := fun _ => WorkerFine)
    · refine ⟨?_, nofun⟩
      rintro c point ⟨rfl, rfl⟩
      refine ⟨dueSchedules_nodup _ _, ?_, rfl, fun _ hv => absurd hv List.not_mem_nil⟩
      intro o
      cases dueSchedules f.ledger.db now <;> rfl
    · exact fun k _ => h.fine k
  apart := disjoint_set ha h.apart
  fresh := by
    apply forall_set (P := fun _ y => ∀ o ∈ hand y, o ∉ f.served.map fun v => occurrenceOf v.schedule)
    · -- an occurrence that was served lies before the time of its schedule
      intro o ho hse
      obtain ⟨s, hs, rfl⟩ := List.mem_map.mp ho
      obtain ⟨v, hv, hvs⟩ := List.mem_map.mp hse
      have hid : s.id = v.schedule.id := (congrArg Occurrence.scheduleId hvs).symm
      have ht : v.schedule.nextRunAt = s.nextRunAt := congrArg Occurrence.due hvs
      have hp := h.past v hv s (mem_of_mem_dueSchedules hs) hid
      rw [ht] at hp
      exact Before.irrefl hp
    · exact fun k _ => h.fresh k

def MovesForward (db : Db) (writes : List Write) : Prop :=
  ∀ s ∈ db.schedules.rows, ∀ t, (s.id, t) ∈ writes.filterMap Write.nextOf → NotAfter s.nextRunAt (some t)

theorem CreationFine.past (h : CreationFine c point) {v : Served} (hv : v ∈ c.served)
    (hs : s ∈ (applyAll l c.writes).db.schedules.rows) (hid : s.id = v.schedule.id) :
    Before v.schedule.nextRunAt s.nextRunAt := by
  have hw : (s.id, v.next) ∈ c.writes.filterMap Write.nextOf := by
    rw [h.nexts, hid]
    exact List.mem_map_of_mem hv
  obtain ⟨_, -, -, hc⟩ := nextRunAt_applyAll hs
  rcases hc with ⟨-, hn⟩ | ⟨t, ht, hti⟩
  · exact absurd hw (hn v.next)
  · rw [h.nexts] at ht
    obtain ⟨u, hu, hut⟩ := List.mem_map.mp ht
    obtain ⟨hui, rfl⟩ := Prod.mk.inj hut
    -- the keys are distinct, so the write is that of this schedule
    have his : (c.served.map fun v => v.schedule.id).Nodup := by
      have his := h.ids
      rw [List.map_append, List.map_map] at his
      exact (List.nodup_append.mp his).1
    obtain rfl : u = v := List.inj_on_of_nodup_map his hu hv (hui.trans hid)
    rw [hti]
    exact h.ahead u hu

theorem CreationInv.commit (h : CreationInv f) (hw : f.workers i = .creating c .next) (hto : c.todo = [])
    (hfo : MovesForward f.ledger.db c.writes) :
    CreationInv { f.set i .created with ledger := applyAll f.ledger c.writes, served := f.served ++ c.served } := by
  have hf := (h.fine i).creation c .next hw
  have hst : CreationInv (f.set i .created) := h.set (workerFine_of_ne nofun nofun) (List.nil_subset _)
  have hh : c.served.map (fun v => occurrenceOf v.schedule) = hand (f.workers i) := by
    rw [hw, hand, hto, List.append_nil, List.map_map]
    rfl
  have hm {o : Occurrence} (ho : o ∈ c.served.map fun v => occurrenceOf v.schedule) :
    o ∈ hand (f.workers i) := hh ▸ ho
  refine ⟨?_, ?_, ?_, hst.fine, hst.apart, ?_⟩
  · intro o
    have hj := hf.jobs o
    rw [hto] at hj
    rw [rowsOf_applyAll, h.rows, hj, jobsFor_append]
    exact congrArg _ (List.append_nil _)
  · rw [List.map_append, List.nodup_append]
    refine ⟨h.nodup, ?_, ?_⟩
    · rw [hh, hw]
      exact hf.hand_nodup
    · rintro o ho _ ho' rfl
      exact h.fresh i o (hm ho') ho
  · intro v hv s hs hid
    rcases List.mem_append.mp hv with hv | hv
    · obtain ⟨s₀, hs₀, hi₀, hc⟩ := nextRunAt_applyAll hs
      have hb := h.past v hv s₀ hs₀ (hi₀.trans hid)
      rcases hc with ⟨hsa, -⟩ | ⟨t, ht, hti⟩
      · rw [hsa]
        exact hb
      · rw [hti]
        exact hb.trans_notAfter (hfo s₀ hs₀ t (hi₀ ▸ ht))
    · exact hf.past hv hs hid
  · intro k o ho hse
    rw [List.map_append] at hse
    rcases List.mem_append.mp hse with hse | hse
    · exact hst.fresh k o ho hse
    · by_cases hk : k = i
      · subst hk
        change o ∈ hand ((f.set k .created).workers k) at ho
        rw [set_workers_self] at ho
        cases ho
      · change o ∈ hand ((f.set i .created).workers k) at ho
        rw [set_workers_of_ne hk] at ho
        exact h.apart k i hk ho (hm hse)

theorem applyAll_claims {ws : List Write} (h : ∀ w ∈ ws, w.IsClaim) (l : Ledger) :
    (∀ o, rowsOf (applyAll l ws) o = rowsOf l o) ∧ (applyAll l ws).db.schedules = l.db.schedules := by
  induction ws generalizing l with
  | nil => exact ⟨fun _ => rfl, rfl⟩
  | cons w ws ih =>
    obtain ⟨hr, hs⟩ := ih (fun v hv => h v (List.mem_cons_of_mem _ hv)) (w.apply l)
    have hw : w.IsClaim := h w List.mem_cons_self
    cases w with
    | claim ji rid now =>
      refine ⟨fun o => ?_, hs⟩
      rw [show applyAll l (_ :: ws) = applyAll (Write.apply l _) ws from rfl, hr, rowsOf_apply]
      exact List.append_nil _
    | job sch ft now rid => exact hw.elim
    | next scheduleId time => exact hw.elim

def clusterIds (jobs : List ScheduledJob) : List ℕ := (jobs.filter (·.replicaId.isSome)).map (·.id)

def openJobs : Worker → List ℕ
  | .claiming k _ => clusterIds (k.work.map (·.job) ++ k.todo)
  | _ => []

def orderly : FleetCondition where
  select f i due := ∀ k, k ≠ i → List.Disjoint (due.map occurrenceOf) (hand (f.workers k))
  advance s next := Before s.nextRunAt (some next)
  commit := MovesForward
  pick f i jobs := ∀ k, k ≠ i → List.Disjoint (clusterIds jobs) (openJobs (f.workers k))
  outside f db := ∀ s' ∈ db.schedules.rows,
    (∃ s ∈ f.ledger.db.schedules.rows, s.id = s'.id ∧ NotAfter s.nextRunAt s'.nextRunAt) ∨
      ∀ v ∈ f.served, v.schedule.id ≠ s'.id

theorem creationInv_start (db : Db) : CreationInv { ledger := { db } } where
  rows o := by
    have hn : db.scheduledJobs.rows.filter (fun _ => (none : Option Occurrence) = some o) = [] :=
      List.filter_eq_nil_iff.mpr fun _ _ => by simp
    exact congrArg (List.map (·.replicaId)) hn
  nodup := List.nodup_nil
  past _ hv := absurd hv List.not_mem_nil
  fine _ := workerFine_of_ne nofun nofun
  apart _ _ _ := List.disjoint_nil_left _
  fresh _ _ _ := List.not_mem_nil

theorem CreationInv.go (h : CreationInv f) {c' : Creation} {pt' : CreationPoint}
    (hw : f.workers i = .creating c point)
    (hf : CreationFine c point → CreationFine c' pt')
    (hh : (c'.served.map (·.schedule) ++ c'.todo).Sublist (c.served.map (·.schedule) ++ c.todo)) :
    CreationInv (f.set i (.creating c' pt')) := by
  apply h.set
  · refine ⟨?_, nofun⟩
    rintro _ _ ⟨rfl, rfl⟩
    exact hf ((h.fine i).creation c point hw)
  · rw [hw]
    exact (hh.map occurrenceOf).subset

theorem CreationInv.goClaiming (h : CreationInv f) {k : Claiming} {point : ClaimPoint}
    (hc : ∀ w ∈ k.writes, w.IsClaim) :
    CreationInv (f.set i (.claiming k point)) := by
  apply h.set
  · refine ⟨nofun, ?_⟩
    rintro _ _ ⟨rfl, rfl⟩
    exact hc
  · exact List.nil_subset _

theorem CreationInv.leave (h : CreationInv f) (hc : ∀ c point, x ≠ .creating c point)
    (hcl : ∀ k point, x ≠ .claiming k point) :
    CreationInv (f.set i x) := by
  apply h.set (workerFine_of_ne hc hcl)
  cases x with
  | creating c point => exact absurd rfl (hc c point)
  | _ => exact List.nil_subset _

theorem CreationInv.step {f' : Fleet} (h : CreationInv f) (hst : FleetStep orderly f f') : CreationInv f' := by
  cases hst with
  | select i now _ hC => exact h.select now hC
  | find i hwo ht _ | targets i hwo ht =>
    apply h.go hwo _ (List.Sublist.refl _)
    intro hc
    refine { hc with jobs := fun o => (hc.jobs o).trans ?_ }
    rw [ht]
    rfl
  | skip i hwo ht _ =>
    apply h.go hwo (fun hc => hc.skip ht)
    rw [ht]
    exact (List.sublist_cons_self _ _).append_left _
  | insert i now hwo ht => exact h.go hwo (fun hc => hc.insert ht) (List.Sublist.refl _)
  | advance env i hwo ht hne hf hC =>
    apply h.go hwo (fun hc => hc.advance ht hC)
    rw [ht]
    simp
  | commit i hwo ht hC => exact h.commit hwo ht hC
  | lock i _ _ _ _ | rest i _ | abort i => exact h.leave nofun nofun
  | pick i _ _ _ _ => exact h.goClaiming nofun
  | choose i hwo _ _ | pass i hwo _ _ | look i hwo _ =>
    have hcl := (h.fine i).claims _ _ hwo
    exact h.goClaiming hcl
  | mark i now hwo _ _ =>
    apply h.goClaiming
    intro w hw
    rcases List.mem_append.mp hw with hw | hw
    · exact (h.fine i).claims _ _ hwo w hw
    · rw [List.mem_singleton.mp hw]
      trivial
  | commitClaims i hwo _ =>
    obtain ⟨hr, hsc⟩ := applyAll_claims ((h.fine i).claims _ _ hwo) f.ledger
    apply (h.leave (x := .working _) nofun nofun).ledger hr
    rw [hsc]
    exact h.past
  | start i _ =>
    apply (h.leave (x := .working _) nofun nofun).ledger
    · exact rowsOf_goOn (jobsGoOn_running _ _)
    · exact h.past
  | outside db hj hC =>
    apply h.ledger (rowsOf_goOn hj)
    intro v hv s' hs' hid
    rcases hC s' hs' with ⟨s, hs, hss, hti⟩ | hn
    · exact (h.past v hv s hs (hss.trans hid)).trans_notAfter hti
    · exact absurd hid.symm (hn v hv)

end McpworksApi.Agents
