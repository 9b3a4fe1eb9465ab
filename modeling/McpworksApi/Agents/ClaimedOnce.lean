import McpworksApi.Agents.Occurrences
import McpworksApi.Agents.Polls

/-! The jobs of replicas are claimed once. A job that a worker has claimed and committed is no longer pending, so no
other worker picks it; while the transaction that claims it is open, this is asked of the run. -/

namespace McpworksApi.Agents

open Models Run

def JobsKept (db db' : Db) : Prop :=
  ∀ j ∈ db.scheduledJobs.rows, ∃ j' ∈ db'.scheduledJobs.rows, j'.id = j.id ∧
    (j'.status = .pending → j.status = .pending)

theorem JobsKept.refl (db : Db) : JobsKept db db := fun j hj => ⟨j, hj, rfl, id⟩

variable {jobs : List ScheduledJob} {db db' : Db} {jobId : ℕ} {k : Claiming} {l : Ledger}

theorem JobsKept.trans {db₁ db₂ : Db} (h : JobsKept db db₁) (h' : JobsKept db₁ db₂) : JobsKept db db₂ := by
  intro j hj
  obtain ⟨j₁, hj₁, hi₁, hs₁⟩ := h j hj
  obtain ⟨j₂, hj₂, hi₂, hs₂⟩ := h' j₁ hj₁
  exact ⟨j₂, hj₂, hi₂.trans hi₁, hs₁ ∘ hs₂⟩

theorem JobsGoOn.kept (h : JobsGoOn db.scheduledJobs db'.scheduledJobs) : JobsKept db db' := by
  intro j hj
  obtain ⟨n, hn, rfl⟩ := List.getElem_of_mem hj
  have hl : n < db'.scheduledJobs.rows.length := h.length_eq ▸ hn
  obtain ⟨hid, -, hs⟩ := h.get hn hl
  exact ⟨_, List.getElem_mem hl, hid, hs⟩

theorem jobsKept_apply (l : Ledger) (w : Write) : JobsKept l.db (w.apply l).db := by
  cases w with
  | job sch ft now rid => exact fun j hj => ⟨j, List.mem_append_left _ hj, rfl, id⟩
  | next scheduleId time => exact JobsKept.refl l.db
  | claim jobId rid now => exact (jobsGoOn_claim l jobId rid now).kept

theorem jobsKept_applyAll (l : Ledger) (ws : List Write) : JobsKept l.db (applyAll l ws).db := by
  induction ws generalizing l with
  | nil => exact JobsKept.refl l.db
  | cons w ws ih => exact (jobsKept_apply l w).trans (ih (w.apply l))

def Present (db : Db) (jobId : ℕ) : Prop := ∃ j ∈ db.scheduledJobs.rows, j.id = jobId

def Settled (db : Db) (jobId : ℕ) : Prop := ∃ j ∈ db.scheduledJobs.rows, j.id = jobId ∧ j.status ≠ .pending

theorem JobsKept.present (h : JobsKept db db') (hp : Present db jobId) : Present db' jobId := by
  obtain ⟨j, hj, rfl⟩ := hp
  obtain ⟨j', hj', hid, -⟩ := h j hj
  exact ⟨j', hj', hid⟩

theorem JobsKept.settled (h : JobsKept db db') (hs : Settled db jobId) : Settled db' jobId := by
  obtain ⟨j, hj, rfl, hst⟩ := hs
  obtain ⟨j', hj', hid, hp⟩ := h j hj
  exact ⟨j', hj', hid, fun h => hst (hp h)⟩

theorem not_settled_of_pending {j : ScheduledJob} (hj : j ∈ db.scheduledJobs.rows) (hp : j.status = .pending) :
    ¬ Settled db j.id := by
  rintro ⟨j', hj', hid, hs⟩
  obtain rfl := Table.eq_of_id_eq hj' hj hid
  exact hs hp

def ClaimsJob (writes : List Write) (jobId : ℕ) : Prop := ∃ replicaId now, Write.claim jobId replicaId now ∈ writes

theorem settled_applyAll {ws : List Write} (hc : ClaimsJob ws jobId)
    (hp : Present l.db jobId) : Settled (applyAll l ws).db jobId := by
  obtain ⟨rid, now, hc⟩ := hc
  induction ws generalizing l with
  | nil => cases hc
  | cons w ws ih =>
    rcases List.mem_cons.mp hc with rfl | hc
    · apply (jobsKept_applyAll (Write.apply l _) ws).settled
      obtain ⟨j, hj, rfl⟩ := hp
      refine ⟨{ j with status := .claimed, claimedBy := some rid, claimedAt := some now }, ?_, rfl, nofun⟩
      exact List.mem_map.mpr ⟨j, hj, if_pos (by simp [Row.id])⟩
    · exact ih ((jobsKept_apply l w).present hp) hc

def jobHand : Worker → List ℕ
  | .claiming k _ => clusterIds (k.work.map (·.job) ++ k.todo)
  | .working work => clusterIds (work.map (·.job))
  | _ => []

def startedJobs (f : Fleet) : List ℕ := clusterIds (f.started.map (·.2))

theorem clusterIds_append (jobs jobs' : List ScheduledJob) :
    clusterIds (jobs ++ jobs') = clusterIds jobs ++ clusterIds jobs' := by
  rw [clusterIds, List.filter_append, List.map_append]
  rfl

theorem clusterIds_sublist {jobs' : List ScheduledJob} (h : jobs.Sublist jobs') :
    (clusterIds jobs).Sublist (clusterIds jobs') :=
  (h.filter _).map _

theorem mem_clusterIds (h : jobId ∈ clusterIds jobs) : ∃ j ∈ jobs, j.id = jobId := by
  obtain ⟨j, hj, rfl⟩ := List.mem_map.mp h
  exact ⟨j, List.mem_of_mem_filter hj, rfl⟩

structure ClaimFine (db : Db) (x : Worker) : Prop where
  nodup : (jobHand x).Nodup
  present : ∀ jobId ∈ jobHand x, Present db jobId
  singles : ∀ jobs, x = .locked jobs → ∀ j ∈ jobs, j.replicaId = none
  claimed : ∀ k point, x = .claiming k point → ∀ c ∈ k.work, ClaimsJob k.writes c.job.id
  marked : ∀ k, x = .claiming k .marked → ∀ j rest, k.todo = j :: rest → ClaimsJob k.writes j.id
  working : ∀ work, x = .working work → ∀ jobId ∈ jobHand x, Settled db jobId

structure ClaimInv (f : Fleet) : Prop where
  nodup : (startedJobs f).Nodup
  settled : ∀ jobId ∈ startedJobs f, Settled f.ledger.db jobId
  fine : ∀ i, ClaimFine f.ledger.db (f.workers i)
  apart : ∀ i k, i ≠ k → List.Disjoint (jobHand (f.workers i)) (jobHand (f.workers k))
  unstarted : ∀ i, List.Disjoint (jobHand (f.workers i)) (startedJobs f)

theorem ClaimFine.kept {x : Worker} (h : ClaimFine db x) (hk : JobsKept db db') : ClaimFine db' x where
  nodup := h.nodup
  present jobId hjob := hk.present (h.present jobId hjob)
  singles := h.singles
  claimed := h.claimed
  marked := h.marked
  working work hw jobId hjob := hk.settled (h.working work hw jobId hjob)

variable {f : Fleet} {i : ℕ} {x : Worker}

theorem ClaimInv.set (h : ClaimInv f) {served : List Served} (hke : JobsKept f.ledger.db l.db) (hx : ClaimFine l.db x)
    (hh : jobHand x ⊆ jobHand (f.workers i)) : ClaimInv { f.set i x with ledger := l, served } where
  nodup := h.nodup
  settled jobId hjob := hke.settled (h.settled jobId hjob)
  fine := forall_set (P := fun _ => ClaimFine l.db) hx fun k _ => (h.fine k).kept hke
  apart := disjoint_set (fun k hk _ hx => h.apart i k (Ne.symm hk) (hh hx)) h.apart
  unstarted := forall_set (P := fun _ y => List.Disjoint (jobHand y) (startedJobs f))
    (fun _ hx => h.unstarted i (hh hx)) fun k _ => h.unstarted k

theorem claimFine_of_nil (db : Db) (hh : jobHand x = [])
    (hs : ∀ jobs, x = .locked jobs → ∀ j ∈ jobs, j.replicaId = none)
    (hc : ∀ k pt, x ≠ .claiming k pt) : ClaimFine db x where
  nodup := hh ▸ List.nodup_nil
  present := hh ▸ nofun
  singles := hs
  claimed k pt hx := absurd hx (hc k pt)
  marked k hx := absurd hx (hc k .marked)
  working _ _ := hh ▸ nofun

theorem claimFine_claiming {pt : ClaimPoint} (hn : (jobHand (.claiming k pt)).Nodup)
    (hp : ∀ jobId ∈ jobHand (.claiming k pt), Present db jobId) (hc : ∀ c ∈ k.work, ClaimsJob k.writes c.job.id)
    (hm : pt = .marked → ∀ j rest, k.todo = j :: rest → ClaimsJob k.writes j.id) : ClaimFine db (.claiming k pt) where
  nodup := hn
  present := hp
  singles _ hx := Worker.noConfusion hx
  claimed := by
    rintro _ _ ⟨rfl, rfl⟩
    exact hc
  marked := by
    rintro _ ⟨rfl, rfl⟩
    exact hm rfl
  working _ hx := Worker.noConfusion hx

theorem claimFine_working {work : List ClaimedJob} (hn : (jobHand (.working work)).Nodup)
    (hs : ∀ jobId ∈ jobHand (.working work), Settled db jobId) : ClaimFine db (.working work) where
  nodup := hn
  present jobId hjob := by
    obtain ⟨j, hj, hid, -⟩ := hs jobId hjob
    exact ⟨j, hj, hid⟩
  singles _ hx := Worker.noConfusion hx
  claimed _ _ hx := Worker.noConfusion hx
  marked _ hx := Worker.noConfusion hx
  working _ _ := hs

theorem claimInv_start (db : Db) : ClaimInv { ledger := { db } } where
  nodup := List.nodup_nil
  settled := nofun
  fine _ := claimFine_of_nil db rfl nofun nofun
  apart _ _ _ := List.disjoint_nil_left _
  unstarted _ := List.disjoint_nil_left _

theorem ClaimFine.open_or_settled (h : ClaimFine db x) (hj : jobId ∈ jobHand x) :
    jobId ∈ openJobs x ∨ Settled db jobId := by
  cases x with
  | claiming k pt => exact .inl hj
  | working work => exact .inr (h.working work rfl jobId hj)
  | _ => cases hj

theorem pending_of_mem_clusterIds (hjo : jobs.Sublist (pendingClusterJobs db))
    (h : jobId ∈ clusterIds jobs) : Present db jobId ∧ ¬ Settled db jobId := by
  obtain ⟨j, hj, rfl⟩ := mem_clusterIds h
  obtain ⟨hr, hp⟩ := List.mem_filter.mp (hjo.subset hj)
  rw [decide_eq_true_iff] at hp
  exact ⟨⟨j, hr, rfl⟩, not_settled_of_pending hr hp.1⟩

theorem clusterIds_nodup (hj : jobs.Sublist (pendingClusterJobs db)) : (clusterIds jobs).Nodup :=
  db.scheduledJobs.nodup.sublist (((List.filter_sublist.trans hj).trans List.filter_sublist).map _)

theorem ClaimInv.pick (h : ClaimInv f) {sgs : List ScheduledJob} (hw : f.workers i = .locked sgs)
    (hjb : jobs.Sublist (pendingClusterJobs f.ledger.db))
    (ha : ∀ k, k ≠ i → List.Disjoint (clusterIds jobs) (openJobs (f.workers k))) :
    ClaimInv (f.set i (.claiming { locks := sgs.map (·.id), todo := sgs ++ jobs } .next)) := by
  have hs : clusterIds sgs = [] := by
    simp +contextual [clusterIds, (h.fine i).singles sgs hw]
  have hh : jobHand (.claiming { locks := sgs.map (·.id), todo := sgs ++ jobs } .next) = clusterIds jobs := by
    simp [jobHand, clusterIds_append, hs]
  refine ⟨h.nodup, h.settled, ?_, ?_, ?_⟩
  · apply forall_set (P := fun _ => ClaimFine f.ledger.db) _ fun k _ => h.fine k
    apply claimFine_claiming
    · rw [hh]
      exact clusterIds_nodup hjb
    · rw [hh]
      exact fun jobId hjo => (pending_of_mem_clusterIds hjb hjo).1
    · intro c hc
      cases hc
    · intro hp
      cases hp
  · apply disjoint_set _ h.apart
    intro k hk jobId hjo ho
    rw [hh] at hjo
    rcases (h.fine k).open_or_settled ho with hop | hse
    · exact ha k hk hjo hop
    · exact (pending_of_mem_clusterIds hjb hjo).2 hse
  · apply forall_set (P := fun _ y => List.Disjoint (jobHand y) (startedJobs f)) _ fun k _ => h.unstarted k
    intro jobId hjo hst
    rw [hh] at hjo
    exact (pending_of_mem_clusterIds hjb hjo).2 (h.settled jobId hst)

theorem ClaimInv.goClaiming (h : ClaimInv f) {k' : Claiming} {pt pt' : ClaimPoint} (hw : f.workers i = .claiming k pt)
    (hs : (k'.work.map (·.job) ++ k'.todo).Sublist (k.work.map (·.job) ++ k.todo))
    (hc : ∀ c ∈ k'.work, ClaimsJob k'.writes c.job.id)
    (hm : pt' = .marked → ∀ j rest, k'.todo = j :: rest → ClaimsJob k'.writes j.id) :
    ClaimInv (f.set i (.claiming k' pt')) := by
  have hh : (jobHand (.claiming k' pt')).Sublist (jobHand (f.workers i)) := by
    rw [hw]
    exact clusterIds_sublist hs
  apply h.set (JobsKept.refl _) _ hh.subset
  apply claimFine_claiming ((h.fine i).nodup.sublist hh) _ hc hm
  intro jobId hj
  exact (h.fine i).present jobId (hh.subset hj)

theorem ClaimsJob.append {ws : List Write} (h : ClaimsJob ws jobId) (ws' : List Write) :
    ClaimsJob (ws ++ ws') jobId := by
  obtain ⟨rid, now, h⟩ := h
  exact ⟨rid, now, List.mem_append_left _ h⟩

theorem ClaimInv.look (h : ClaimInv f) {j : ScheduledJob} {rest : List ScheduledJob}
    (hw : f.workers i = .claiming k .marked) (ht : k.todo = j :: rest) :
    ClaimInv (f.set i
      (.claiming { k with todo := rest, work := k.work ++ (claimedWork (f.view k.writes) j).toList } .next)) := by
  have hcl := (h.fine i).claimed k .marked hw
  apply h.goClaiming hw _ _ (fun hp => ClaimPoint.noConfusion hp)
  · rw [ht]
    cases hwo : claimedWork (f.view k.writes) j with
    | none => simp
    | some c => simp [claimedWork_job hwo]
  · intro c hc
    rcases List.mem_append.mp hc with hc | hc
    · exact hcl c hc
    · rw [claimedWork_job (Option.mem_toList.mp hc)]
      exact (h.fine i).marked k hw j rest ht

theorem ClaimInv.commitClaims (h : ClaimInv f) (hw : f.workers i = .claiming k .next) (ht : k.todo = []) :
    ClaimInv { f.set i (.working k.work) with ledger := applyAll f.ledger k.writes } := by
  have hk := jobsKept_applyAll f.ledger k.writes
  have hf := h.fine i
  have hh : jobHand (.working k.work) = jobHand (f.workers i) := by
    simp [hw, jobHand, ht]
  apply h.set hk _ (fun _ hjo => hh ▸ hjo)
  apply claimFine_working (hh ▸ hf.nodup)
  intro jobId hjo
  have hp := hf.present jobId (hh ▸ hjo)
  obtain ⟨j, hj, rfl⟩ := mem_clusterIds hjo
  obtain ⟨c, hc, rfl⟩ := List.mem_map.mp hj
  exact settled_applyAll (hf.claimed k .next hw c hc) hp

theorem ClaimInv.start (h : ClaimInv f) {pre post : List ClaimedJob} {c : ClaimedJob}
    (hw : f.workers i = .working (pre ++ c :: post)) (hke : JobsKept f.ledger.db l.db) :
    ClaimInv { f.set i (.working (pre ++ post)) with ledger := l, started := f.started ++ [(i, c.job)] } := by
  have hf := h.fine i
  -- what is started was in hand, and is no longer
  have hp : (jobHand (f.workers i)).Perm (clusterIds [c.job] ++ jobHand (.working (pre ++ post))) := by
    rw [hw, jobHand, jobHand, ← clusterIds_append]
    exact ((List.perm_middle.map ClaimedJob.job).filter _).map _
  obtain ⟨hon, hr, hou⟩ := List.nodup_append.mp (hp.nodup_iff.mp hf.nodup)
  have hj {jobId : ℕ} (h : jobId ∈ clusterIds [c.job]) : jobId ∈ jobHand (f.workers i) :=
    hp.mem_iff.mpr (List.mem_append_left _ h)
  have hl {jobId : ℕ} (h : jobId ∈ jobHand (.working (pre ++ post))) : jobId ∈ jobHand (f.workers i) :=
    hp.mem_iff.mpr (List.mem_append_right _ h)
  have hse : ClaimInv { f.set i (.working (pre ++ post)) with ledger := l, served := f.served } := by
    apply h.set hke _ fun _ => hl
    apply claimFine_working hr
    intro jobId hj
    exact hke.settled (hf.working _ hw jobId (hl hj))
  have hs : clusterIds ((f.started ++ [(i, c.job)]).map (·.2)) = startedJobs f ++ clusterIds [c.job] := by
    rw [List.map_append, clusterIds_append]
    rfl
  refine ⟨?_, ?_, hse.fine, hse.apart, ?_⟩
  · change (clusterIds _).Nodup
    rw [hs, List.nodup_append]
    refine ⟨h.nodup, hon, ?_⟩
    rintro jobId ho _ hn rfl
    exact h.unstarted i (hj hn) ho
  · intro jobId hm
    replace hm : jobId ∈ clusterIds _ := hm
    rw [hs] at hm
    rcases List.mem_append.mp hm with ho | hn
    · exact hke.settled (h.settled jobId ho)
    · exact hke.settled (hf.working _ hw jobId (hj hn))
  · change ∀ k, List.Disjoint (jobHand ((f.set i _).workers k)) (clusterIds _)
    rw [hs]
    apply forall_set (P := fun _ y => List.Disjoint (jobHand y) (startedJobs f ++ clusterIds [c.job]))
    · intro jobId hm hn
      rcases List.mem_append.mp hn with ho | hn
      · exact h.unstarted i (hl hm) ho
      · exact hou jobId hn jobId hm rfl
    · intro k hk jobId hm hn
      rcases List.mem_append.mp hn with ho | hn
      · exact h.unstarted k hm ho
      · exact h.apart k i hk hm (hj hn)

theorem ClaimInv.step {f' : Fleet} (h : ClaimInv f) (hst : FleetStep orderly f f') : ClaimInv f' := by
  -- a worker that holds no job of a replica
  have hl {x : Worker} {i : ℕ} (hh : jobHand x = []) (hs : ∀ jobs, x = .locked jobs → ∀ j ∈ jobs, j.replicaId = none)
      (hcl : ∀ k pt, x ≠ .claiming k pt) : ClaimInv (f.set i x) :=
    h.set (JobsKept.refl _) (claimFine_of_nil _ hh hs hcl) (hh ▸ List.nil_subset _)
  cases hst with
  | select | find | skip | targets | insert | advance | rest | abort => exact hl rfl nofun nofun
  | commit i _ _ _ =>
    exact h.set (jobsKept_applyAll f.ledger _) (claimFine_of_nil _ rfl nofun nofun) (List.nil_subset _)
  | lock i _ hs _ _ =>
    refine hl rfl ?_ (fun _ _ => Worker.noConfusion)
    rintro _ ⟨rfl⟩ j hj
    have hn := List.of_mem_filter (hs.subset hj)
    rw [decide_eq_true_iff] at hn
    exact Option.isNone_iff_eq_none.mp hn.2
  | pick i hw hjo _ hC => exact h.pick hw hjo hC
  | choose i hw _ _ =>
    exact h.goClaiming hw (List.Sublist.refl _) ((h.fine i).claimed _ _ hw) nofun
  | pass i hw ht _ =>
    have hcm := (h.fine i).claimed _ _ hw
    refine h.goClaiming hw ?_ hcm nofun
    rw [ht]
    exact (List.sublist_cons_self _ _).append_left _
  | mark i now hw ht _ =>
    apply h.goClaiming hw
    · exact List.Sublist.refl _
    · intro c hc
      exact ((h.fine i).claimed _ _ hw c hc).append _
    · intro _ j rest ht'
      obtain ⟨rfl, -⟩ := List.cons.inj (ht.symm.trans ht')
      exact ⟨_, now, List.mem_append_right _ List.mem_cons_self⟩
  | look i hw ht => exact h.look hw ht
  | commitClaims i hw ht => exact h.commitClaims hw ht
  | start i hw =>
    apply h.start hw
    apply JobsGoOn.kept
    exact jobsGoOn_running _ _
  | outside db hjo _ =>
    have hk : JobsKept f.ledger.db db := JobsGoOn.kept hjo
    exact ⟨h.nodup, fun jobId hjb => hk.settled (h.settled jobId hjb), fun i => (h.fine i).kept hk,
      h.apart, h.unstarted⟩

/-- Each occurrence has the jobs that it should have, and no job was started twice. -/
structure OneJobEach (f : Fleet) : Prop where
  single : ∀ v ∈ f.served, v.schedule.mode = .single → rowsOf f.ledger (occurrenceOf v.schedule) = [none]
  cluster : ∀ v ∈ f.served, v.schedule.mode = .cluster →
    rowsOf f.ledger (occurrenceOf v.schedule) = (runningReplicas v.seen v.schedule.agentId).map fun r => some r.id
  starts : (startedJobs f).Nodup

theorem oneJobEach_of_inv (h : CreationInv f) (hc : ClaimInv f) : OneJobEach f := by
  have hr : ∀ v ∈ f.served, rowsOf f.ledger (occurrenceOf v.schedule) = jobTargets v.seen v.schedule := by
    intro v hv
    rw [h.rows, jobsFor_of_mem h.nodup hv]
    rfl
  refine ⟨?_, ?_, hc.nodup⟩
  · intro v hv hm
    rw [hr v hv, jobTargets, hm]
  · intro v hv hm
    rw [hr v hv, jobTargets, hm]

/-- Any number of workers may poll, each by its own clock and in any order, as long as no two of them have one
occurrence or one job of a replica in hand at the same time and schedules only move forward. -/
theorem one_job_per_occurrence {db : Db} {f : Fleet}
    (hrun : Relation.ReflTransGen (FleetStep orderly) { ledger := { db } } f) :
    OneJobEach f := by
  have hin : CreationInv f ∧ ClaimInv f := by
    induction hrun with
    | refl => exact ⟨creationInv_start db, claimInv_start db⟩
    | tail _ hs ih => exact ⟨ih.1.step hs, ih.2.step hs⟩
  exact oneJobEach_of_inv hin.1 hin.2

section Instances

theorem set_set (y : Worker) : (f.set i x).set i y = f.set i y := by
  unfold Fleet.set
  rw [Function.update_idem]

theorem creates {C : FleetCondition} (env : SchedulerEnv) {now next : Time} {s : AgentSchedule}
    (hw : f.workers i = .creating { now, todo := [s] } .next) (hn : jobsAt f.ledger.db s.id now = [])
    (hne : env.computeNextRun s.cronExpression s.timezone = .ok next) (hf : f.ScheduleFree i s.id)
      (ha : C.advance s next)
    (hc : C.commit f.ledger.db (creationWrites s now now (jobTargets f.ledger.db s) next)) :
    Relation.ReflTransGen (FleetStep C) f
      { f.set i .created with
        ledger := applyAll f.ledger (creationWrites s now now (jobTargets f.ledger.db s) next)
        served := f.served ++ [⟨s, f.ledger.db, next⟩] } := by
  have hf' (x : Worker) : (f.set i x).ScheduleFree i s.id := by
    intro k hk
    rw [set_workers_of_ne hk]
    exact hf k hk
  have hs (x : Worker) : (f.set i x).workers i = x := set_workers_self
  have hgo {x y : Worker} (h : FleetStep C (f.set i x) ((f.set i x).set i y)) :
    FleetStep C (f.set i x) (f.set i y) := set_set y ▸ h
  let c : Creation := { now, todo := [s] }
  let jobs : List Write := (jobTargets f.ledger.db s).map (.job s now now)
  have hfi : FleetStep C f (f.set i (.creating c .found)) := .find i hw rfl hn
  have ht : FleetStep C _ (f.set i (.creating c (.targeted f.ledger.db))) :=
    hgo (.targets i (hs (.creating c .found)) rfl)
  have hin : FleetStep C _ (f.set i (.creating { c with writes := jobs } (.inserted f.ledger.db))) :=
    hgo (.insert i now (hs (.creating c (.targeted f.ledger.db))) rfl)
  have hnx : FleetStep C _ (f.set i (.creating
      { now, writes := jobs ++ [.next s.id next], served := [⟨s, f.ledger.db, next⟩], todo := [] } .next)) :=
    hgo (.advance env i (hs (.creating { c with writes := jobs } (.inserted f.ledger.db))) rfl hne (hf' _) ha)
  have hd := FleetStep.commit (C := C) i (hs (.creating
    { now, writes := jobs ++ [.next s.id next], served := [⟨s, f.ledger.db, next⟩], todo := [] } .next)) rfl hc
  rw [set_set] at hd
  exact .head hfi (.head ht (.head hin (.head hnx (.single hd))))

def dueDb : Db := { mailJobDb with agents := .single { mailAgent "sms" with status := .running }, scheduledJobs := .empty }

def hourly : SchedulerEnv := { plainEntryEnv.scheduler with computeNextRun := fun _ _ => .ok 3600 }

def foundDue (f : Fleet) (i : ℕ) (now : Time) : Fleet := f.set i (.creating { now, todo := [mailSchedule] } .next)

def atRest : Fleet := { ledger := { db := dueDb } }

theorem scheduleFree_set {j scheduleId : ℕ} (h : f.ScheduleFree j scheduleId) (hx : scheduleLocks x = []) :
    (f.set i x).ScheduleFree j scheduleId := by
  apply forall_set (P := fun k y => k ≠ j → scheduleId ∉ scheduleLocks y)
  · intro _
    rw [hx]
    exact List.not_mem_nil
  · exact fun k _ => h k

theorem atRest_scheduleFree (j scheduleId : ℕ) : atRest.ScheduleFree j scheduleId := fun _ _ => List.not_mem_nil

theorem lone_poll_one_job : ∃ f, Relation.ReflTransGen (FleetStep orderly) { ledger := { db := dueDb } } f ∧
      f.served.map (fun v => occurrenceOf v.schedule) = [⟨7, none⟩] ∧ OneJobEach f := by
  have hse : FleetStep orderly atRest (foundDue atRest 0 60) := .select 0 60 rfl fun _ _ => List.disjoint_nil_right _
  have hf : (foundDue atRest 0 60).ScheduleFree 0 7 := scheduleFree_set (atRest_scheduleFree 0 7) rfl
  have hfo : MovesForward dueDb (creationWrites mailSchedule 60 60 [none] 3600) := by
    intro s hs t _
    obtain rfl : s = mailSchedule := List.mem_singleton.mp hs
    exact .inr trivial
  have hr := (creates hourly (f := foundDue atRest 0 60) set_workers_self rfl rfl hf trivial hfo).head hse
  exact ⟨_, hr, rfl, one_job_per_occurrence hr⟩

def unrestricted : FleetCondition := ⟨fun _ _ _ => True, fun _ _ => True, fun _ _ => True,
    fun _ _ _ => True, fun _ _ => True⟩

/-- Two workers find the schedule due, with clocks one second apart, and each creates a job for it. -/
theorem two_polls_two_jobs :
    ∃ f, Relation.ReflTransGen (FleetStep unrestricted) { ledger := { db := dueDb } } f ∧
      rowsOf f.ledger ⟨7, none⟩ = [none, none] ∧ ¬ OneJobEach f := by
  have hfi : FleetStep unrestricted atRest (foundDue atRest 0 60) := .select 0 60 rfl trivial
  have hs : FleetStep unrestricted (foundDue atRest 0 60) (foundDue (foundDue atRest 0 60) 1 61) :=
    .select 1 61 rfl trivial
  have hf (j : ℕ) : (foundDue (foundDue atRest 0 60) 1 61).ScheduleFree j 7 :=
    scheduleFree_set (scheduleFree_set (atRest_scheduleFree j 7) rfl) rfl
  have hc := creates (C := unrestricted) hourly (f := foundDue (foundDue atRest 0 60) 1 61) (i := 0) rfl rfl rfl
    (hf 0) trivial trivial
  -- the second looks for jobs with the time of its own clock, and finds none
  have hcr := creates (C := unrestricted) hourly
    (f := { (foundDue (foundDue atRest 0 60) 1 61).set 0 .created with
      ledger := applyAll ⟨dueDb, fun _ => none⟩ (creationWrites mailSchedule 60 60 [none] 3600)
      served := [⟨mailSchedule, dueDb, 3600⟩] })
    (i := 1) rfl rfl rfl (scheduleFree_set (hf 1) rfl) trivial trivial
  have hr := ((hc.trans hcr).head hs).head hfi
  refine ⟨_, hr, rfl, ?_⟩
  intro h
  have hsi := h.single ⟨mailSchedule, dueDb, 3600⟩ List.mem_cons_self rfl
  revert hsi
  exact nofun

end Instances

end McpworksApi.Agents
