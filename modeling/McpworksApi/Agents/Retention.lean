import McpworksApi.Models.Db
import McpworksApi.Session.Invariant

/-! Retention of runs. Two jobs delete old runs: `prune_observability_data` deletes whatever is older than thirty days,
and `purge_expired_runs` keeps the runs of an agent as long as the tier of its owner says. -/

namespace McpworksApi.Agents.Retention

open Models Session

def day : Time := 24 * 60 * 60 * 1000000

def agentRunRetentionDays : ℕ := 30

def scheduleFireRetentionDays : ℕ := 90

def tierRetention : List (String × ℕ) :=
  [("trial-agent", 14), ("pro-agent", 30), ("enterprise-agent", 90), ("dedicated-agent", 365)]

structure CreationTimes where
  run : ℕ → Time
  fire : ℕ → Time

def deleteRuns (p : AgentRun → Bool) (db : Db) : Db :=
  let gone := (db.agentRuns.select p).map (·.id)
  { db with
    agentRuns := db.agentRuns.deleteWhere p
    scheduleFires := db.scheduleFires.updateWhere (fun f => f.agentRunId.any (· ∈ gone)) fun f =>
      { f with agentRunId := none } }

def olderThan (days : ℕ) (now created : Time) : Bool := created + days * day < now

def pruneObservabilityData (born : CreationTimes) (now later : Time) : DbSession Unit := do
  write (deleteRuns fun r => olderThan agentRunRetentionDays now (born.run r.id))
  write fun db => { db with
    scheduleFires := db.scheduleFires.deleteWhere fun f =>
      olderThan scheduleFireRetentionDays later (born.fire f.id) }

def agentsOnTier (_tier : String) (_db : Db) : Except ApiError (List ℕ) :=
  .error (.py .attributeError "type object 'User' has no attribute 'account_id'")

def purgeTier (select : String → Db → Except ApiError (List ℕ)) (born : CreationTimes) (now : Time)
    (tier : String) (days : ℕ) :
    DbSession ℕ := do
  let agentIds ← fetch (select tier)
  if agentIds = [] then pure 0
  else
    let expired (r : AgentRun) : Bool := r.agentId ∈ agentIds ∧ olderThan days now (born.run r.id)
    let count ← query fun db => (db.agentRuns.select expired).length
    write (deleteRuns expired)
    pure count

def purgeTiers (select : String → Db → Except ApiError (List ℕ)) (born : CreationTimes) (now : Time) :
    List (String × ℕ) → DbSession ℕ
  | [] => pure 0
  | (tier, days) :: tiers => do
    let count ← purgeTier select born now tier days
    let rest ← purgeTiers select born now tiers
    pure (count + rest)

def purgeExpiredRuns (born : CreationTimes) (now : Time) : DbSession ℕ :=
    purgeTiers agentsOnTier born now tierRetention

inductive Job
  | prune (now later : Time)
  | purge (now : Time)

def Job.now : Job → Time
  | prune now _ | purge now => now

def perform (born : CreationTimes) (job : Job) (db : Db) : Db :=
  match job with
  | .prune now later => (pruneObservabilityData born now later db).2
  | .purge now => (purgeExpiredRuns born now db).2

def performAll (born : CreationTimes) (jobs : List Job) (db : Db) : Db :=
    jobs.foldl (fun db job => perform born job db) db

def retentionOf (tierOf : ℕ → String) (db : Db) (r : AgentRun) : Option ℕ :=
  (db.agents.get? r.agentId).bind fun agent => tierRetention.lookup (tierOf agent.accountId)

def Kept (tierOf : ℕ → String) (born : CreationTimes) (now : Time) (db db' : Db) : Prop :=
  ∀ r ∈ db.agentRuns.rows, r ∉ db'.agentRuns.rows →
    ∀ days, retentionOf tierOf db r = some days → born.run r.id + days * day ≤ now

def Respected (tierOf : ℕ → String) (born : CreationTimes) (db : Db) : Prop :=
  ∀ earlier job, Kept tierOf born (Job.now job) (performAll born earlier db)
    (perform born job (performAll born earlier db))

def ShortLived (tierOf : ℕ → String) (db : Db) : Prop :=
  ∀ r ∈ db.agentRuns.rows, ∀ days, retentionOf tierOf db r = some days → days ≤ agentRunRetentionDays

section Jobs

variable {tierOf : ℕ → String} {born : CreationTimes} {now : Time} {db db' : Db}

structure Shrinks (db db' : Db) : Prop where
  agents : db'.agents = db.agents
  runs : db'.agentRuns.rows ⊆ db.agentRuns.rows

theorem Shrinks.refl (db : Db) : Shrinks db db := ⟨rfl, List.Subset.refl _⟩

theorem Shrinks.trans {db'' : Db} (h : Shrinks db db') (h' : Shrinks db' db'') : Shrinks db db'' :=
  ⟨h'.agents.trans h.agents, List.Subset.trans h'.runs h.runs⟩

theorem shrinks_deleteRuns (p : AgentRun → Bool) (db : Db) : Shrinks db (deleteRuns p db) :=
  ⟨rfl, List.filter_subset_self _⟩

theorem Shrinks.retentionOf (h : Shrinks db db') (r : AgentRun) :
    retentionOf tierOf db' r = retentionOf tierOf db r := by
  unfold Retention.retentionOf
  rw [h.agents]

theorem ShortLived.shrinks (hs : ShortLived tierOf db) (h : Shrinks db db') : ShortLived tierOf db' := by
  intro r hr days hd
  rw [h.retentionOf] at hd
  exact hs r (h.runs hr) days hd

theorem of_lost {p : AgentRun → Bool} {r : AgentRun} (hr : r ∈ db.agentRuns.rows)
    (hl : r ∉ (deleteRuns p db).agentRuns.rows) :
    p r = true := by
  by_contra hp
  apply hl
  apply List.mem_filter.mpr
  exact ⟨hr, by simpa using hp⟩

theorem Kept.refl (db : Db) : Kept tierOf born now db db := fun _ hr hl => absurd hr hl

theorem Kept.trans {db'' : Db} (hsh : Shrinks db db') (h : Kept tierOf born now db db')
    (h' : Kept tierOf born now db' db'') :
    Kept tierOf born now db db'' := by
  intro r hr hl days hd
  by_cases hs : r ∈ db'.agentRuns.rows
  · rw [← hsh.retentionOf] at hd
    exact h' r hs hl days hd
  · exact h r hr hs days hd

/-! Pruning -/

theorem shrinks_prune (born : CreationTimes) (now ls : Time) (db : Db) :
    Shrinks db (pruneObservabilityData born now ls db).2 := ⟨rfl, List.filter_subset_self _⟩

theorem kept_prune (hs : ShortLived tierOf db) (later : Time) :
    Kept tierOf born now db (pruneObservabilityData born now later db).2 := by
  intro r hr hl days hd
  have ho : olderThan agentRunRetentionDays now (born.run r.id) = true := of_lost hr hl
  have hd : days * day ≤ agentRunRetentionDays * day := Nat.mul_le_mul_right _ (hs r hr days hd)
  calc born.run r.id + days * day
      ≤ born.run r.id + agentRunRetentionDays * day := Nat.add_le_add_left hd _
    _ ≤ now := (of_decide_eq_true ho : born.run r.id + agentRunRetentionDays * day < now).le

/-! Purging, with any query that finds only agents whose owners are on the tier -/

def Purged (tierOf : ℕ → String) (born : CreationTimes) (now : Time) (db db' : Db) : Prop :=
  Shrinks db db' ∧ Kept tierOf born now db db'

variable {select : String → Db → Except ApiError (List ℕ)}

def FindsTier (tierOf : ℕ → String) (select : String → Db → Except ApiError (List ℕ)) : Prop :=
  ∀ tier db ids, select tier db = .ok ids → ∀ i ∈ ids, ∀ agent, db.agents.get? i = some agent →
    tierOf agent.accountId = tier

theorem findsTier_agentsOnTier : FindsTier tierOf agentsOnTier := by
  intro tier db ids h
  cases h

theorem purged_purgeTier (hs : FindsTier tierOf select) {tier : String} {days : ℕ}
    (ht : tierRetention.lookup tier = some days)
    (db : Db) : Purged tierOf born now db (purgeTier select born now tier days db).2 := by
  unfold purgeTier
  rcases hid : select tier db with e | ids
  · rw [fetch_bind_of_error hid]
    exact ⟨.refl db, .refl db⟩
  rw [fetch_bind_of_ok hid]
  by_cases hn : ids = []
  · rw [if_pos hn]
    exact ⟨.refl db, .refl db⟩
  rw [if_neg hn]
  refine ⟨shrinks_deleteRuns _ db, ?_⟩
  intro r hr hlo days' hd'
  have he : r.agentId ∈ ids ∧ olderThan days now (born.run r.id) = true := of_decide_eq_true (of_lost hr hlo)
  -- the owner is on the tier of the query, so it is the tier's own number of days that counts
  obtain ⟨ag, ha, hl⟩ := Option.bind_eq_some_iff.mp hd'
  rw [hs tier db ids hid r.agentId he.1 ag ha, ht] at hl
  cases hl
  exact (of_decide_eq_true he.2 : born.run r.id + days * day < now).le

theorem purged_purgeTiers (hs : FindsTier tierOf select) {tiers : List (String × ℕ)}
    (hti : ∀ t ∈ tiers, tierRetention.lookup t.1 = some t.2) (db : Db) :
    Purged tierOf born now db (purgeTiers select born now tiers db).2 := by
  induction tiers generalizing db with
  | nil => exact ⟨.refl db, .refl db⟩
  | cons t tiers ih =>
    obtain ⟨tier, days⟩ := t
    have hf : Purged tierOf born now db (purgeTier select born now tier days db).2 :=
      purged_purgeTier hs (hti (tier, days) List.mem_cons_self) db
    have hr (db : Db) := ih (fun t ht => hti t (List.mem_cons_of_mem _ ht)) db
    rw [purgeTiers, bind_apply]
    rcases hru : purgeTier select born now tier days db with ⟨r, db₁⟩
    rw [hru] at hf
    cases r with
    | error e => exact hf
    | ok count =>
      have hr := hr db₁
      dsimp only
      rw [bind_apply]
      rcases hr' : purgeTiers select born now tiers db₁ with ⟨r', db₂⟩
      rw [hr'] at hr
      cases r' <;> exact ⟨hf.1.trans hr.1, hf.2.trans hf.1 hr.2⟩

theorem purged_purgeExpiredRuns (db : Db) : Purged tierOf born now db (purgeExpiredRuns born now db).2 :=
  purged_purgeTiers findsTier_agentsOnTier (by decide) db

/-! Schedules -/

theorem shrinks_perform (born : CreationTimes) (job : Job) (db : Db) : Shrinks db (perform born job db) := by
  cases job with
  | prune now ls => exact shrinks_prune born now ls db
  | purge now =>
    have hp : Purged (fun _ => "") born now db (purgeExpiredRuns born now db).2 := purged_purgeExpiredRuns db
    exact hp.1

theorem kept_perform (hs : ShortLived tierOf db) (job : Job) : Kept tierOf born job.now db (perform born job db) := by
  cases job with
  | prune now ls => exact kept_prune hs ls
  | purge now => exact (purged_purgeExpiredRuns db).2

theorem shrinks_performAll (born : CreationTimes) (jobs : List Job) (db : Db) :
    Shrinks db (performAll born jobs db) := by
  induction jobs generalizing db with
  | nil => exact .refl db
  | cons job jobs ih => exact (shrinks_perform born job db).trans (ih _)

end Jobs

/-- Retention is respected by every schedule of the jobs exactly when no run is to be kept for more than thirty
days. -/
theorem retention_respected_iff (tierOf : ℕ → String) (born : CreationTimes) (db : Db) :
    Respected tierOf born db ↔ ShortLived tierOf db := by
  constructor
  · intro h r hr days hd
    by_contra hln
    -- the run is pruned as soon as it is more than thirty days old
    let now : Time := born.run r.id + agentRunRetentionDays * day + 1
    have hl : r ∉ (perform born (.prune now now) db).agentRuns.rows := by
      intro hs
      have hk := (List.mem_filter.mp hs).2
      simp [olderThan, now] at hk
    have ha : born.run r.id + days * day ≤ born.run r.id + agentRunRetentionDays * day + 1 :=
      h [] (.prune now now) r hr hl days hd
    have hlo : (agentRunRetentionDays + 1) * day ≤ days * day := Nat.mul_le_mul_right _ (by omega)
    rw [Nat.add_assoc, Nat.add_le_add_iff_left] at ha
    rw [Nat.succ_mul] at hlo
    have hda : (1 : ℕ) < day := by decide
    omega
  · intro hsh ear job
    exact kept_perform (hsh.shrinks (shrinks_performAll born ear db)) job

def oneRunDb : Db where
  agents := .single { id := 1, accountId := 2, namespaceId := 3, name := "bot" }
  agentRuns := .single { id := 7, agentId := 1, triggerType := "cron" }

def bornAtZero : CreationTimes := ⟨fun _ => 0, fun _ => 0⟩

/-- A run that is to be kept for ninety days is gone after thirty-one. -/
theorem enterprise_run_pruned_early :
    retentionOf (fun _ => "enterprise-agent") oneRunDb { id := 7, agentId := 1, triggerType := "cron" } = some 90 ∧
      (perform bornAtZero (.prune (31 * day) (31 * day)) oneRunDb).agentRuns.rows = [] ∧
      ¬ Respected (fun _ => "enterprise-agent") bornAtZero oneRunDb := by
  refine ⟨by decide, by decide, ?_⟩
  intro h
  have ha := h [] (.prune (31 * day) (31 * day)) _ (List.mem_singleton_self _) (by decide) 90 (by decide)
  exact absurd ha (by decide)

theorem pro_run_kept :
    ShortLived (fun _ => "pro-agent") oneRunDb ∧ Respected (fun _ => "pro-agent") bornAtZero oneRunDb := by
  have hs : ShortLived (fun _ => "pro-agent") oneRunDb := by
    intro r hr days hd
    cases List.mem_singleton.mp hr
    have ht : retentionOf (fun _ => "pro-agent") oneRunDb
      { id := 7, agentId := 1, triggerType := "cron" } = some 30 := by
      decide
    rw [ht] at hd
    cases hd
    decide
  exact ⟨hs, (retention_respected_iff (fun _ => "pro-agent") bornAtZero oneRunDb).mpr hs⟩

end McpworksApi.Agents.Retention
