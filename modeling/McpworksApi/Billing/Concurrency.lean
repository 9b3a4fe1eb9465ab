import McpworksApi.Billing.Middleware

/-! The limit on concurrent requests of an account. A request reads the counter, compares it with the limit and only
then increments it, in another command; it goes on without a slot if a check fails; and the counter expires ten minutes
after the last increment. -/

namespace McpworksApi.Billing

open Redis

def runsFor (accountId : String) : RequestTask → Bool
  | .executing (some a) => a.id = accountId
  | _ => false

def concurrentCount (accountId : String) (s : BillingState) : ℤ :=
  match s.redis.live s.clock (concurrentKey accountId) with
  | some ⟨.int n, _⟩ => n
  | _ => 0

def slots (accountId : String) : RequestTask → ℕ
  | .executing (some a) => if a.id = accountId then 1 else 0
  | .releasing id => if id = accountId then 1 else 0
  | _ => 0

def enters (accountId : String) : RequestTask → ℕ
  | .entering a _ => if a.id = accountId then 1 else 0
  | _ => 0

def clamps (accountId : String) : RequestTask → ℕ
  | .clamping id => if id = accountId then 1 else 0
  | _ => 0

def precheckFails (accountId : String) (x : BillingTurn) (t : RequestTask) (redis : Store) : Bool :=
  match t with
  | .rateCheck a minute => a.id = accountId ∧ (readCounter x (minuteKey a.id minute) redis).toOption = none
  | .concurrencyCheck a _ => a.id = accountId ∧ (readCounter x (concurrentKey a.id) redis).toOption = none
  | .entering a _ => a.id = accountId ∧ x.fails
  | _ => false

def readsCount (accountId : String) : RequestTask → Bool
  | .concurrencyCheck a _ => a.id = accountId
  | _ => false

/-- The turns that keep the counter right: no check fails, the counter has not expired while slots are taken, and a
request that reads it is refused, or there is room for it and for all that were let in before. -/
@[mk_iff] structure Smooth (accountId : String) (limit : ℕ) (p : BillingPool) (x : BillingTurn)
    (t : RequestTask) : Prop where
  clock : p.state.clock ≤ x.now
  unexpired : 0 < Pool.total (slots accountId) p.tasks → (p.state.redis.live x.now (concurrentKey accountId)).isSome
  checked : precheckFails accountId x t p.state.redis = false
  room : readsCount accountId t = true →
    limit ≤ concurrentCount accountId { p.state with clock := x.now } ∨
      concurrentCount accountId { p.state with clock := x.now } + Pool.total (enters accountId) p.tasks < limit

instance (accountId : String) (limit : ℕ) (p : BillingPool) (x : BillingTurn) (t : RequestTask) :
    Decidable (Smooth accountId limit p x t) := decidable_of_iff' _ (smooth_iff ..)

section Counter

variable {accountId : String} {s : BillingState} {n : ℕ} {now : ℕ} {redis redis' : Store}

def CountIs (accountId : String) (s : BillingState) (n : ℕ) : Prop :=
  s.redis.live s.clock (concurrentKey accountId) = none ∧ n = 0 ∨
    ∃ expiry, s.redis.live s.clock (concurrentKey accountId) = some ⟨.int n, expiry⟩

theorem CountIs.concurrentCount (h : CountIs accountId s n) : concurrentCount accountId s = n := by
  unfold Billing.concurrentCount
  rcases h with ⟨hn, rfl⟩ | ⟨exp, hs⟩
  · rw [hn]
    rfl
  · rw [hs]

theorem CountIs.congr (h : CountIs accountId ⟨redis, now⟩ n)
    (hs : redis' (concurrentKey accountId) = redis (concurrentKey accountId)) :
      CountIs accountId ⟨redis', now⟩ n := by
  unfold CountIs at h ⊢
  dsimp only at h ⊢
  rw [Store.live_congr hs]
  exact h

theorem CountIs.enter (h : CountIs accountId ⟨redis, now⟩ n) {a : StateAccount} (ha : a.id = accountId) (mie : ℕ) :
    CountIs accountId ⟨execAll now (enterCommands a mie) redis, now⟩ (n + 1) := by
  subst ha
  have hk := minuteKey_ne_concurrentKey a.id a.id mie
  have hm : ∀ redis : Store, (exec true now (.expire (minuteKey a.id mie) 120)
      (exec true now (.incr (minuteKey a.id mie)) redis).2).2 (concurrentKey a.id) = redis (concurrentKey a.id) := by
    intro redis
    rw [exec_of_ne true _ hk, exec_of_ne true _ hk]
  have hc := h.congr (hm redis)
  change CountIs a.id ⟨(exec true now (.expire (concurrentKey a.id) 600) (exec true now (.incr (concurrentKey a.id))
    (exec true now (.expire (minuteKey a.id mie) 120) (exec true now (.incr (minuteKey a.id mie)) redis).2).2).2).2,
    now⟩ (n + 1)
  generalize (exec true now (.expire (minuteKey a.id mie) 120)
    (exec true now (.incr (minuteKey a.id mie)) redis).2).2 = redis₂ at hc
  -- whatever expiry the counter had, it now has one in ten minutes
  have he : ∀ (redis₃ : Store) (exp : Option ℕ),
      redis₃.live now (concurrentKey a.id) = some ⟨.int (n + 1 : ℕ), exp⟩ →
      CountIs a.id ⟨(exec true now (.expire (concurrentKey a.id) 600) redis₃).2, now⟩ (n + 1) := by
    intro redis₃ exp hl
    rw [exec_expire_of_some true 600 hl]
    exact .inr ⟨some (now + 600 * second), Store.live_of_lt (Store.set_self ..) (Nat.lt_add_of_pos_right (by decide))⟩
  rcases hc with ⟨hn, rfl⟩ | ⟨exp, hs⟩
  · rw [exec_incr_of_none true hn]
    exact he _ none (Store.live_of_lasting (Store.set_self ..))
  · rw [exec_incr_of_some true hs]
    refine he _ exp ?_
    dsimp only at hs
    cases exp with
    | none => exact Store.live_of_lasting (Store.set_self ..)
    | some t => exact Store.live_of_lt (Store.set_self ..) (Store.lt_of_live hs rfl)

end Counter

section Run

variable {accountId : String} {limit : ℕ} {s : BillingState} {x : BillingTurn} {env : BillingEnv}
  {pre post ts : List RequestTask} {t : RequestTask}

/-- The counter covers the requests that hold a slot, and there is room for those about to enter. -/
structure Covers (accountId : String) (limit : ℕ) (p : BillingPool) : Prop where
  count : ∃ n, CountIs accountId p.state n ∧ Pool.total (slots accountId) p.tasks ≤ n ∧
    n + Pool.total (enters accountId) p.tasks ≤ limit
  unclamped : Pool.total (clamps accountId) p.tasks = 0

theorem Covers.tick {now : ℕ} (h : Covers accountId limit ⟨s, ts⟩) (hc : s.clock ≤ now)
    (hu : 0 < Pool.total (slots accountId) ts → (s.redis.live now (concurrentKey accountId)).isSome) :
    Covers accountId limit ⟨{ s with clock := now }, ts⟩ := by
  obtain ⟨⟨n, hco, hsl, he⟩, hun⟩ := h
  refine ⟨?_, hun⟩
  dsimp only at hsl he ⊢
  cases hl : s.redis.live now (concurrentKey accountId) with
  | none =>
    have hz : Pool.total (slots accountId) ts = 0 := by
      by_contra hne
      have hs := hu (Nat.pos_of_ne_zero hne)
      rw [hl] at hs
      cases hs
    exact ⟨0, .inl ⟨hl, rfl⟩, hz.le, by omega⟩
  | some e =>
    have hea := Store.live_of_later hl hc
    rcases hco with ⟨hn, -⟩ | ⟨exp, hs⟩
    · rw [hea] at hn
      cases hn
    · rw [hea] at hs
      cases hs
      exact ⟨n, .inr ⟨exp, hl⟩, hsl, he⟩

variable {a : StateAccount} {redis : Store} {mi : ℕ}

theorem Covers.of_same {s' : BillingState} {new : List RequestTask} (h : Covers accountId limit ⟨s, pre ++ t :: post⟩)
    (hr : s'.redis (concurrentKey accountId) = s.redis (concurrentKey accountId)) (ht : s'.clock = s.clock)
    (hs : Pool.total (slots accountId) new ≤ slots accountId t)
    (he : Pool.total (enters accountId) new ≤ enters accountId t)
    (hcl : Pool.total (clamps accountId) new = 0) :
    Covers accountId limit ⟨s', pre ++ new ++ post⟩ := by
  obtain ⟨⟨n, hc, hs', he'⟩, hu⟩ := h
  simp only [Pool.total_append, Pool.total_cons] at hs' he' hu
  refine ⟨⟨n, ?_, ?_, ?_⟩, ?_⟩
  · obtain ⟨redis', now⟩ := s'
    cases ht
    exact hc.congr hr
  all_goals
    simp only [Pool.total_append]
    omega

/-- The tasks with which the account takes its slots and gives them back. -/
def Claims (accountId : String) : RequestTask → Prop
  | .concurrencyCheck a _ | .entering a _ | .executing (some a) => a.id = accountId
  | .releasing id | .clamping id => id = accountId
  | _ => False

/-- What becomes of other tasks takes no slot, since their checks do not fail for the account. -/
theorem unclaimed_of_becomes {new : List RequestTask} (h : Becomes env x redis t new) (ht : ¬ Claims accountId t)
    (hc : precheckFails accountId x t redis = false) :
    Pool.total (slots accountId) new = 0 ∧ Pool.total (enters accountId) new = 0 ∧
      Pool.total (clamps accountId) new = 0 := by
  cases h <;> simp_all [Claims, precheckFails, slots, enters, clamps]

theorem not_mem_writes (ht : ¬ Claims accountId t) : concurrentKey accountId ∉ writes env x.now t := by
  have hi (id : String) (hid : id ≠ accountId) : concurrentKey accountId ≠ concurrentKey id :=
    fun h => hid (concurrentKey_injective h).symm
  cases t with
  | entering a mi => simp [writes, minuteKey_ne_concurrentKey, hi a.id ht]
  | counting | expiring => simp [writes, usageKey_ne_concurrentKey]
  | releasing id | clamping id => simp [writes, hi id ht]
  | _ => simp [writes]

theorem exists_ok {r : Except String (Option ℤ)} (h : decide (accountId = accountId ∧ r.toOption = none) = false) :
    ∃ c, r = .ok c := by
  cases r with
  | error e => simp [Except.toOption] at h
  | ok c => exact ⟨c, rfl⟩

theorem Covers.checkConcurrency (ha : a.id = accountId) (hli : maxConcurrent a.billedTier = limit)
    (h : Covers accountId limit ⟨⟨s.redis, x.now⟩, pre ++ .concurrencyCheck a mi :: post⟩)
    (hs : Smooth accountId limit ⟨s, pre ++ .concurrencyCheck a mi :: post⟩ x (.concurrencyCheck a mi)) :
    Covers accountId limit ⟨⟨s.redis, x.now⟩, pre ++ [checkConcurrency x a mi s.redis] ++ post⟩ := by
  subst ha
  obtain ⟨c, hr⟩ := exists_ok hs.checked
  have hre : Covers a.id limit ⟨⟨s.redis, x.now⟩, pre ++ [.refused (concurrencyExceeded a.billedTier)] ++ post⟩ :=
    h.of_same rfl rfl (Nat.zero_le _) (Nat.zero_le _) rfl
  obtain ⟨⟨n, hc, hsl, he⟩, hu⟩ := h
  have hro := hs.room (by simp [readsCount])
  rw [CountIs.concurrentCount (s := ⟨s.redis, x.now⟩) hc] at hro
  simp only [Pool.total_append, Pool.total_cons, slots, enters, clamps] at hsl he hu hro
  have hl : n + Pool.total (enters a.id) pre + Pool.total (enters a.id) post < limit →
      Covers a.id limit ⟨⟨s.redis, x.now⟩, pre ++ [.entering a mi] ++ post⟩ := by
    intro hlt
    refine ⟨⟨n, hc, ?_, ?_⟩, ?_⟩ <;>
      simp only [Pool.total_append, Pool.total_cons, Pool.total_nil, slots, enters, clamps, if_true] <;> omega
  have hr' := hr
  unfold readCounter at hr'
  split at hr'
  · cases hr'
  unfold Billing.checkConcurrency
  rw [hr]
  rcases hc with ⟨hn, rfl⟩ | ⟨exp, hso⟩
  · dsimp only at hn
    rw [hn] at hr'
    cases hr'
    have hp : 0 < maxConcurrent a.billedTier := by
      unfold maxConcurrent
      split_ifs <;> decide
    exact hl (by omega)
  · dsimp only at hso
    rw [hso] at hr'
    cases hr'
    dsimp only
    split_ifs with hf
    · exact hre
    · exact hl (by omega)

theorem Covers.enter (ha : a.id = accountId)
    (h : Covers accountId limit ⟨⟨s.redis, x.now⟩, pre ++ .entering a mi :: post⟩) :
    Covers accountId limit
      ⟨⟨execAll x.now (enterCommands a mi) s.redis, x.now⟩, pre ++ [.executing (some a)] ++ post⟩ := by
  obtain ⟨⟨n, hc, hs, he⟩, hu⟩ := h
  simp only [Pool.total_append, Pool.total_cons, slots, enters, clamps, ha, if_true] at hs he hu
  refine ⟨⟨n + 1, hc.enter ha mi, ?_, ?_⟩, ?_⟩ <;>
    simp only [Pool.total_append, Pool.total_cons, Pool.total_nil, slots, enters, clamps, ha, if_true] <;> omega

theorem Covers.release (h : Covers accountId limit ⟨⟨s.redis, x.now⟩, pre ++ .releasing accountId :: post⟩) :
    Covers accountId limit
      ⟨⟨(releaseConcurrency x accountId s.redis).2, x.now⟩, pre ++
        (releaseConcurrency x accountId s.redis).1 ++ post⟩ := by
  unfold releaseConcurrency
  split_ifs
  · exact h.of_same rfl rfl (Nat.zero_le _) (Nat.zero_le _) rfl
  obtain ⟨⟨n, hc, hsl, he⟩, hu⟩ := h
  simp only [Pool.total_append, Pool.total_cons, slots, enters, clamps, if_true] at hsl he hu
  rcases hc with ⟨-, rfl⟩ | ⟨exp, hs⟩
  · omega
  dsimp only at hs
  rw [exec_decr_of_some true hs]
  have hn : ¬ (n : ℤ) - 1 < 0 := by omega
  dsimp only
  rw [if_neg hn]
  have hv : (n : ℤ) - 1 = (n - 1 : ℕ) := by omega
  refine ⟨⟨n - 1, .inr ⟨exp, ?_⟩, ?_, ?_⟩, ?_⟩
  · rw [hv]
    cases exp with
    | none => exact Store.live_of_lasting (Store.set_self ..)
    | some t => exact Store.live_of_lt (Store.set_self ..) (Store.lt_of_live hs rfl)
  · simp only [Pool.total_append, Pool.total_nil]
    omega
  · simp only [Pool.total_append, Pool.total_nil]
    omega
  · simp only [Pool.total_append, Pool.total_nil]
    omega

theorem account_of_mem_dispatch {t' : RequestTask} (ht' : t' ∈ (dispatch env x t s).1)
    (ha : t'.account = some a) : t.account = some a := by
  have hb := dispatch_becomes env x t s
  generalize (dispatch env x t s).1 = new at hb ht'
  cases hb with
  | metered hm =>
    unfold meteredAccount at hm
    split at hm
    · obtain rfl := List.mem_singleton.mp ht'
      exact hm.trans ha
    · cases hm
  | succeeded | failed =>
    rcases List.mem_pair.mp ht' with rfl | rfl
    · cases ha <;> rfl
    · cases ha
  | _ => simp_all [RequestTask.account]

theorem Covers.step (h : Covers accountId limit ⟨s, pre ++ t :: post⟩)
    (hs : Smooth accountId limit ⟨s, pre ++ t :: post⟩ x t)
    (hl : ∀ a, t.account = some a → a.id = accountId → maxConcurrent a.billedTier = limit) :
    Covers accountId limit ⟨(dispatch env x t s).2, pre ++ (dispatch env x t s).1 ++ post⟩ := by
  have hti : Covers accountId limit ⟨⟨s.redis, x.now⟩, pre ++ t :: post⟩ := h.tick hs.clock hs.unexpired
  have hc := hs.checked
  by_cases ht : Claims accountId t
  · cases t with
    | concurrencyCheck a mi => exact hti.checkConcurrency ht (hl a rfl ht) hs
    | entering a mi =>
      have hf : x.fails = false := by simpa [precheckFails, show a.id = accountId from ht] using hc
      unfold dispatch
      rw [hf]
      exact hti.enter ht
    | executing a =>
      cases a with
      | none => exact ht.elim
      | some a =>
        unfold dispatch respond
        dsimp only
        split
        · split_ifs
          · exact hti.of_same rfl rfl (by simp [slots]) (by simp [enters]) (by simp [clamps])
          · exact hti.of_same rfl rfl (by simp [slots]) (by simp [enters]) (by simp [clamps])
        · exact hti.of_same rfl rfl (by simp [slots]) (by simp [enters]) (by simp [clamps])
    | releasing id =>
      cases ht
      exact hti.release
    | clamping id =>
      have hu := h.unclamped
      simp only [Pool.total_append, Pool.total_cons, clamps, show id = accountId from ht, if_true] at hu
      omega
    | _ => exact ht.elim
  · obtain ⟨hsl, he, hcl⟩ := unclaimed_of_becomes (dispatch_becomes env x t s) ht hc
    exact hti.of_same (dispatch_of_not_mem_writes (not_mem_writes ht) s) (dispatch_clock s)
      (hsl.le.trans (Nat.zero_le _)) (he.le.trans (Nat.zero_le _)) hcl

end Run

def AllLimited (accountId : String) (limit : ℕ) (tasks : List RequestTask) : Prop :=
  ∀ t ∈ tasks, ∀ a, t.account = some a → a.id = accountId → maxConcurrent a.billedTier = limit

theorem AllLimited.step {accountId : String} {limit : ℕ} {pr po : List RequestTask} {t : RequestTask}
    (h : AllLimited accountId limit (pr ++ t :: po)) (env : BillingEnv) (x : BillingTurn) (s : BillingState) :
    AllLimited accountId limit (pr ++ (dispatch env x t s).1 ++ po) := by
  refine Pool.forall_mem_step h fun t' ht' a ha hid => ?_
  exact h t (by simp) a (account_of_mem_dispatch ht' ha) hid

/-- In every run of smooth turns the counter of the account is at least the number of its requests that are executing,
and that number is at most the limit of its tier. -/
theorem concurrency_limited (env : BillingEnv) {accountId : String} {limit : ℕ} {requests : List BilledRequest}
    (hlimit : ∀ r ∈ requests, ∀ a, r.account = some a → a.id = accountId → maxConcurrent a.billedTier = limit)
    {redis : Store} {clock : ℕ} (hfresh : redis (concurrentKey accountId) = none) {schedule : List (ℕ × BillingTurn)}
    (hrun : Pool.Permits (dispatch env) (Smooth accountId limit) ⟨⟨redis, clock⟩, requests.map .arrived⟩ schedule)
    {p : BillingPool} (hp : p = Pool.run (dispatch env) ⟨⟨redis, clock⟩, requests.map .arrived⟩ schedule) :
    ((p.tasks.filter (runsFor accountId)).length : ℤ) ≤ concurrentCount accountId p.state ∧
      (p.tasks.filter (runsFor accountId)).length ≤ limit := by
  have hc : Covers accountId limit p ∧ AllLimited accountId limit p.tasks := by
    rw [hp]
    refine Pool.run_invariant (I := fun p => Covers accountId limit p ∧ AllLimited accountId limit p.tasks) ?_ ?_ hrun
    · rintro s before t after x ⟨hc, hal⟩ hs
      exact ⟨hc.step hs (hal t (by simp)), hal.step env x s⟩
    · refine ⟨⟨⟨0, .inl ⟨Store.live_of_none hfresh, rfl⟩, ?_, ?_⟩, ?_⟩, List.forall_mem_map.mpr hlimit⟩
      · exact (total_arrived (fun _ => rfl) requests).le
      · rw [total_arrived fun _ => rfl]
        exact Nat.zero_le limit
      · exact total_arrived (fun _ => rfl) requests
  obtain ⟨n, hco, hsl, he⟩ := hc.1.count
  have hru : ∀ t, runsFor accountId t = true → 1 ≤ slots accountId t := by
    intro t ht
    cases t with
    | executing a =>
      cases a with
      | none => cases ht
      | some a => exact (if_pos (of_decide_eq_true ht)).ge
    | _ => cases ht
  have hle := Pool.length_filter_le_total hru p.tasks
  rw [hco.concurrentCount]
  omega

def plainBilling : BillingEnv := { billingEnabled := true, yearMonth := fun _ => (2026, 1) }

def trialRun (requests : ℕ) (schedule : List (ℕ × BillingTurn)) : BillingPool :=
  Pool.run (dispatch plainBilling) ⟨⟨Store.empty, 0⟩, List.replicate requests (.arrived trialRequest)⟩ schedule

/-- Eleven requests that all read the counter before the first of them increments it are executed together. A request
whose check fails is executed without a slot. The counter of a request that takes more than ten minutes expires. -/
theorem concurrency_exceeded :
    ((trialRun 11 (List.replicate 4 ((List.range 11).map fun i => (i, { now := 0 }))).flatten).tasks.filter
        (runsFor "acme")).length = 11 ∧ maxConcurrent "trial" = 10 ∧
      ((trialRun 1 [(0, { now := 0 }), (0, { now := 1, fails := true })]).tasks.filter (runsFor "acme")).length = 1 ∧
      concurrentCount "acme" (trialRun 1 [(0, { now := 0 }), (0, { now := 1, fails := true })]).state = 0 ∧
      ((trialRun 2 [(0, { now := 0 }), (0, { now := 1 }), (0, { now := 2 }), (0, { now := 3 }),
        (1, { now := 601 * second })]).tasks.filter (runsFor "acme")).length = 1 ∧
      concurrentCount "acme" (trialRun 2 [(0, { now := 0 }), (0, { now := 1 }), (0, { now := 2 }), (0, { now := 3 }),
        (1, { now := 601 * second })]).state = 0 := by
  decide +kernel

theorem two_requests_covered :
    ((trialRun 2 [(0, { now := 0 }), (0, { now := 1 }), (0, { now := 2 }), (0, { now := 3 }), (1, { now := 4 }),
      (1, { now := 5 }), (1, { now := 6 }), (1, { now := 7 })]).tasks.filter (runsFor "acme")).length = 2 ∧
    2 ≤ concurrentCount "acme" (trialRun 2 [(0, { now := 0 }), (0, { now := 1 }), (0, { now := 2 }),
      (0, { now := 3 }),
      (1, { now := 4 }), (1, { now := 5 }), (1, { now := 6 }), (1, { now := 7 })]).state := by
  have hrn : Pool.Permits (dispatch plainBilling) (Smooth "acme" 10)
      ⟨⟨Store.empty, 0⟩, (List.replicate 2 trialRequest).map .arrived⟩
      [(0, { now := 0 }), (0, { now := 1 }), (0, { now := 2 }), (0, { now := 3 }),
        (1, { now := 4 }), (1, { now := 5 }),
        (1, { now := 6 }), (1, { now := 7 })] := by
    refine ⟨?_, ?_, ?_, ?_, ?_, ?_, ?_, ?_, trivial⟩ <;> decide +kernel
  have hl : ∀ r ∈ List.replicate 2 trialRequest, ∀ a, r.account = some a → a.id = "acme" →
      maxConcurrent a.billedTier = 10 := by
    intro r hr a ha _
    rw [List.eq_of_mem_replicate hr] at ha
    cases ha
    decide +kernel
  have hc := (concurrency_limited plainBilling hl rfl hrn rfl).1
  exact ⟨by decide +kernel, le_trans (by decide +kernel) hc⟩

end McpworksApi.Billing
