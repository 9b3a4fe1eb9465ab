import McpworksApi.Billing.Middleware

/-! The monthly quota. The middleware meters a request for the account that `request.state` holds, but no other code
puts one there: the transport finds the account of an API key after the middleware has passed the request on. -/

namespace McpworksApi.Billing

open Redis

def succeeded : RequestTask → Bool
  | .counting _ _ | .expiring _ _ _ => true
  | .answered (.ok status) => status < 400
  | _ => false

def inFlight : RequestTask → ℕ
  | .rateCheck _ _ | .concurrencyCheck _ _ | .entering _ _ | .executing _ | .counting _ _ => 1
  | _ => 0

def countedSuccess : RequestTask → ℕ
  | .expiring _ _ _ => 1
  | .answered (.ok status) => if status < 400 then 1 else 0
  | _ => 0

def usageCount (env : BillingEnv) (accountId : String) (now : ℕ) (redis : Store) : ℤ :=
  match redis.live now (usageKey env accountId now) with
  | some ⟨.int n, _⟩ => n
  | _ => 0

def isArrival : RequestTask → Bool
  | .arrived _ => true
  | _ => false

/-- The turns of a month in which Redis does not fail and a request that arrives is refused, or there is room for it and
for all that are in flight. -/
def Orderly (env : BillingEnv) (month : ℕ × ℕ) (accountId : String) (limit : ℕ) (p : BillingPool) (x : BillingTurn)
    (t : RequestTask) : Prop :=
  env.yearMonth x.now = month ∧ x.fails = false ∧
    (isArrival t = true → limit ≤ usageCount env accountId x.now p.state.redis ∨
      usageCount env accountId x.now p.state.redis + Pool.total inFlight p.tasks < limit)

instance (env : BillingEnv) (month : ℕ × ℕ) (accountId : String) (limit : ℕ) (p : BillingPool) (x : BillingTurn)
    (t : RequestTask) : Decidable (Orderly env month accountId limit p x t) := inferInstanceAs (Decidable (_ ∧ _))

def countsUsage : RequestTask → Bool
  | .counting _ _ | .expiring _ _ _ => true
  | _ => false

def MeteredFor (env : BillingEnv) (month : ℕ × ℕ) (accountId : String) (limit : ℕ) : RequestTask → Prop
  | .arrived r => ∃ a, meteredAccount env r = some a ∧ a.id = accountId ∧ tierLimit a.billedTier = limit
  | .rateCheck a _ | .concurrencyCheck a _ | .entering a _ | .counting a _ => a.id = accountId
  | .expiring a countedAt _ => a.id = accountId ∧ env.yearMonth countedAt = month
  | .executing a => ∃ b, a = some b ∧ b.id = accountId
  | .releasing _ | .clamping _ | .refused _ | .answered _ => True

section Usage

variable {env : BillingEnv} {key : String} {month : ℕ × ℕ} {n now : ℕ} {redis redis' : Store}

def UsageIs (env : BillingEnv) (month : ℕ × ℕ) (key : String) (redis : Store) (n : ℕ) : Prop :=
  redis key = none ∧ n = 0 ∨ ∃ expiry, redis key = some ⟨.int n, expiry⟩ ∧
    ∀ t, expiry = some t → ∃ now, env.yearMonth now = month ∧ t = endOfNextMonth now

theorem UsageIs.congr (h : UsageIs env month key redis n) (hs : redis' key = redis key) :
    UsageIs env month key redis' n := by
  unfold UsageIs at h ⊢
  rw [hs]
  exact h

variable (hc : ∀ t u, env.yearMonth t = env.yearMonth u → t < endOfNextMonth u) (hm : env.yearMonth now = month)

include hc hm

theorem UsageIs.live (h : UsageIs env month key redis n) :
    redis.live now key = none ∧ n = 0 ∨ ∃ exp, redis.live now key = some ⟨.int n, exp⟩ ∧
      ∀ t, exp = some t → ∃ now, env.yearMonth now = month ∧ t = endOfNextMonth now := by
  rcases h with ⟨hn, rfl⟩ | ⟨exp, hs, hl⟩
  · exact .inl ⟨Store.live_of_none hn, rfl⟩
  · refine .inr ⟨exp, ?_, hl⟩
    cases exp with
    | none => exact Store.live_of_lasting hs
    | some t =>
      obtain ⟨u, hu, rfl⟩ := hl t rfl
      exact Store.live_of_lt hs (hc now u (hm.trans hu.symm))

theorem UsageIs.incr (h : UsageIs env month key redis n) :
    ∃ redis', exec true now (.incr key) redis = (.int (n + 1 : ℕ), redis') ∧
      UsageIs env month key redis' (n + 1) := by
  rcases h.live hc hm with ⟨hn, rfl⟩ | ⟨exp, hs, hl⟩
  · rw [exec_incr_of_none true hn]
    exact ⟨_, rfl, .inr ⟨none, Store.set_self .., fun t ht => by cases ht⟩⟩
  · rw [exec_incr_of_some true hs]
    exact ⟨_, rfl, .inr ⟨exp, Store.set_self .., hl⟩⟩

theorem UsageIs.expireat (h : UsageIs env month key redis n) :
    UsageIs env month key (exec true now (.expireat key (endOfNextMonth now)) redis).2 n := by
  rcases h.live hc hm with ⟨hn, rfl⟩ | ⟨exp, hs, -⟩
  · simp only [exec, hn]
    exact h
  · simp only [exec, hs]
    refine .inr ⟨_, Store.set_self .., fun t ht => ?_⟩
    cases ht
    exact ⟨now, hm, rfl⟩

end Usage

section Run

variable {env : BillingEnv} {accountId : String} {month : ℕ × ℕ} {limit : ℕ} {s : BillingState} {x : BillingTurn}
  {pre post : List RequestTask} {t : RequestTask}

def monthKey (accountId : String) (month : ℕ × ℕ) : String :=
  "usage:" ++ accountId ++ ":" ++ toString month.1 ++ ":" ++ toString month.2

theorem usageKey_of_month (accountId : String) {now : ℕ} (h : env.yearMonth now = month) :
    usageKey env accountId now = monthKey accountId month := by
  unfold usageKey monthKey
  rw [h]

/-- The counter covers the successes, and there is room for the requests in flight. -/
structure Metered (env : BillingEnv) (month : ℕ × ℕ) (accountId : String) (limit : ℕ) (p : BillingPool) : Prop where
  usage : ∃ n, UsageIs env month (monthKey accountId month) p.state.redis n ∧
    Pool.total countedSuccess p.tasks ≤ n ∧ n + Pool.total inFlight p.tasks ≤ limit
  tasks : ∀ t ∈ p.tasks, MeteredFor env month accountId limit t

theorem Metered.tasks_of (h : Metered env month accountId limit ⟨s, pre ++ t :: post⟩) {new : List RequestTask}
    (hn : ∀ t' ∈ new, MeteredFor env month accountId limit t') :
    ∀ t' ∈ pre ++ new ++ post, MeteredFor env month accountId limit t' := by
  exact Pool.forall_mem_step h.tasks hn

variable {a : StateAccount} {redis : Store} {clock : ℕ}

theorem Metered.of_same {new : List RequestTask}
    (h : Metered env month accountId limit ⟨s, pre ++ t :: post⟩)
    (hr : redis (monthKey accountId month) = s.redis (monthKey accountId month))
    (hc : Pool.total countedSuccess new ≤ countedSuccess t) (hf : Pool.total inFlight new ≤ inFlight t)
    (hn : ∀ t' ∈ new, MeteredFor env month accountId limit t') :
    Metered env month accountId limit ⟨⟨redis, clock⟩, pre ++ new ++ post⟩ := by
  refine ⟨?_, h.tasks_of hn⟩
  obtain ⟨n, hu, hc', hf'⟩ := h.usage
  simp only [Pool.total_append, Pool.total_cons] at hc' hf'
  refine ⟨n, hu.congr hr, ?_, ?_⟩ <;> simp only [Pool.total_append] <;> omega

theorem Metered.arrive {r : BilledRequest} (h : Metered env month accountId limit ⟨s, pre ++ .arrived r :: post⟩)
    (hc : ∀ t u, env.yearMonth t = env.yearMonth u → t < endOfNextMonth u)
    (ho : Orderly env month accountId limit ⟨s, pre ++ .arrived r :: post⟩ x (.arrived r)) :
    Metered env month accountId limit ⟨⟨s.redis, x.now⟩, pre ++ [arrive env x r s.redis] ++ post⟩ := by
  obtain ⟨hm, hfa, hr⟩ := ho
  obtain ⟨a, ha, hid, hl⟩ := h.tasks (.arrived r) (by simp)
  obtain ⟨n, hu, hco, hf⟩ := h.usage
  have hk := usageKey_of_month accountId hm
  have hre : ∃ cur, readCounter x (usageKey env a.id x.now) s.redis = .ok cur ∧ cur.getD 0 = n := by
    unfold readCounter
    rw [hid, hk, hfa]
    rcases hu.live hc hm with ⟨hn, rfl⟩ | ⟨exp, hs, -⟩
    · rw [hn]
      exact ⟨none, rfl, rfl⟩
    · rw [hs]
      exact ⟨some n, rfl, rfl⟩
  have hcn : usageCount env accountId x.now s.redis = n := by
    unfold usageCount
    rw [hk]
    rcases hu.live hc hm with ⟨hn, rfl⟩ | ⟨exp, hs, -⟩
    · rw [hn]
      rfl
    · rw [hs]
  obtain ⟨cur, hre, hcu⟩ := hre
  have hq : checkQuota env x a s.redis = .ok ((n : ℤ), (limit : ℤ)) := by
    unfold checkQuota
    rw [hre, hl]
    exact congrArg (fun us => Except.ok (us, (limit : ℤ))) hcu
  have har : Billing.arrive env x r s.redis =
      if (limit : ℤ) ≠ -1 ∧ (limit : ℤ) ≤ n then .refused (quotaExceeded n limit a.billedTier)
      else .rateCheck a (x.now / (60 * second)) := by
    unfold Billing.arrive
    rw [ha]
    dsimp only
    rw [hq]
  rw [har]
  have hr := hr rfl
  dsimp only at hr
  rw [hcn] at hr
  simp only [Pool.total_append, Pool.total_cons] at hco hf hr
  split_ifs with hfu
  · exact h.of_same rfl (Nat.zero_le _) (Nat.zero_le _) (List.forall_mem_singleton.mpr trivial)
  · refine ⟨⟨n, hu, ?_, ?_⟩, h.tasks_of (List.forall_mem_singleton.mpr hid)⟩
    · simp only [Pool.total_append, Pool.total_cons, Pool.total_nil, countedSuccess] at hco ⊢
      omega
    · simp only [Pool.total_append, Pool.total_cons, Pool.total_nil, inFlight] at hf hr ⊢
      omega

theorem metered_of_becomes {new : List RequestTask} (h : Becomes env x redis t new)
    (hm : MeteredFor env month accountId limit t) (ht : isArrival t = false) (ha : countsUsage t = false) :
    Pool.total countedSuccess new ≤ countedSuccess t ∧ Pool.total inFlight new ≤ inFlight t ∧
      ∀ t' ∈ new, MeteredFor env month accountId limit t' := by
  cases h with
  | failed h =>
    rename_i response
    cases response with
    | error e => simp [MeteredFor, countedSuccess, inFlight]
    | ok status => simp_all [MeteredFor, countedSuccess, inFlight]
  | _ => simp_all [MeteredFor, countedSuccess, inFlight, isArrival, countsUsage]

theorem monthKey_not_mem_writes (h : countsUsage t = false) : monthKey accountId month ∉ writes env x.now t := by
  have hc (id : String) : monthKey accountId month ≠ concurrentKey id :=
    (usageKey_ne_concurrentKey ⟨true, fun _ => month⟩ id accountId 0).symm
  have hm (id : String) (mi : ℕ) : monthKey accountId month ≠ minuteKey id mi :=
    minuteKey_ne_usageKey ⟨true, fun _ => month⟩ accountId id 0 mi
  cases t with
  | counting | expiring => cases h
  | entering | releasing | clamping => simp [writes, hc, hm]
  | _ => simp [writes]

theorem Metered.count {st : ℕ}
    (h : Metered env month accountId limit ⟨s, pre ++ .counting a st :: post⟩)
    (hc : ∀ t u, env.yearMonth t = env.yearMonth u → t < endOfNextMonth u)
    (hm : env.yearMonth x.now = month) (hf : x.fails = false) :
    Metered env month accountId limit ⟨⟨(incrementUsage env x a st s.redis).2, x.now⟩,
      pre ++ [(incrementUsage env x a st s.redis).1] ++ post⟩ := by
  have ha : a.id = accountId := h.tasks (.counting a st) (by simp)
  obtain ⟨n, hu, hco, hfl⟩ := h.usage
  obtain ⟨redis', he, hu'⟩ := hu.incr hc hm
  have ho : inFlight (.counting a st) = 1 := rfl
  simp only [Pool.total_append, Pool.total_cons, ho] at hco hfl
  have hd : ∀ t', countedSuccess t' ≤ 1 → inFlight t' = 0 → MeteredFor env month accountId limit t' →
      Metered env month accountId limit ⟨⟨redis', x.now⟩, pre ++ [t'] ++ post⟩ := by
    intro t' hle hz hme
    refine ⟨⟨n + 1, hu', ?_, ?_⟩, h.tasks_of (List.forall_mem_singleton.mpr hme)⟩
    · simp only [Pool.total_append, Pool.total_cons, Pool.total_nil]
      omega
    · simp only [Pool.total_append, Pool.total_cons, Pool.total_nil, hz]
      omega
  have han : countedSuccess (.answered (.ok st)) ≤ 1 := by
    change (if st < 400 then 1 else 0) ≤ 1
    split_ifs <;> omega
  unfold incrementUsage
  rw [hf, ha, usageKey_of_month accountId hm, he]
  simp only [Bool.false_eq_true, if_false]
  split_ifs
  · exact hd _ le_rfl rfl ⟨ha, hm⟩
  · exact hd _ han rfl trivial

theorem Metered.step (h : Metered env month accountId limit ⟨s, pre ++ t :: post⟩)
    (hc : ∀ t u, env.yearMonth t = env.yearMonth u → t < endOfNextMonth u)
    (ho : Orderly env month accountId limit ⟨s, pre ++ t :: post⟩ x t) :
    Metered env month accountId limit ⟨(dispatch env x t s).2, pre ++ (dispatch env x t s).1 ++ post⟩ := by
  have hm := h.tasks t (by simp)
  have hf := ho.2.1
  cases hcu : countsUsage t with
  | false =>
    cases har : isArrival t with
    | false =>
      obtain ⟨hsu, hfl, hne⟩ := metered_of_becomes (dispatch_becomes env x t s) hm har hcu
      exact h.of_same (dispatch_of_not_mem_writes (monthKey_not_mem_writes hcu) s) hsu hfl hne
    | true =>
      cases t with
      | arrived r => exact h.arrive hc ho
      | _ => cases har
  | true =>
    cases t with
    | counting a status => exact h.count hc ho.1 hf
    | expiring a time status =>
      obtain ⟨ha, hti⟩ := hm
      obtain ⟨n, hu, hco, hfl⟩ := h.usage
      have hu' := hu.expireat hc ho.1
      unfold dispatch
      dsimp only
      rw [hf, ha, usageKey_of_month accountId hti]
      refine ⟨⟨n, hu', ?_, ?_⟩, h.tasks_of (List.forall_mem_singleton.mpr trivial)⟩
      · simp only [Pool.total_append, Pool.total_cons, Pool.total_nil, countedSuccess] at hco ⊢
        split_ifs <;> omega
      · simp only [Pool.total_append, Pool.total_cons, Pool.total_nil, inFlight] at hfl ⊢
        omega
    | _ => cases hcu

theorem Metered.succeeded_le {p : BillingPool} (h : Metered env month accountId limit p) :
    (p.tasks.filter succeeded).length ≤ limit := by
  obtain ⟨n, -, hc, hf⟩ := h.usage
  have hw : ∀ t, succeeded t = true → 1 ≤ countedSuccess t + inFlight t := by
    intro t ht
    cases t with
    | counting | expiring => exact le_rfl
    | answered resp =>
      cases resp with
      | error e => cases ht
      | ok status => exact (if_pos (of_decide_eq_true ht)).ge
    | _ => cases ht
  have hle := Pool.length_filter_le_total hw p.tasks
  rw [Pool.total_add] at hle
  omega

end Run

def isRequest : RequestTask → ℕ
  | .releasing _ | .clamping _ => 0
  | _ => 1

theorem total_isRequest_dispatch (env : BillingEnv) (x : BillingTurn) (t : RequestTask) (s : BillingState) :
    Pool.total isRequest (dispatch env x t s).1 = isRequest t := by
  have hb := dispatch_becomes env x t s
  generalize (dispatch env x t s).1 = new at hb
  cases hb <;> rfl

theorem succeeded_le_requests (env : BillingEnv) (s : BillingState) (reqs : List BilledRequest)
    (sch : List (ℕ × BillingTurn)) :
    ((Pool.run (dispatch env) ⟨s, reqs.map .arrived⟩ sch).tasks.filter succeeded).length ≤ reqs.length := by
  have hto : Pool.total isRequest (Pool.run (dispatch env) ⟨s, reqs.map .arrived⟩ sch).tasks =
      reqs.length := by
    refine Pool.run_invariant (I := fun p => Pool.total isRequest p.tasks = reqs.length) ?_ ?_
      (Pool.permits_of_forall (fun _ _ _ => trivial) _ sch)
    · intro s before t after x h _
      simp only [Pool.total_append, Pool.total_cons, total_isRequest_dispatch] at h ⊢
      omega
    · rw [Pool.total_eq_length, List.length_map]
      exact List.forall_mem_map.mpr fun _ _ => rfl
  rw [← hto]
  refine Pool.length_filter_le_total (fun t ht => ?_) _
  cases t with
  | releasing | clamping => cases ht
  | _ => exact le_rfl

/-- At most as many requests succeed in a month as the tier allows, if no more are sent, or if all of them come with
the account in `request.state` and the turns are orderly. -/
theorem monthly_quota_kept (env : BillingEnv)
    (hcalendar : ∀ t u, env.yearMonth t = env.yearMonth u → t < endOfNextMonth u) {month : ℕ × ℕ} {accountId : String}
    {limit : ℕ} {requests : List BilledRequest} {redis : Store} {clock : ℕ} {schedule : List (ℕ × BillingTurn)}
    (h : requests.length ≤ limit ∨
      redis (monthKey accountId month) = none ∧
      (∀ r ∈ requests, ∃ a, meteredAccount env r = some a ∧ a.id = accountId ∧ tierLimit a.billedTier = limit) ∧
      Pool.Permits (dispatch env) (Orderly env month accountId limit) ⟨⟨redis, clock⟩,
        requests.map .arrived⟩ schedule) :
    ((Pool.run (dispatch env) ⟨⟨redis, clock⟩, requests.map .arrived⟩ schedule).tasks.filter
      succeeded).length ≤ limit := by
  rcases h with hf | ⟨hfr, hm, hru⟩
  · exact (succeeded_le_requests env ⟨redis, clock⟩ requests schedule).trans hf
  · have hs : Metered env month accountId limit ⟨⟨redis, clock⟩, requests.map .arrived⟩ := by
      refine ⟨⟨0, .inl ⟨hfr, rfl⟩, ?_, ?_⟩, List.forall_mem_map.mpr hm⟩
      · exact (total_arrived (fun _ => rfl) requests).le
      · rw [total_arrived fun _ => rfl]
        exact Nat.zero_le limit
    have hk := Pool.run_invariant (I := Metered env month accountId limit)
      (fun _ _ _ _ _ h hx => h.step hcalendar hx) hs hru
    exact hk.succeeded_le

/-- `request.state` as the routing middleware leaves it for a request to the run endpoint, with whatever API key: the
transport authenticates the request after the billing middleware. -/
def routedRequest : BilledRequest := { endpointType := some "run", account := none }

def oneByOne (first : ℕ) : ℕ → List (ℕ × BillingTurn)
  | 0 => []
  | n + 1 => (first, { now := 0 }) :: (first, { now := 0 }) :: oneByOne (first + 1) n

theorem run_oneByOne (env : BillingEnv) (redis : Store) (ansd : List RequestTask) (n : ℕ) :
    Pool.run (dispatch env) ⟨⟨redis, 0⟩, ansd ++ List.replicate n (.arrived routedRequest)⟩
        (oneByOne ansd.length n) =
      ⟨⟨redis, 0⟩, ansd ++ List.replicate n (.answered (.ok 200))⟩ := by
  have hu : meteredAccount env routedRequest = none := by
    unfold meteredAccount
    split <;> rfl
  induction n generalizing ansd with
  | zero => rfl
  | succ n ih =>
    have hf : (dispatch env { now := 0 } (.arrived routedRequest) ⟨redis, 0⟩) = ([.executing none], ⟨redis, 0⟩) := by
      unfold dispatch arrive
      simp only [hu]
    have hl : ansd.length + 1 = (ansd ++ [RequestTask.answered (.ok 200)]).length := by simp
    rw [List.replicate_succ, oneByOne]
    change Pool.run (dispatch env) (Pool.step (dispatch env) (Pool.step (dispatch env) _ _) _) _ = _
    rw [Pool.step_at, hf]
    dsimp only
    rw [List.append_assoc, List.singleton_append, Pool.step_at]
    change Pool.run (dispatch env) ⟨⟨redis, 0⟩, ansd ++ [.answered (.ok 200)] ++ _⟩ _ = _
    rw [hl, ih, List.append_assoc, List.singleton_append, List.replicate_succ]

def evenMonths : BillingEnv := { billingEnabled := true, yearMonth := fun t => (t / (31 * 86400 * second), 1) }

/-- One request more than the trial tier allows in a month is sent, and all succeed. -/
theorem quota_not_enforced :
    (∀ it ∈ oneByOne 0 125001, it.2.fails = false ∧ evenMonths.yearMonth it.2.now = (0, 1)) ∧
      tierLimit "trial" = 125000 ∧
      ((Pool.run (dispatch evenMonths) ⟨⟨Store.empty, 0⟩, List.replicate 125001 (.arrived routedRequest)⟩
        (oneByOne 0 125001)).tasks.filter succeeded).length = 125001 := by
  have ht : ∀ n first, ∀ it ∈ oneByOne first n, it.2 = { now := 0 } := by
    intro n
    induction n with
    | zero => exact fun _ => List.forall_mem_nil _
    | succ n ih =>
      intro first
      exact List.forall_mem_cons.mpr ⟨rfl, List.forall_mem_cons.mpr ⟨rfl, ih (first + 1)⟩⟩
  refine ⟨fun it hit => ?_, rfl, ?_⟩
  · rw [ht 125001 0 it hit]
    exact ⟨rfl, rfl⟩
  · have hr := run_oneByOne evenMonths Store.empty [] 125001
    rw [List.nil_append, List.nil_append] at hr
    change ((Pool.run (dispatch evenMonths) _ (oneByOne ([] : List RequestTask).length 125001)).tasks.filter
      succeeded).length = 125001
    rw [hr, List.filter_replicate_of_pos rfl, List.length_replicate]

theorem evenMonths_calendar : ∀ t u, evenMonths.yearMonth t = evenMonths.yearMonth u → t < endOfNextMonth u := by
  intro t u h
  have hm : t / (31 * 86400 * second) = u / (31 * 86400 * second) := congrArg Prod.fst h
  unfold endOfNextMonth
  unfold second at hm ⊢
  omega

theorem metered_request_counted : ((Pool.run (dispatch evenMonths) ⟨⟨Store.empty, 0⟩, [.arrived trialRequest]⟩
        (List.replicate 6 (0, { now := 0 }))).tasks.filter succeeded).length = 1 ∧
      ((Pool.run (dispatch evenMonths) ⟨⟨Store.empty, 0⟩, [.arrived trialRequest]⟩
        (List.replicate 6 (0, { now := 0 }))).tasks.filter succeeded).length ≤ 125000 := by
  have hr : Pool.Permits (dispatch evenMonths) (Orderly evenMonths (0, 1) "acme" 125000)
      ⟨⟨Store.empty, 0⟩, [trialRequest].map .arrived⟩ (List.replicate 6 (0, { now := 0 })) := by
    refine ⟨?_, ?_, ?_, ?_, ?_, ?_, trivial⟩ <;> decide +kernel
  have hm : ∀ r ∈ [trialRequest], ∃ a, meteredAccount evenMonths r = some a ∧ a.id = "acme" ∧
      tierLimit a.billedTier = (125000 : ℕ) :=
    List.forall_mem_singleton.mpr ⟨_, rfl, rfl, rfl⟩
  exact ⟨by decide +kernel, monthly_quota_kept evenMonths evenMonths_calendar (.inr ⟨rfl, hm, hr⟩)⟩

end McpworksApi.Billing
