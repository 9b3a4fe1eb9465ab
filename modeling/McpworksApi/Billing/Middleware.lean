import McpworksApi.Py.Str
import McpworksApi.Session.Tasks
import McpworksApi.Store.Redis

/-! `BillingMiddleware.dispatch` with `check_execution_rate` and `release_concurrency`. Requests take turns at every
`await`: each Redis command or pipeline is one turn, and so is the end of the request that is passed on. -/

namespace McpworksApi.Billing

open Py Redis

def baseTier (tier : String) : String := if endsWith tier "-agent" then replace tier "-agent" "" else tier

def executionsPerMinute (tier : String) : ℕ :=
  if baseTier tier = "enterprise" then 300 else if baseTier tier = "dedicated" then 500 else 100

def maxConcurrent (tier : String) : ℕ :=
  if baseTier tier = "pro" then 15
  else if baseTier tier = "enterprise" then 50
  else if baseTier tier = "dedicated" then 100
  else 10

def tierLimit (tier : String) : ℤ :=
  if tier = "pro" ∨ tier = "pro-agent" then 250000
  else if tier = "enterprise" ∨ tier = "enterprise-agent" then 1000000
  else if tier = "dedicated" ∨ tier = "dedicated-agent" then -1
  else 125000

structure StateAccount where
  id : String
  effectiveTier : Option String := none
  tier : String
  deriving DecidableEq

def StateAccount.billedTier (a : StateAccount) : String :=
  match a.effectiveTier with
  | none => a.tier
  | some tier => if tier = "" then a.tier else tier

structure BilledRequest where
  endpointType : Option String
  account : Option StateAccount
  deriving DecidableEq

structure Refusal where
  code : String
  message : String
  tier : String
  usage : Option ℤ := none
  limit : Option ℤ := none
  retryAfter : Option ℕ := none
  deriving DecidableEq

inductive RequestTask
  | arrived (r : BilledRequest)
  | rateCheck (a : StateAccount) (minute : ℕ)
  | concurrencyCheck (a : StateAccount) (minute : ℕ)
  | entering (a : StateAccount) (minute : ℕ)
  | executing (a : Option StateAccount)
  | counting (a : StateAccount) (status : ℕ)
  -- `countedAt` is when `month_key` was computed: the expiry is set on the key that was counted.
  | expiring (a : StateAccount) (countedAt status : ℕ)
  | releasing (accountId : String)
  | clamping (accountId : String)
  | refused (refusal : Refusal)
  | answered (response : Except String ℕ)
  deriving DecidableEq

def RequestTask.account : RequestTask → Option StateAccount
  | .arrived r => r.account
  | .rateCheck a _ | .concurrencyCheck a _ | .entering a _ | .counting a _ | .expiring a _ _ => some a
  | .executing a => a
  | _ => none

structure BillingState where
  redis : Store
  clock : ℕ

structure BillingTurn where
  now : ℕ
  fails : Bool := false
  response : Except String ℕ := .ok 200

structure BillingEnv where
  billingEnabled : Bool
  yearMonth : ℕ → ℕ × ℕ

def minuteKey (accountId : String) (minute : ℕ) : String := "execrate:" ++ accountId ++ ":" ++ toString minute

def concurrentKey (accountId : String) : String := "concurrent:" ++ accountId

def usageKey (env : BillingEnv) (accountId : String) (now : ℕ) : String :=
  "usage:" ++ accountId ++ ":" ++ toString (env.yearMonth now).1 ++ ":" ++ toString (env.yearMonth now).2

def endOfNextMonth (now : ℕ) : ℕ := (now / second + 62 * 86400) * second

def readCounter (x : BillingTurn) (key : String) (redis : Store) : Except String (Option ℤ) :=
  if x.fails then .error "redis failed"
  else
    match redis.live x.now key with
    | none => .ok none
    | some ⟨.int n, _⟩ => .ok (some n)
    | some ⟨.str _, _⟩ => .error "invalid literal for int()"

def execAll (now : ℕ) (commands : List Command) (redis : Store) : Store :=
  commands.foldl (fun redis c => (exec true now c redis).2) redis

def checkQuota (env : BillingEnv) (x : BillingTurn) (a : StateAccount) (redis : Store) : Except String (ℤ × ℤ) := do
  let usage ← readCounter x (usageKey env a.id x.now) redis
  pure (usage.getD 0, tierLimit a.billedTier)

def quotaExceeded (usage limit : ℤ) (tier : String) : Refusal :=
  { code := "QUOTA_EXCEEDED", message := "Monthly execution limit (" ++ toString limit ++ ") exceeded", tier,
    usage := some usage, limit := some limit }

def rateExceeded (tier : String) : Refusal :=
  { code := "EXECUTION_RATE_EXCEEDED",
    message := "Execution rate limit (" ++ toString (executionsPerMinute tier) ++ "/min) exceeded", tier,
    retryAfter := some 60 }

def concurrencyExceeded (tier : String) : Refusal :=
  { code := "CONCURRENCY_LIMIT_EXCEEDED",
    message := "Concurrency limit (" ++ toString (maxConcurrent tier) ++ ") exceeded", tier, retryAfter := some 5 }

def meteredAccount (env : BillingEnv) (r : BilledRequest) : Option StateAccount :=
  if env.billingEnabled ∧ r.endpointType = some "run" then r.account else none

def enterCommands (a : StateAccount) (minute : ℕ) : List Command :=
  [.incr (minuteKey a.id minute), .expire (minuteKey a.id minute) 120, .incr (concurrentKey a.id),
    .expire (concurrentKey a.id) 600]

def arrive (env : BillingEnv) (x : BillingTurn) (r : BilledRequest) (redis : Store) : RequestTask :=
  match meteredAccount env r with
  | none => .executing none
  | some a =>
    match checkQuota env x a redis with
    | .ok (usage, limit) =>
      if limit ≠ -1 ∧ limit ≤ usage then .refused (quotaExceeded usage limit a.billedTier)
      else .rateCheck a (x.now / (60 * second))
    | .error _ => .rateCheck a (x.now / (60 * second))

def checkRate (x : BillingTurn) (a : StateAccount) (minute : ℕ) (redis : Store) : RequestTask :=
  match readCounter x (minuteKey a.id minute) redis with
  | .error _ => .executing (some a)
  | .ok none => .concurrencyCheck a minute
  | .ok (some current) =>
    if (executionsPerMinute a.billedTier : ℤ) ≤ current then .refused (rateExceeded a.billedTier)
    else .concurrencyCheck a minute

def checkConcurrency (x : BillingTurn) (a : StateAccount) (minute : ℕ) (redis : Store) : RequestTask :=
  match readCounter x (concurrentKey a.id) redis with
  | .error _ => .executing (some a)
  | .ok none => .entering a minute
  | .ok (some current) =>
    if (maxConcurrent a.billedTier : ℤ) ≤ current then .refused (concurrencyExceeded a.billedTier)
    else .entering a minute

def respond (a : Option StateAccount) (response : Except String ℕ) : List RequestTask :=
  match a with
  | none => [.answered response]
  | some a =>
    match response with
    | .ok status => [if status < 400 then .counting a status else .answered response, .releasing a.id]
    | .error _ => [.answered response, .releasing a.id]

def incrementUsage (env : BillingEnv) (x : BillingTurn) (a : StateAccount) (status : ℕ) (redis : Store) :
    RequestTask × Store :=
  if x.fails then (.answered (.ok status), redis)
  else
    match exec true x.now (.incr (usageKey env a.id x.now)) redis with
    | (.int n, redis') => (if n = 1 then .expiring a x.now status else .answered (.ok status), redis')
    | (_, redis') => (.answered (.ok status), redis')

def releaseConcurrency (x : BillingTurn) (accountId : String) (redis : Store) : List RequestTask × Store :=
  if x.fails then ([], redis)
  else
    match exec true x.now (.decr (concurrentKey accountId)) redis with
    | (.int n, redis') => (if n < 0 then [.clamping accountId] else [], redis')
    | (_, redis') => ([], redis')

def dispatch (env : BillingEnv) (x : BillingTurn) (t : RequestTask) (s : BillingState) :
    List RequestTask × BillingState :=
  match t with
  | .arrived r => ([arrive env x r s.redis], { s with clock := x.now })
  | .rateCheck a minute => ([checkRate x a minute s.redis], { s with clock := x.now })
  | .concurrencyCheck a minute => ([checkConcurrency x a minute s.redis], { s with clock := x.now })
  | .entering a minute =>
    ([.executing (some a)],
      { redis := if x.fails then s.redis else execAll x.now (enterCommands a minute) s.redis, clock := x.now })
  | .executing a => (respond a x.response, { s with clock := x.now })
  | .counting a status =>
    ([(incrementUsage env x a status s.redis).1], ⟨(incrementUsage env x a status s.redis).2, x.now⟩)
  | .expiring a countedAt status =>
    ([.answered (.ok status)],
      { redis :=
          if x.fails then s.redis
          else (exec true x.now (.expireat (usageKey env a.id countedAt) (endOfNextMonth x.now)) s.redis).2
        clock := x.now })
  | .releasing accountId =>
    ((releaseConcurrency x accountId s.redis).1, ⟨(releaseConcurrency x accountId s.redis).2, x.now⟩)
  | .clamping accountId =>
    ([],
      { redis :=
          if x.fails then s.redis
          else (exec true x.now (.set (concurrentKey accountId) (.int 0) false (some 600)) s.redis).2
        clock := x.now })
  | .refused _ | .answered _ => ([t], { s with clock := x.now })

abbrev BillingPool := Pool BillingState RequestTask

def trialRequest : BilledRequest := { endpointType := some "run", account := some { id := "acme", tier := "trial" } }

theorem concurrentKey_injective : Function.Injective concurrentKey := by
  intro a b h
  unfold concurrentKey at h
  simpa using h

theorem minuteKey_ne_concurrentKey (a b : String) (minute : ℕ) : concurrentKey a ≠ minuteKey b minute := by
  intro h
  have hh := congrArg (fun key : String => key.toList.head?) h
  simp [concurrentKey, minuteKey] at hh

theorem usageKey_ne_concurrentKey (env : BillingEnv) (a b : String) (now : ℕ) :
    concurrentKey a ≠ usageKey env b now := by
  intro h
  have hh := congrArg (fun key : String => key.toList.head?) h
  simp [concurrentKey, usageKey] at hh

theorem minuteKey_ne_usageKey (env : BillingEnv) (a b : String) (now minute : ℕ) :
    usageKey env a now ≠ minuteKey b minute := by
  intro h
  have hh := congrArg (fun key : String => key.toList.head?) h
  simp [minuteKey, usageKey] at hh

section Turn

variable (env : BillingEnv) (x : BillingTurn) (redis : Store)

/-- What the turn of a task can make of it. -/
inductive Becomes : RequestTask → List RequestTask → Prop
  | unmetered {r} : Becomes (.arrived r) [.executing none]
  | metered {r a mi} (h : meteredAccount env r = some a) : Becomes (.arrived r) [.rateCheck a mi]
  | overQuota {r refusal} : Becomes (.arrived r) [.refused refusal]
  | rateFails {a mi} (h : (readCounter x (minuteKey a.id mi) redis).toOption = none) :
    Becomes (.rateCheck a mi) [.executing (some a)]
  | rated {a mi} : Becomes (.rateCheck a mi) [.concurrencyCheck a mi]
  | overRate {a mi refusal} : Becomes (.rateCheck a mi) [.refused refusal]
  | countFails {a mi} : Becomes (.concurrencyCheck a mi) [.executing (some a)]
  | counted {a mi} : Becomes (.concurrencyCheck a mi) [.entering a mi]
  | overCount {a mi refusal} : Becomes (.concurrencyCheck a mi) [.refused refusal]
  | entered {a mi} : Becomes (.entering a mi) [.executing (some a)]
  | passed {response} : Becomes (.executing none) [.answered response]
  | succeeded {a status} : Becomes (.executing (some a)) [.counting a status, .releasing a.id]
  | failed {a response} (h : ∀ status, response = .ok status → ¬ status < 400) :
    Becomes (.executing (some a)) [.answered response, .releasing a.id]
  | usageCounted {a status} : Becomes (.counting a status) [.answered (.ok status)]
  | usageStarted {a status} : Becomes (.counting a status) [.expiring a x.now status]
  | expired {a time status} : Becomes (.expiring a time status) [.answered (.ok status)]
  | released {id} : Becomes (.releasing id) []
  | negative {id} : Becomes (.releasing id) [.clamping id]
  | clamped {id} : Becomes (.clamping id) []
  | refused {refusal} : Becomes (.refused refusal) [.refused refusal]
  | answered {response} : Becomes (.answered response) [.answered response]

theorem dispatch_becomes (t : RequestTask) (s : BillingState) : Becomes env x s.redis t (dispatch env x t s).1 := by
  cases t with
  | arrived r =>
    simp only [dispatch, arrive]
    split
    · exact .unmetered
    · rename_i a ha
      split
      · split_ifs
        · exact .overQuota
        · exact .metered ha
      · exact .metered ha
  | rateCheck a mi =>
    simp only [dispatch, checkRate]
    split
    · rename_i he
      exact .rateFails (by rw [he]; rfl)
    · exact .rated
    · split_ifs
      · exact .overRate
      · exact .rated
  | concurrencyCheck a mi =>
    simp only [dispatch, checkConcurrency]
    split
    · exact .countFails
    · exact .counted
    · split_ifs
      · exact .overCount
      · exact .counted
  | entering a mi => exact .entered
  | executing a =>
    cases a with
    | none => exact .passed
    | some a =>
      simp only [dispatch, respond]
      cases x.response with
      | error e => exact .failed fun _ h => by cases h
      | ok status =>
        dsimp only
        split_ifs with hok
        · exact .succeeded
        · exact .failed fun _ h => Except.ok.inj h ▸ hok
  | counting a status =>
    simp only [dispatch, incrementUsage]
    split_ifs
    · exact .usageCounted
    · split
      · dsimp only
        split_ifs
        · exact .usageStarted
        · exact .usageCounted
      · exact .usageCounted
  | expiring a time status => exact .expired
  | releasing id =>
    simp only [dispatch, releaseConcurrency]
    split_ifs
    · exact .released
    · split
      · dsimp only
        split_ifs
        · exact .negative
        · exact .released
      · exact .released
  | clamping id => exact .clamped
  | refused refusal => exact .refused
  | answered response => exact .answered

def writes (now : ℕ) : RequestTask → List String
  | .entering a minute => [minuteKey a.id minute, concurrentKey a.id]
  | .counting a _ => [usageKey env a.id now]
  | .expiring a countedAt _ => [usageKey env a.id countedAt]
  | .releasing id | .clamping id => [concurrentKey id]
  | _ => []

variable {env x} {t : RequestTask} {key : String}

theorem dispatch_of_not_mem_writes (h : key ∉ writes env x.now t) (s : BillingState) :
    (dispatch env x t s).2.redis key = s.redis key := by
  cases t with
  | entering a mi =>
    simp only [writes, List.mem_cons, List.not_mem_nil, or_false, not_or] at h
    simp only [dispatch, execAll, enterCommands, List.foldl_cons, List.foldl_nil]
    split_ifs
    · rfl
    · rw [exec_of_ne true _ h.2, exec_of_ne true _ h.2, exec_of_ne true _ h.1, exec_of_ne true _ h.1]
  | counting a status =>
    have hr := exec_of_ne (n := x.now) (s := s.redis) true (.incr (usageKey env a.id x.now))
      (List.mem_singleton.not.mp h)
    simp only [dispatch, incrementUsage]
    split_ifs
    · rfl
    · split <;> simp_all
  | releasing id =>
    have hr := exec_of_ne (n := x.now) (s := s.redis) true (.decr (concurrentKey id)) (List.mem_singleton.not.mp h)
    simp only [dispatch, releaseConcurrency]
    split_ifs
    · rfl
    · split <;> simp_all
  | expiring | clamping =>
    simp only [dispatch]
    split_ifs
    · rfl
    · exact exec_of_ne true _ (List.mem_singleton.not.mp h)
  | _ => rfl

theorem total_arrived {wt : RequestTask → ℕ} (h : ∀ r, wt (.arrived r) = 0) (requests : List BilledRequest) :
    Pool.total wt (requests.map .arrived) = 0 :=
  Pool.total_eq_zero (List.forall_mem_map.mpr fun r _ => h r)

theorem dispatch_clock (s : BillingState) : (dispatch env x t s).2.clock = x.now := by
  cases t <;> rfl

end Turn

end McpworksApi.Billing
