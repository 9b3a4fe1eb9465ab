import McpworksApi.Session.Tasks
import McpworksApi.Store.Redis

/-! `StripeService.handle_webhook_event`. A delivery claims the id of its event in Redis, runs the handler of the type
of the event, and then marks the event as completed, or releases the claim if the handler has raised. -/

namespace McpworksApi.Billing

open Redis

structure StripeEvent where
  id : String
  type : String
  deriving DecidableEq

def webhookIdempotencyTtl : ℕ := 86400

def eventKey (id : String) : String := "stripe:webhook:processed:" ++ id

def handledTypes : List String :=
  ["customer.subscription.created", "customer.subscription.updated", "customer.subscription.deleted",
    "invoice.payment_succeeded", "invoice.payment_failed", "checkout.session.completed"]

structure WebhookResult where
  processed : Bool
  eventType : String
  eventId : Option String := none
  message : Option String := none
  deriving DecidableEq

def duplicateResult (e : StripeEvent) : WebhookResult :=
  { processed := false, eventType := e.type, eventId := some e.id,
    message := some "Event already processed (duplicate)" }

def processedResult (e : StripeEvent) : WebhookResult :=
    { processed := true, eventType := e.type, eventId := some e.id }

def unhandledResult (e : StripeEvent) : WebhookResult :=
  { processed := false, eventType := e.type, message := some "Unhandled event type" }

inductive Delivery
  | arrived (e : StripeEvent)
  | handling (e : StripeEvent)
  | completing (e : StripeEvent)
  | releasing (e : StripeEvent) (error : String)
  | returned (e : StripeEvent) (result : WebhookResult)
  | raised (e : StripeEvent) (error : String)
  deriving DecidableEq

structure WebhookState where
  redis : Store
  clock : ℕ
  deliveries : List (String × ℕ)

structure WebhookTurn where
  now : ℕ
  handler : Except String Unit := .ok ()

def tryClaimEvent (now : ℕ) (id : String) (redis : Store) : Bool × Store :=
  let claimed := exec true now (.set (eventKey id) (.str "processing") true (some webhookIdempotencyTtl)) redis
  (claimed.1 ≠ .nil, claimed.2)

def markEventCompleted (now : ℕ) (id : String) (redis : Store) : Store :=
  (exec true now (.set (eventKey id) (.str "completed") false (some webhookIdempotencyTtl)) redis).2

def releaseEventClaim (now : ℕ) (id : String) (redis : Store) : Store :=
    (exec true now (.delete (eventKey id)) redis).2

def handleWebhookEvent (x : WebhookTurn) (d : Delivery) (s : WebhookState) : List Delivery × WebhookState :=
  match d with
  | .arrived e =>
    let claim := tryClaimEvent x.now e.id s.redis
    let s' := { redis := claim.2, clock := x.now, deliveries := s.deliveries ++ [(e.id, x.now)] }
    if claim.1 then
      if e.type ∈ handledTypes then ([.handling e], s') else ([.returned e (unhandledResult e)], s')
    else ([.returned e (duplicateResult e)], s')
  | .handling e =>
    match x.handler with
    | .ok () => ([.completing e], { s with clock := x.now })
    | .error error => ([.releasing e error], { s with clock := x.now })
  | .completing e =>
    ([.returned e (processedResult e)], { s with redis := markEventCompleted x.now e.id s.redis, clock := x.now })
  | .releasing e error =>
    ([.raised e error], { s with redis := releaseEventClaim x.now e.id s.redis, clock := x.now })
  | d => ([d], { s with clock := x.now })

abbrev Webhooks := Pool WebhookState Delivery

def Delivery.claims : Delivery → Option String
  | .arrived e => some e.id
  | _ => none

def Timely (p : Webhooks) (x : WebhookTurn) (d : Delivery) : Prop :=
  p.state.clock ≤ x.now ∧
    ∀ u ∈ p.state.deliveries, d.claims = some u.1 → x.now < u.2 + webhookIdempotencyTtl * second

instance (p : Webhooks) (x : WebhookTurn) (d : Delivery) : Decidable (Timely p x d) :=
  inferInstanceAs (Decidable (_ ∧ _))

def runsHandler (id : String) : Delivery → Bool
  | .handling e => e.id = id
  | _ => false

def ranHandler (id : String) : Delivery → Bool
  | .completing e => e.id = id
  | .returned e result => e.id = id ∧ result.processed
  | _ => false

def holdsClaim (id : String) : Delivery → ℕ
  | .handling e | .completing e | .releasing e _ => if e.id = id then 1 else 0
  | .returned e result => if e.id = id ∧ result ≠ duplicateResult e then 1 else 0
  | _ => 0

structure Claimed (id : String) (p : Webhooks) : Prop where
  holders : Pool.total (holdsClaim id) p.tasks = if p.state.redis (eventKey id) = none then 0 else 1
  lasting : ∀ entry, p.state.redis (eventKey id) = some entry →
    ∃ t expiry, (id, t) ∈ p.state.deliveries ∧ entry.expiresAt = some expiry ∧
      t + webhookIdempotencyTtl * second ≤ expiry
  past : ∀ t, (id, t) ∈ p.state.deliveries → t ≤ p.state.clock

theorem eventKey_injective : Function.Injective eventKey := by
  intro i j h
  unfold eventKey at h
  simpa using h

def Delivery.event : Delivery → StripeEvent
  | arrived e | handling e | completing e | releasing e _ | returned e _ | raised e _ => e

variable {id : String} {d : Delivery}

theorem holdsClaim_of_ne (h : d.event.id ≠ id) : holdsClaim id d = 0 := by
  cases d with
  | arrived | raised => rfl
  | handling e | completing e | releasing e => exact if_neg h
  | returned e result => exact if_neg fun hid => h hid.1

theorem handleWebhookEvent_frame (x : WebhookTurn) (d : Delivery) (s : WebhookState) (h : d.event.id ≠ id) :
    (∃ d', (handleWebhookEvent x d s).1 = [d'] ∧ d'.event = d.event) ∧
      (handleWebhookEvent x d s).2.redis (eventKey id) = s.redis (eventKey id) ∧
      (∀ t, (id, t) ∈ (handleWebhookEvent x d s).2.deliveries ↔ (id, t) ∈ s.deliveries) ∧
      (handleWebhookEvent x d s).2.clock = x.now := by
  have hk : eventKey id ≠ eventKey d.event.id := fun heq => h (eventKey_injective heq).symm
  cases d with
  | arrived e =>
    have hl : ∀ t, (id, t) ∈ s.deliveries ++ [(e.id, x.now)] ↔ (id, t) ∈ s.deliveries := by
      intro t
      have hne : (id, t) ≠ (e.id, x.now) := fun heq => h (congrArg Prod.fst heq).symm
      simp [hne]
    unfold handleWebhookEvent
    dsimp only
    split_ifs
    · exact ⟨⟨_, rfl, rfl⟩, exec_of_ne true _ hk, hl, rfl⟩
    · exact ⟨⟨_, rfl, rfl⟩, exec_of_ne true _ hk, hl, rfl⟩
    · exact ⟨⟨_, rfl, rfl⟩, exec_of_ne true _ hk, hl, rfl⟩
  | handling e =>
    unfold handleWebhookEvent
    dsimp only
    split
    · exact ⟨⟨_, rfl, rfl⟩, rfl, fun _ => Iff.rfl, rfl⟩
    · exact ⟨⟨_, rfl, rfl⟩, rfl, fun _ => Iff.rfl, rfl⟩
  | completing e =>
    refine ⟨⟨_, rfl, rfl⟩, ?_, fun _ => Iff.rfl, rfl⟩
    exact exec_of_ne true (.set (eventKey e.id) (.str "completed") false (some webhookIdempotencyTtl)) hk
  | releasing e error =>
    exact ⟨⟨_, rfl, rfl⟩, Store.set_of_ne s.redis none hk, fun _ => Iff.rfl, rfl⟩
  | returned | raised => exact ⟨⟨_, rfl, rfl⟩, rfl, fun _ => Iff.rfl, rfl⟩

variable {s : WebhookState} {pre post : List Delivery} {x : WebhookTurn} {e : StripeEvent}

theorem Claimed.of_ne (h : Claimed id ⟨s, pre ++ d :: post⟩) (hc : s.clock ≤ x.now)
    (hid : d.event.id ≠ id) :
    Claimed id ⟨(handleWebhookEvent x d s).2, pre ++ (handleWebhookEvent x d s).1 ++ post⟩ := by
  obtain ⟨⟨d', hn, he⟩, hr, hl, hno⟩ := handleWebhookEvent_frame x d s hid
  have hh := h.holders
  simp only [Pool.total_append, Pool.total_cons, holdsClaim_of_ne hid] at hh
  rw [hn]
  refine ⟨?_, ?_, ?_⟩
  · simp only [Pool.total_append, Pool.total_cons, Pool.total_nil, hr, ← hh]
    rw [holdsClaim_of_ne (by rw [he]; exact hid)]
    omega
  · dsimp only
    rw [hr]
    intro entry hen
    obtain ⟨t, exp, ht, hex⟩ := h.lasting entry hen
    exact ⟨t, exp, (hl t).mpr ht, hex⟩
  · dsimp only
    rw [hno]
    intro t ht
    exact (h.past t ((hl t).mp ht)).trans hc

theorem Claimed.arrived (h : Claimed e.id ⟨s, pre ++ .arrived e :: post⟩)
    (hti : Timely ⟨s, pre ++ .arrived e :: post⟩ x (.arrived e)) :
    Claimed e.id
      ⟨(handleWebhookEvent x (.arrived e) s).2, pre ++ (handleWebhookEvent x (.arrived e) s).1 ++ post⟩ := by
  have hh := h.holders
  simp only [Pool.total_append, Pool.total_cons, holdsClaim] at hh
  have hp : ∀ t, (e.id, t) ∈ s.deliveries ++ [(e.id, x.now)] → t ≤ x.now := by
    intro t ht
    rcases List.mem_append.mp ht with ht | ht
    · exact (h.past t ht).trans hti.1
    · cases List.mem_singleton.mp ht
      exact le_rfl
  cases he : s.redis (eventKey e.id) with
  | none =>
    rw [he, if_pos rfl] at hh
    have hc : tryClaimEvent x.now e.id s.redis = (true, s.redis.set (eventKey e.id)
        (some ⟨.str "processing", some (x.now + webhookIdempotencyTtl * second)⟩)) := by
      unfold tryClaimEvent
      rw [exec_setnx_of_none true _ _ (Store.live_of_none he)]
      rfl
    have hl : ∀ ts, Pool.total (holdsClaim e.id) ts = 1 →
        Claimed e.id ⟨⟨s.redis.set (eventKey e.id)
          (some ⟨.str "processing", some (x.now + webhookIdempotencyTtl * second)⟩), x.now,
          s.deliveries ++ [(e.id, x.now)]⟩, ts⟩ := by
      intro ts hto
      refine ⟨by simp [hto], fun entry hs => ?_, hp⟩
      dsimp only at hs
      rw [Store.set_self] at hs
      cases hs
      exact ⟨x.now, _, List.mem_append_right _ (List.mem_singleton_self _), rfl, le_rfl⟩
    unfold handleWebhookEvent
    dsimp only
    rw [hc, if_pos rfl]
    split_ifs
    · apply hl
      simp [holdsClaim]
      omega
    · apply hl
      simp [holdsClaim, unhandledResult, duplicateResult]
      omega
  | some entry =>
    -- the claim that is there has not expired
    obtain ⟨t, expiry, ht, hex, hle⟩ := h.lasting entry he
    have hlt : x.now < expiry := (hti.2 _ ht rfl).trans_le hle
    obtain ⟨v, t'⟩ := entry
    dsimp only at hex
    subst hex
    have hc : tryClaimEvent x.now e.id s.redis = (false, s.redis) := by
      unfold tryClaimEvent
      rw [exec_setnx_of_some true _ _ (Store.live_of_lt he hlt)]
      rfl
    unfold handleWebhookEvent
    dsimp only
    rw [hc]
    refine ⟨?_, ?_, hp⟩
    · simp only [Bool.false_eq_true, if_false, Pool.total_append, Pool.total_cons, Pool.total_nil, holdsClaim]
      simp [← hh]
    · intro ent' he'
      obtain ⟨u, exp', hu, hr⟩ := h.lasting ent' he'
      exact ⟨u, exp', List.mem_append_left _ hu, hr⟩

theorem Claimed.keep {d' : Delivery} {redis : Store} (h : Claimed id ⟨s, pre ++ d :: post⟩)
    (hc : s.clock ≤ x.now) (hh : holdsClaim id d' = holdsClaim id d)
    (hn : redis (eventKey id) = none ↔ s.redis (eventKey id) = none)
    (hl : ∀ entry, redis (eventKey id) = some entry → ∃ t exp, (id, t) ∈ s.deliveries ∧
      entry.expiresAt = some exp ∧ t + webhookIdempotencyTtl * second ≤ exp) :
    Claimed id ⟨{ s with redis, clock := x.now }, pre ++ [d'] ++ post⟩ := by
  have hho := h.holders
  refine ⟨?_, hl, fun t ht => (h.past t ht).trans hc⟩
  simp only [Pool.total_append, Pool.total_cons, Pool.total_nil, hh, hn] at hho ⊢
  omega

theorem Claimed.step (h : Claimed id ⟨s, pre ++ d :: post⟩)
    (hti : Timely ⟨s, pre ++ d :: post⟩ x d) :
    Claimed id ⟨(handleWebhookEvent x d s).2, pre ++ (handleWebhookEvent x d s).1 ++ post⟩ := by
  by_cases hid : d.event.id = id
  swap
  · exact h.of_ne hti.1 hid
  subst hid
  have hh := h.holders
  simp only [Pool.total_append, Pool.total_cons] at hh
  cases d with
  | arrived e => exact h.arrived hti
  | handling e =>
    unfold handleWebhookEvent
    dsimp only
    split
    · exact h.keep hti.1 rfl Iff.rfl h.lasting
    · exact h.keep hti.1 rfl Iff.rfl h.lasting
  | completing e =>
    have hth : s.redis (eventKey e.id) ≠ none := by
      intro hn
      have ho : holdsClaim e.id (.completing e) = 1 := if_pos rfl
      change Pool.total (holdsClaim e.id) pre + (holdsClaim e.id (.completing e) +
        Pool.total (holdsClaim e.id) post) = if s.redis (eventKey e.id) = none then 0 else 1 at hh
      rw [ho, if_pos hn] at hh
      omega
    obtain ⟨entry, he⟩ := Option.ne_none_iff_exists'.mp hth
    obtain ⟨t, exp, ht, -, -⟩ := h.lasting entry he
    refine h.keep hti.1 ?_ ?_ ?_
    · simp [holdsClaim, Delivery.event, processedResult, duplicateResult]
    · simp [markEventCompleted, exec, hth, Delivery.event]
    · intro ent' he'
      simp only [markEventCompleted, exec, Delivery.event, Bool.false_eq_true, false_and, if_false, Store.set_self,
        Option.some.injEq] at he'
      subst he'
      exact ⟨t, _, ht, rfl, Nat.add_le_add_right ((h.past t ht).trans hti.1) _⟩
  | releasing e error =>
    have ho : holdsClaim e.id (.releasing e error) = 1 := if_pos rfl
    change Pool.total (holdsClaim e.id) pre + (holdsClaim e.id (.releasing e error) +
      Pool.total (holdsClaim e.id) post) = if s.redis (eventKey e.id) = none then 0 else 1 at hh
    rw [ho] at hh
    have hf : (releaseEventClaim x.now e.id s.redis) (eventKey e.id) = none := Store.set_self ..
    refine ⟨?_, ?_, fun t ht => (h.past t ht).trans hti.1⟩
    · change Pool.total (holdsClaim e.id) (pre ++ [.raised e error] ++ post) =
        if releaseEventClaim x.now e.id s.redis (eventKey e.id) = none then 0 else 1
      rw [if_pos hf]
      simp only [Pool.total_append, Pool.total_cons, Pool.total_nil, holdsClaim]
      split at hh <;> omega
    · intro entry he
      change releaseEventClaim x.now e.id s.redis (eventKey e.id) = some entry at he
      rw [hf] at he
      cases he
  | returned e result => exact h.keep hti.1 rfl Iff.rfl h.lasting
  | raised e error => exact h.keep hti.1 rfl Iff.rfl h.lasting

theorem holdsClaim_of_runsHandler (h : runsHandler id d = true) : 1 ≤ holdsClaim id d := by
  cases d with
  | handling e => exact (if_pos (of_decide_eq_true h)).ge
  | arrived | completing | releasing | returned | raised => cases h

theorem holdsClaim_of_ranHandler (h : ranHandler id d = true) : 1 ≤ holdsClaim id d := by
  cases d with
  | completing e => exact (if_pos (of_decide_eq_true h)).ge
  | returned e result =>
    obtain ⟨hid, hp⟩ := of_decide_eq_true h
    refine (if_pos ⟨hid, fun heq => ?_⟩).ge
    rw [heq] at hp
    cases hp
  | arrived | handling | releasing | raised => cases h

theorem Claimed.start {redis : Store} (hf : redis (eventKey id) = none) (clock : ℕ)
    (es : List StripeEvent) : Claimed id ⟨⟨redis, clock, []⟩, es.map .arrived⟩ := by
  refine ⟨?_, fun entry he => ?_, fun t ht => by cases ht⟩
  · rw [if_pos hf]
    refine Pool.total_eq_zero fun d hd => ?_
    obtain ⟨e, -, rfl⟩ := List.mem_map.mp hd
    rfl
  · change redis (eventKey id) = some entry at he
    rw [hf] at he
    cases he

theorem others_step (x : WebhookTurn) (s : WebhookState) (h : ∀ d' ∈ pre ++ d :: post, d'.event.id ≠ id) :
    ∀ d' ∈ pre ++ (handleWebhookEvent x d s).1 ++ post, d'.event.id ≠ id := by
  have hd : d.event.id ≠ id := h d (by simp)
  obtain ⟨⟨d', hn, he⟩, -⟩ := handleWebhookEvent_frame x d s hd
  rw [hn]
  intro d'' hd''
  rw [List.append_assoc, List.mem_append, List.singleton_append, List.mem_cons] at hd''
  rcases hd'' with hb | rfl | ha
  · exact h d'' (List.mem_append_left _ hb)
  · rw [he]
    exact hd
  · exact h d'' (by simp [ha])

/-- In every run of deliveries of which those of one event are less than the lifetime of a claim apart, at most one
delivery of an event runs its handler to completion, and at no time do two run it. -/
theorem webhook_at_most_once {redis : Store} {clock : ℕ} {events : List StripeEvent}
    (hfresh : ∀ e ∈ events, redis (eventKey e.id) = none) {schedule : List (ℕ × WebhookTurn)}
    (hrun : Pool.Permits handleWebhookEvent Timely ⟨⟨redis, clock, []⟩, events.map .arrived⟩ schedule) {p : Webhooks}
    (hp : p = Pool.run handleWebhookEvent ⟨⟨redis, clock, []⟩, events.map .arrived⟩ schedule) (id : String) :
    (p.tasks.filter (ranHandler id)).length ≤ 1 ∧ (p.tasks.filter (runsHandler id)).length ≤ 1 := by
  have ht : Pool.total (holdsClaim id) p.tasks ≤ 1 := by
    rw [hp]
    by_cases hid : ∃ e ∈ events, e.id = id
    · obtain ⟨e, he, rfl⟩ := hid
      have hc := Pool.run_invariant (I := Claimed e.id) (fun _ _ _ _ _ h hx => h.step hx)
        (.start (hfresh e he) clock events) hrun
      rw [hc.holders]
      split <;> omega
    · -- the event is never delivered
      have ho := Pool.run_invariant (I := fun p => ∀ d ∈ p.tasks, d.event.id ≠ id)
        (fun s _ d _ x h _ => others_step x s h) (fun d hd => ?_) hrun
      · rw [Pool.total_eq_zero fun d hd => holdsClaim_of_ne (ho d hd)]
        exact Nat.zero_le 1
      · obtain ⟨e, he, rfl⟩ := List.mem_map.mp hd
        exact fun heq => hid ⟨e, he, heq⟩
  exact ⟨(Pool.length_filter_le_total (fun _ => holdsClaim_of_ranHandler) p.tasks).trans ht,
    (Pool.length_filter_le_total (fun _ => holdsClaim_of_runsHandler) p.tasks).trans ht⟩

/-- Two deliveries of a payment: the handler of the first raises, and that of the second, which comes after the
release, returns. -/
def payment : StripeEvent := ⟨"evt_1", "invoice.payment_succeeded"⟩

def paymentTurns : List (ℕ × WebhookTurn) :=
  [(0, ⟨0, .ok ()⟩), (0, ⟨1, .error "no such account"⟩), (0, ⟨2, .ok ()⟩), (1, ⟨3, .ok ()⟩), (2, ⟨4, .ok ()⟩),
    (1, ⟨5, .ok ()⟩), (1, ⟨6, .ok ()⟩)]

theorem payment_processed_once :
    (Pool.run handleWebhookEvent ⟨⟨Store.empty, 0, []⟩, List.replicate 3 (.arrived payment)⟩ paymentTurns).tasks =
        [.raised payment "no such account", .returned payment (processedResult payment),
          .returned payment (duplicateResult payment)] ∧
      ((Pool.run handleWebhookEvent ⟨⟨Store.empty, 0, []⟩, List.replicate 3 (.arrived payment)⟩ paymentTurns).tasks.filter
        (ranHandler "evt_1")).length ≤ 1 := by
  have hr : Pool.Permits handleWebhookEvent Timely
      ⟨⟨Store.empty, 0, []⟩, (List.replicate 3 payment).map .arrived⟩ paymentTurns := by
    refine ⟨?_, ?_, ?_, ?_, ?_, ?_, ?_, trivial⟩ <;> decide +kernel
  exact ⟨by decide +kernel, (webhook_at_most_once (fun _ _ => rfl) hr rfl "evt_1").1⟩

end McpworksApi.Billing
