import McpworksApi.Py.Str

/-! The subscriptions of users, as the handlers of Stripe's events keep them (`services/stripe.py`). A handler that
raises leaves both tables as they were. -/

namespace McpworksApi.Billing

open Py

inductive SubscriptionStatus
  | active
  | cancelled
  | pastDue
  | trialing
  deriving DecidableEq

structure Subscription where
  userId : ℕ
  tier : String
  status : SubscriptionStatus
  stripeSubscriptionId : Option String
  deriving DecidableEq

/-- The tiers of the users and the rows of `subscriptions`. A user is in `ended` while the last that was heard of the
subscription is that it was deleted. -/
structure Subscribers where
  tier : ℕ → Option String
  rows : List Subscription
  ended : List ℕ := []

inductive SubscriptionEvent
  | checkoutCompleted (userId : Option ℕ) (baseTier subscription : Option String)
  | created
  | updated (subscription status : String) (priceId : Option String)
  | deleted (subscription : String)
  | paymentSucceeded
  | paymentFailed (subscription : Option String)

namespace Subscribers

def setTier (s : Subscribers) (userId : ℕ) (tier : String) : Subscribers :=
  { s with tier := fun u => if u = userId then some tier else s.tier u }

def change (s : Subscribers) (userId : ℕ) (f : Subscription → Subscription) : Subscribers :=
  { s with rows := s.rows.map fun r => if r.userId = userId then { f r with userId } else r }

def find? (s : Subscribers) (subscription : String) : Option Subscription :=
  s.rows.find? (·.stripeSubscriptionId = some subscription)

end Subscribers

def agentTier (baseTier : String) : String := if endsWith baseTier "-agent" then baseTier else baseTier ++ "-agent"

def checkoutTier (baseTier : String) : String := if baseTier = "" then "" else agentTier baseTier

def statusOf (status : String) (stored : SubscriptionStatus) : SubscriptionStatus :=
  if status = "active" then .active
  else if status = "past_due" then .pastDue
  else if status = "canceled" then .cancelled
  else if status = "trialing" then .trialing
  else stored

def handleCheckoutCompleted (userId : ℕ) (baseTier : Option String) (subscription : String) (s : Subscribers) :
    Option Subscribers :=
  baseTier.bind fun baseTier =>
    if s.rows.any fun r => r.stripeSubscriptionId = some subscription ∧ r.userId ≠ userId then none
    else
      let tier := checkoutTier baseTier
      let paid := { s.setTier userId tier with ended := s.ended.filter (· ≠ userId) }
      if s.rows.any (·.userId = userId) then
        some (paid.change userId fun r => { r with tier, status := .active, stripeSubscriptionId := some subscription })
      else if (s.tier userId).isNone then none
      else some { paid with rows := s.rows ++ [⟨userId, tier, .active, some subscription⟩] }

def handleSubscriptionUpdated (tierOfPrice : String → Option String) (subscription status : String)
    (priceId : Option String) (s : Subscribers) : Subscribers :=
  (s.find? subscription).elim s fun r =>
    let s := s.change r.userId fun r => { r with status := statusOf status r.status }
    (priceId.bind tierOfPrice).elim s fun baseTier =>
      (s.change r.userId fun r => { r with tier := agentTier baseTier }).setTier r.userId (agentTier baseTier)

def handleSubscriptionDeleted (subscription : String) (s : Subscribers) : Subscribers :=
  (s.find? subscription).elim s fun r =>
    let s := { s with ended := r.userId :: s.ended }
    (s.change r.userId fun r => { r with status := .cancelled }).setTier r.userId "trial-agent"

def handlePaymentFailed (subscription : String) (s : Subscribers) : Subscribers :=
  (s.find? subscription).elim s fun r => s.change r.userId fun r => { r with status := .pastDue }

def handleSubscriptionEvent (tierOfPrice : String → Option String) (s : Subscribers) : SubscriptionEvent → Subscribers
  | .checkoutCompleted (some userId) baseTier (some subscription) =>
    (handleCheckoutCompleted userId baseTier subscription s).getD s
  | .updated subscription status priceId => handleSubscriptionUpdated tierOfPrice subscription status priceId s
  | .deleted subscription => handleSubscriptionDeleted subscription s
  | .paymentFailed (some subscription) => handlePaymentFailed subscription s
  | _ => s

def paidTiers : List String := ["pro", "enterprise", "dedicated", "pro-agent", "enterprise-agent", "dedicated-agent"]

def PaidWhileSubscribed (s : Subscribers) : Prop :=
  ∀ u tier, s.tier u = some tier → tier ∈ paidTiers → u ∉ s.ended ∧ (∃ r ∈ s.rows, r.userId = u) ∧
    ∀ r ∈ s.rows, r.userId = u → r.status = .active ∨ r.status = .trialing ∨ r.status = .pastDue

def UpToDate (s : Subscribers) : SubscriptionEvent → Prop
  | .updated subscription status _ => ∀ r, s.find? subscription = some r → status ≠ "canceled" ∧ r.userId ∉ s.ended
  | _ => True

def UpToDateRun (tierOfPrice : String → Option String) : List SubscriptionEvent → Subscribers → Prop
  | [], _ => True
  | e :: events, s => UpToDate s e ∧ UpToDateRun tierOfPrice events (handleSubscriptionEvent tierOfPrice s e)

structure Sound (s : Subscribers) : Prop where
  paid : ∀ u tier, s.tier u = some tier → tier ∈ paidTiers → u ∉ s.ended ∧ ∃ r ∈ s.rows, r.userId = u
  cancelled : ∀ r ∈ s.rows, r.status = .cancelled → r.userId ∈ s.ended

variable {s : Subscribers} {userId : ℕ} {tier subscription : String}
    {f : Subscription → Subscription} {r : Subscription}

theorem Sound.paidWhileSubscribed (h : Sound s) : PaidWhileSubscribed s := by
  intro u tier ht hp
  obtain ⟨he, hro⟩ := h.paid u tier ht hp
  refine ⟨he, hro, fun r hr hu => ?_⟩
  have hl : r.status ≠ .cancelled := fun hc => he (hu ▸ h.cancelled r hr hc)
  cases hs : r.status with
  | active => simp
  | cancelled => exact absurd hs hl
  | pastDue => simp
  | trialing => simp

theorem exists_row_change {u : ℕ} : (∃ r ∈ (s.change userId f).rows, r.userId = u) ↔ ∃ r ∈ s.rows, r.userId = u := by
  simp only [Subscribers.change, List.mem_map, exists_exists_and_eq_and]
  refine exists_congr fun r => and_congr_right fun _ => ?_
  by_cases hr : r.userId = userId
  · simp [hr]
  · simp [hr]

theorem mem_change (h : r ∈ (s.change userId f).rows) :
    (∃ r₀ ∈ s.rows, r₀.userId = userId ∧ r = { f r₀ with userId }) ∨ (r ∈ s.rows ∧ r.userId ≠ userId) := by
  obtain ⟨r₀, hr₀, rfl⟩ := List.mem_map.mp h
  by_cases hu : r₀.userId = userId
  · rw [if_pos hu]
    exact .inl ⟨r₀, hr₀, hu, rfl⟩
  · rw [if_neg hu]
    exact .inr ⟨hr₀, hu⟩

theorem Sound.change (h : Sound s) (hf : ∀ r ∈ s.rows, r.userId = userId →
    (f r).status = .cancelled → userId ∈ s.ended) :
    Sound (s.change userId f) where
  paid u tier ht hpaid := by
    obtain ⟨he, hro⟩ := h.paid u tier ht hpaid
    exact ⟨he, exists_row_change.mpr hro⟩
  cancelled r hr hc := by
    obtain ⟨r₀, hr₀, hu, rfl⟩ | ⟨hr, -⟩ := mem_change hr
    · exact hf r₀ hr₀ hu hc
    · exact h.cancelled r hr hc

theorem Sound.setTier (h : Sound s)
    (hp : tier ∈ paidTiers → userId ∉ s.ended ∧ ∃ r ∈ s.rows, r.userId = userId) : Sound (s.setTier userId tier) where
  paid u stored ht hstored := by
    by_cases hu : u = userId
    · simp only [Subscribers.setTier, if_pos hu, Option.some.injEq] at ht
      subst hu ht
      exact hp hstored
    · simp only [Subscribers.setTier, if_neg hu] at ht
      exact h.paid u stored ht hstored
  cancelled := h.cancelled

theorem Sound.end (h : Sound s) (hf : ∀ tier, s.tier userId = some tier → tier ∉ paidTiers) :
    Sound { s with ended := userId :: s.ended } where
  paid u tier ht hpaid := by
    obtain ⟨he, hro⟩ := h.paid u tier ht hpaid
    have hu : u ≠ userId := fun hu => hf tier (hu ▸ ht) hpaid
    exact ⟨by simp [hu, he], hro⟩
  cancelled r hr hc := List.mem_cons_of_mem _ (h.cancelled r hr hc)

theorem Sound.resume (h : Sound s) (hl : ∀ r ∈ s.rows, r.userId = userId → r.status ≠ .cancelled)
    (hro : ∃ r ∈ s.rows, r.userId = userId) :
    Sound ({ s with ended := s.ended.filter (· ≠ userId) }.setTier userId tier) := by
  refine Sound.setTier ⟨fun u tier ht hp => ?_, fun r hr hc => ?_⟩ fun _ => ⟨by simp, hro⟩
  · obtain ⟨he, hro⟩ := h.paid u tier ht hp
    exact ⟨fun hu => he (List.mem_filter.mp hu).1, hro⟩
  · exact List.mem_filter.mpr ⟨h.cancelled r hr hc, by simpa using fun hu => hl r hr hu hc⟩

theorem mem_of_find? (h : s.find? subscription = some r) : r ∈ s.rows := List.mem_of_find?_eq_some h

theorem statusOf_ne_cancelled {st : String} {sto : SubscriptionStatus} (hs : st ≠ "canceled")
    (h : statusOf st sto = .cancelled) : sto = .cancelled := by
  unfold statusOf at h
  split_ifs at h
  exact h

theorem Sound.updated {top : String → Option String} {status : String} {pi : Option String} (h : Sound s)
    (hcu : UpToDate s (.updated subscription status pi)) :
    Sound (handleSubscriptionUpdated top subscription status pi s) := by
  unfold handleSubscriptionUpdated
  cases hf : s.find? subscription with
  | none => exact h
  | some r =>
    obtain ⟨hs, he⟩ := hcu r hf
    have hch : Sound (s.change r.userId fun r => { r with status := statusOf status r.status }) :=
      h.change fun r' hr' hu hc => hu ▸ h.cancelled r' hr' (statusOf_ne_cancelled hs hc)
    cases pi.bind top with
    | none => exact hch
    | some baseTier =>
      refine (hch.change fun r' hr' hu hc => hu ▸ hch.cancelled r' hr' hc).setTier fun _ => ⟨he, ?_⟩
      exact exists_row_change.mpr (exists_row_change.mpr ⟨r, mem_of_find? hf, rfl⟩)

theorem Sound.deleted (h : Sound s) : Sound (handleSubscriptionDeleted subscription s) := by
  unfold handleSubscriptionDeleted
  cases s.find? subscription with
  | none => exact h
  | some r =>
    have htr : Sound (s.setTier r.userId "trial-agent") := h.setTier fun hp => absurd hp (by decide)
    have he : Sound { s.setTier r.userId "trial-agent" with ended := r.userId :: s.ended } := by
      refine htr.end fun tier ht hp => ?_
      simp only [Subscribers.setTier, if_true, Option.some.injEq] at ht
      exact absurd (ht ▸ hp) (by decide)
    exact he.change fun _ _ _ _ => List.mem_cons_self

theorem Sound.checkout {baseTier : Option String} {s' : Subscribers} (h : Sound s)
    (hs' : handleCheckoutCompleted userId baseTier subscription s = some s') : Sound s' := by
  obtain ⟨base, -, hs'⟩ := Option.bind_eq_some_iff.mp hs'
  split at hs'
  · cases hs'
  split at hs'
  · rename_i ha
    obtain rfl := Option.some.inj hs'
    obtain ⟨r, hr, hu⟩ := List.any_eq_true.mp ha
    have hac : Sound (s.change userId fun r => { r with
        tier := checkoutTier base, status := .active, stripeSubscriptionId := some subscription }) :=
      h.change fun _ _ _ hc => by cases hc
    refine hac.resume (fun r hr hu hc => ?_) (exists_row_change.mpr ⟨r, hr, of_decide_eq_true hu⟩)
    obtain ⟨r₀, -, -, rfl⟩ | ⟨-, hne⟩ := mem_change hr
    · cases hc
    · exact hne hu
  · rename_i hn
    split at hs'
    · cases hs'
    obtain rfl := Option.some.inj hs'
    have had : Sound { s with rows := s.rows ++ [⟨userId, checkoutTier base, .active, some subscription⟩] } := by
      refine ⟨fun u tier ht hp => ?_, fun r hr hc => ?_⟩
      · obtain ⟨he, r, hr, hu⟩ := h.paid u tier ht hp
        exact ⟨he, r, List.mem_append_left _ hr, hu⟩
      · rcases List.mem_append.mp hr with hr | hr
        · exact h.cancelled r hr hc
        · rw [List.mem_singleton.mp hr] at hc
          cases hc
    refine had.resume (fun r hr hu hc => ?_) ⟨_, List.mem_append_right _ (List.mem_singleton_self _), rfl⟩
    rcases List.mem_append.mp hr with hr | hr
    · exact hn (List.any_eq_true.mpr ⟨r, hr, decide_eq_true hu⟩)
    · rw [List.mem_singleton.mp hr] at hc
      cases hc

theorem Sound.handled {top : String → Option String} {e : SubscriptionEvent} (h : Sound s) (hcu : UpToDate s e) :
    Sound (handleSubscriptionEvent top s e) := by
  unfold handleSubscriptionEvent
  split
  · rename_i user base sub
    cases hs' : handleCheckoutCompleted user base sub s with
    | none => exact h
    | some s' => exact h.checkout hs'
  · exact h.updated hcu
  · exact h.deleted
  · rename_i sub
    unfold handlePaymentFailed
    cases s.find? sub with
    | none => exact h
    | some r => exact h.change fun _ _ _ hc => by cases hc
  · exact h

/-- In every run of events of which no update comes too late, paid tiers belong to subscriptions. -/
theorem paid_while_subscribed (tierOfPrice : String → Option String)
    (events : List SubscriptionEvent) (s : Subscribers)
    (hs : Sound s) (h : UpToDateRun tierOfPrice events s) :
    PaidWhileSubscribed (events.foldl (handleSubscriptionEvent tierOfPrice) s) := by
  induction events generalizing s with
  | nil => exact hs.paidWhileSubscribed
  | cons e events ih => exact ih _ (hs.handled h.1) h.2

def proPrice (priceId : String) : Option String := if priceId = "price_pro" then some "pro" else none

def trialUser : Subscribers := { tier := fun u => if u = 1 then some "trial-agent" else none, rows := [] }

def afterCheckout (events : List SubscriptionEvent) : Subscribers :=
  (.checkoutCompleted (some 1) (some "pro") (some "sub_1") :: events).foldl
    (handleSubscriptionEvent proPrice) trialUser

/-- An update to `canceled` leaves the paid tier, and an update that is late restores it. -/
theorem paid_without_subscription :
    (afterCheckout [.updated "sub_1" "canceled" none]).tier 1 = some "pro-agent" ∧
      (afterCheckout [.updated "sub_1" "canceled" none]).rows.map (·.status) = [.cancelled] ∧
      (afterCheckout [.deleted "sub_1", .updated "sub_1" "active" (some "price_pro")]).tier 1 = some "pro-agent" ∧
      (afterCheckout [.deleted "sub_1", .updated "sub_1" "active" (some "price_pro")]).ended = [1] := by
  decide

theorem renewed_is_subscribed : (afterCheckout [.updated "sub_1" "active" (some "price_pro")]).tier
    1 = some "pro-agent" ∧
    PaidWhileSubscribed (afterCheckout [.updated "sub_1" "active" (some "price_pro")]) := by
  refine ⟨by decide, paid_while_subscribed proPrice _ trialUser ⟨fun u tier ht hp => ?_, fun r hr => ?_⟩ ?_⟩
  · simp only [trialUser] at ht
    split at ht
    · rw [← Option.some.inj ht] at hp
      exact absurd hp (by decide)
    · cases ht
  · cases hr
  · exact ⟨trivial, fun r _ => ⟨by decide, List.not_mem_nil⟩, trivial⟩

end McpworksApi.Billing
