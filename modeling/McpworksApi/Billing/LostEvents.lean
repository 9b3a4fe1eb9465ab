import McpworksApi.Billing.StripeWebhooks

/-! Events that are lost. A delivery that finds its event claimed is answered as a duplicate, with a status that ends the
redeliveries, whether or not the delivery that holds the claim gets to the end of the handler. -/

namespace McpworksApi.Billing

open Redis

def undecided (id : String) : Delivery → Bool
  | .handling e | .releasing e _ => e.id = id
  | _ => false

def answered (id : String) : Delivery → Bool
  | .returned e _ => e.id = id
  | _ => false

def NotLost (id : String) (p : Webhooks) : Prop :=
  p.tasks.any (answered id) = true → p.tasks.any (ranHandler id) = true

def Unhurried (id : String) (p : Webhooks) (_ : WebhookTurn) (d : Delivery) : Prop :=
  d.claims = some id → p.tasks.any (undecided id) = false

instance (id : String) (p : Webhooks) (x : WebhookTurn) (d : Delivery) : Decidable (Unhurried id p x d) :=
  inferInstanceAs (Decidable (_ → _))

variable {id : String} {d d' : Delivery} {s s' : WebhookState} {x : WebhookTurn} {pre post : List Delivery}

structure Moves (id : String) (d d' : Delivery) (s s' : WebhookState) : Prop where
  event : d'.event = d.event
  ran : ranHandler id d = true → ranHandler id d' = true
  answered : answered id d' = true →
    answered id d = true ∨ ranHandler id d' = true ∨ d.claims = some id ∧ s.redis (eventKey id) ≠ none
  claimed : s'.redis (eventKey id) ≠ none →
    s.redis (eventKey id) ≠ none ∨ undecided id d' = true ∨ ranHandler id d' = true
  undecided : undecided id d = true →
    undecided id d' = true ∨ ranHandler id d' = true ∨ s'.redis (eventKey id) = none

theorem moves_of_ne (h : d.event.id ≠ id) (he : d'.event = d.event)
    (hr : s'.redis (eventKey id) = s.redis (eventKey id)) : Moves id d d' s s' := by
  have hid : ∀ {d : Delivery}, d.event.id ≠ id →
      ranHandler id d = false ∧ Billing.answered id d = false ∧ Billing.undecided id d = false := by
    intro d hd
    cases d <;> simp_all [ranHandler, Billing.answered, Billing.undecided, Delivery.event]
  obtain ⟨hra, -, hu⟩ := hid h
  obtain ⟨-, ha, -⟩ := hid (he ▸ h : d'.event.id ≠ id)
  constructor
  · exact he
  · simp [hra]
  · simp [ha]
  · rw [hr]
    exact .inl
  · simp [hu]

theorem handleWebhookEvent_moves (x : WebhookTurn) (s : WebhookState)
    (ht : d.event.id = id → d.event.type ∈ handledTypes) :
    ∃ d', (handleWebhookEvent x d s).1 = [d'] ∧ Moves id d d' s (handleWebhookEvent x d s).2 := by
  by_cases hid : d.event.id = id
  · cases d with
    | arrived e =>
      unfold handleWebhookEvent
      dsimp only
      split_ifs with hc hh
      · exact ⟨_, rfl, rfl, by simp [ranHandler], by simp [answered], by simp_all [undecided, Delivery.event],
          by simp [undecided]⟩
      · exact absurd (ht hid) hh
      · -- the claim is taken
        have hl : s.redis (eventKey id) ≠ none := by
          intro hn
          obtain rfl : e.id = id := hid
          exact hc (by simp [tryClaimEvent, exec, Store.live_of_none hn])
        exact ⟨_, rfl, rfl, by simp [ranHandler], fun _ => .inr (.inr ⟨congrArg some hid, hl⟩), fun _ => .inl hl,
          by simp [undecided]⟩
    | handling e =>
      unfold handleWebhookEvent
      dsimp only
      split
      · exact ⟨_, rfl, rfl, by simp [ranHandler], by simp [answered], .inl, fun h => .inr (.inl h)⟩
      · exact ⟨_, rfl, rfl, by simp [ranHandler], by simp [answered], .inl, fun h => .inl h⟩
    | completing e =>
      have hr : ranHandler id (.returned e (processedResult e)) = true := by
        simpa [ranHandler, processedResult, Delivery.event] using hid
      exact ⟨_, rfl, rfl, fun _ => hr, fun _ => .inr (.inl hr), fun _ => .inr (.inr hr), by simp [undecided]⟩
    | releasing e error =>
      have hf : releaseEventClaim x.now e.id s.redis (eventKey id) = none := by
        obtain rfl : e.id = id := hid
        simp [releaseEventClaim, exec]
      exact ⟨_, rfl, rfl, by simp [ranHandler], by simp [answered], fun h => absurd hf h, fun _ => .inr (.inr hf)⟩
    | returned e result => exact ⟨_, rfl, rfl, fun h => h, .inl, .inl, .inl⟩
    | raised e error => exact ⟨_, rfl, rfl, fun h => h, .inl, .inl, .inl⟩
  · obtain ⟨⟨d', hd', he⟩, hre, -⟩ := handleWebhookEvent_frame x d s hid
    exact ⟨d', hd', moves_of_ne hid he hre⟩

structure Decided (id : String) (p : Webhooks) : Prop where
  handled : ∀ d ∈ p.tasks, d.event.id = id → d.event.type ∈ handledTypes
  notLost : NotLost id p
  claimed : p.state.redis (eventKey id) ≠ none →
    p.tasks.any (ranHandler id) = true ∨ p.tasks.any (undecided id) = true

theorem any_middle {q : Delivery → Bool} :
    (pre ++ d :: post).any q = true ↔ pre.any q = true ∨ q d = true ∨ post.any q = true := by
  simp

theorem Decided.step (h : Decided id ⟨s, pre ++ d :: post⟩)
    (hx : Unhurried id ⟨s, pre ++ d :: post⟩ x d) :
    Decided id ⟨(handleWebhookEvent x d s).2, pre ++ (handleWebhookEvent x d s).1 ++ post⟩ := by
  obtain ⟨d', hd', hm⟩ := handleWebhookEvent_moves x s (h.handled d (by simp))
  have hh := h.handled
  have hn := fun han => any_middle.mp (h.notLost (any_middle.mpr han))
  have hc := h.claimed
  have hl : ∀ {b a : Prop}, b ∨ ranHandler id d = true ∨ a → b ∨ ranHandler id d' = true ∨ a :=
    Or.imp_right (Or.imp_left hm.ran)
  rw [hd', ← List.append_cons]
  refine ⟨?_, fun han => any_middle.mpr ?_, fun hre => ?_⟩
  · intro d'' hd''
    rcases List.mem_append.mp hd'' with hb | hrs
    · exact hh d'' (List.mem_append_left _ hb)
    rcases List.mem_cons.mp hrs with rfl | ha
    · rw [hm.event]
      exact hh d (by simp)
    · exact hh d'' (by simp [ha])
  · rcases any_middle.mp han with hb | hne | ha
    · exact hl (hn (.inl hb))
    · rcases hm.answered hne with ho | hr | ⟨hcl, hre⟩
      · exact hl (hn (.inr (.inl ho)))
      · exact .inr (.inl hr)
      · -- the claim was taken, and nobody is undecided
        have hr := (hc hre).resolve_right (Bool.eq_false_iff.mp (hx hcl))
        exact hl (any_middle.mp hr)
    · exact hl (hn (.inr (.inr ha)))
  · rw [any_middle, any_middle]
    rcases hm.claimed hre with ho | hu | hr
    · rcases hc ho with hr | hu
      · exact .inl (hl (any_middle.mp hr))
      rcases any_middle.mp hu with hb | hu | ha
      · exact .inr (.inl hb)
      · rcases hm.undecided hu with hu | hr | hf
        · exact .inr (.inr (.inl hu))
        · exact .inl (.inr (.inl hr))
        · exact absurd hf hre
      · exact .inr (.inr (.inr ha))
    · exact .inr (.inr (.inl hu))
    · exact .inl (.inr (.inl hr))

/-- In every run of unhurried turns from a server without a claim of the event, an answer to a delivery of it means that
a handler of it has come to its end. -/
theorem event_not_lost {redis : Store} {clock : ℕ} {events : List StripeEvent} {id : String}
    (hfresh : redis (eventKey id) = none) (htypes : ∀ e ∈ events, e.id = id → e.type ∈ handledTypes)
    {schedule : List (ℕ × WebhookTurn)}
    (hrun : Pool.Permits handleWebhookEvent (Unhurried id) ⟨⟨redis, clock, []⟩, events.map .arrived⟩ schedule) :
    NotLost id (Pool.run handleWebhookEvent ⟨⟨redis, clock, []⟩, events.map .arrived⟩ schedule) := by
  have hs : Decided id ⟨⟨redis, clock, []⟩, events.map .arrived⟩ := by
    refine ⟨fun d hd => ?_, fun ha => ?_, fun hr => absurd hfresh hr⟩
    · obtain ⟨e, he, rfl⟩ := List.mem_map.mp hd
      exact htypes e he
    · rw [List.any_map] at ha
      simp [Function.comp_def, answered] at ha
  have hk := Pool.run_invariant (I := Decided id) (fun _ _ _ _ _ h hx => h.step hx) hs hrun
  exact hk.notLost

/-- A second delivery arrives while the handler of the first one runs, and is answered; then the handler fails, or its
process crashes. -/
theorem event_lost :
    (Pool.run handleWebhookEvent ⟨⟨Store.empty, 0, []⟩, [.arrived payment, .arrived payment]⟩
        [(0, { now := 0 }), (1, { now := 1 }), (0, { now := 2, handler := .error "timeout" }),
          (0, { now := 3 })]).tasks =
      [.raised payment "timeout", .returned payment (duplicateResult payment)] ∧
    (Pool.run handleWebhookEvent ⟨⟨Store.empty, 0, []⟩, [.arrived payment, .arrived payment]⟩
        [(0, { now := 0 }), (1, { now := 1 })]).tasks =
      [.handling payment, .returned payment (duplicateResult payment)] := by
  decide +kernel

theorem redelivered_event_handled :
    (Pool.run handleWebhookEvent ⟨⟨Store.empty, 0, []⟩, [.arrived payment, .arrived payment]⟩
        [(0, { now := 0 }), (0, { now := 1, handler := .error "timeout" }), (0, { now := 2 }), (1, { now := 3 }),
          (1, { now := 4 }), (1, { now := 5 })]).tasks.any (answered "evt_1") = true ∧
      NotLost "evt_1" (Pool.run handleWebhookEvent ⟨⟨Store.empty, 0, []⟩, [payment, payment].map .arrived⟩
        [(0, { now := 0 }), (0, { now := 1, handler := .error "timeout" }), (0, { now := 2 }), (1, { now := 3 }),
          (1, { now := 4 }), (1, { now := 5 })]) := by
  refine ⟨by decide +kernel, event_not_lost rfl (by decide +kernel) ?_⟩
  refine ⟨?_, ?_, ?_, ?_, ?_, ?_, trivial⟩ <;> decide +kernel

end McpworksApi.Billing
