import McpworksApi.Run.Dispatch
import McpworksApi.Session.Trace

/-! The registry of running executions (`core/exec_token_registry.py`). An execution in code mode registers a context
under its caller's API key, the code inside calls the MCP and API proxies with that key, and at its end the key is
taken out again. -/

namespace McpworksApi.Run.Registry

open Models Py

structure ExecutionContext where
  executionId : String
  namespaceId : ℕ
  namespaceName : String
  mcpCallsCount : ℕ := 0
  mcpBytesTotal : ℕ := 0
  apiCallsCount : ℕ := 0
  passthroughEnv : List (String × String) := []
  deriving DecidableEq, Repr

structure Execution where
  token : String
  namespaceId : ℕ
  namespaceName : String
  executionId : String
  passthroughEnv : List (String × String) := []
  deriving DecidableEq, Repr

def Execution.context (x : Execution) : ExecutionContext where
  executionId := x.executionId
  namespaceId := x.namespaceId
  namespaceName := x.namespaceName
  passthroughEnv := x.passthroughEnv

inductive Proxy
  | mcp
  | api
  deriving DecidableEq, Repr

/-- The steps of the executions: one registers itself, its code calls a proxy with its key, the
server behind a call answers with some bytes or not at all, and it ends. -/
inductive Action
  | register (x : Execution)
  | call (x : Execution) (proxy : Proxy)
  | answered (i : ℕ) (bytes : Option ℕ)
  | unregister (x : Execution)
  deriving DecidableEq

/-- `registry` refers to contexts by their execution id and `objects` are the contexts; `inFlight`
are the calls that resolved a context and wait for their server; `stats` are the counters
that finished executions have reported. -/
structure State where
  registry : String → Option String := fun _ => none
  objects : String → Option ExecutionContext := fun _ => none
  running : List Execution := []
  inFlight : List (String × Proxy) := []
  stats : List (String × ℕ × ℕ) := []

def ExecutionContext.count (c : ExecutionContext) : Proxy → Option ℕ → ExecutionContext
  | _, none => c
  | .mcp, some bytes => { c with mcpCallsCount := c.mcpCallsCount + 1, mcpBytesTotal := c.mcpBytesTotal + bytes }
  | .api, some _ => { c with apiCallsCount := c.apiCallsCount + 1 }

namespace State

def registerExecution (s : State) (x : Execution) : State :=
  { s with
    registry := Function.update s.registry x.token (some x.executionId)
    objects := Function.update s.objects x.executionId (some x.context)
    running := s.running ++ [x] }

def resolveExecution (s : State) (token : String) : Option ExecutionContext := (s.registry token).bind s.objects

def callProxy (s : State) (x : Execution) (proxy : Proxy) : State :=
  match s.registry x.token with
  | none => s
  | some id => { s with inFlight := s.inFlight ++ [(id, proxy)] }

def answer (s : State) (i : ℕ) (bytes : Option ℕ) : State :=
  match s.inFlight[i]? with
  | none => s
  | some (id, proxy) =>
    { s with
      inFlight := s.inFlight.eraseIdx i
      objects := Function.update s.objects id ((s.objects id).map (·.count proxy bytes)) }

/-- The end of an execution: it reports the counters of the context that its key resolves to, and
takes its key out (`unregister_execution`). -/
def unregisterExecution (s : State) (x : Execution) : State :=
  let counters := ((s.resolveExecution x.token).map fun c => (c.mcpCallsCount, c.mcpBytesTotal)).getD (0, 0)
  { s with
    registry := Function.update s.registry x.token none
    running := s.running.erase x
    stats := s.stats ++ [(x.executionId, counters)] }

def step (s : State) : Action → State
  | .register x => s.registerExecution x
  | .call x proxy => s.callProxy x proxy
  | .answered i bytes => s.answer i bytes
  | .unregister x => s.unregisterExecution x

def Allows (s : State) : Action → Prop
  | .register x => s.objects x.executionId = none
  | .call x _ => x ∈ s.running
  | .answered i _ => i < s.inFlight.length
  | .unregister x => x ∈ s.running

end State

def after (past : List Action) : State := past.foldl State.step {}

theorem after_concat (past : List Action) (a : Action) : after (past ++ [a]) = (after past).step a := by
  rw [after, List.foldl_append]
  rfl

structure Schedule where
  actions : List Action
  valid : Trace.Guarded (fun past a => (after past).Allows a) actions

structure ExecutionContext.BelongsTo (c : ExecutionContext) (x : Execution) : Prop where
  executionId_eq : c.executionId = x.executionId
  namespaceId_eq : c.namespaceId = x.namespaceId
  namespaceName_eq : c.namespaceName = x.namespaceName
  passthroughEnv_eq : c.passthroughEnv = x.passthroughEnv

theorem ExecutionContext.BelongsTo.count {c : ExecutionContext} {x : Execution} (h : c.BelongsTo x) (proxy : Proxy)
    (bytes : Option ℕ) : (c.count proxy bytes).BelongsTo x := by
  cases bytes <;> cases proxy <;> exact ⟨h.1, h.2, h.3, h.4⟩

def BoundTo (x : Execution) (s : State) : Prop :=
  ∃ c, s.resolveExecution x.token = some c ∧ s.objects x.executionId = some c ∧ c.BelongsTo x

def Undisturbed (x : Execution) (past : List Action) : Prop :=
  ∀ y, y ≠ x → y.token = x.token →
    ¬Trace.Before (.register x) (.register y) past ∧ ¬Trace.Before (.register x) (.unregister y) past

theorem undisturbed_concat {x : Execution} {past : List Action} {a : Action}
    (h : ∀ y, y ≠ x → y.token = x.token → a ≠ .register y ∧ a ≠ .unregister y) :
    Undisturbed x (past ++ [a]) ↔ Undisturbed x past := by
  refine forall₃_congr fun y hne ht => ?_
  obtain ⟨hr, hu⟩ := h y hne ht
  rw [Trace.before_concat, Trace.before_concat]
  simp [hr.symm, hu.symm]

structure Tracks (past : List Action) (s : State) : Prop where
  keyed : ∀ id c, s.objects id = some c → c.executionId = id
  objects : ∀ x, .register x ∈ past → ∃ c, s.objects x.executionId = some c ∧ c.BelongsTo x
  registered : ∀ x ∈ s.running, .register x ∈ past
  nodup : s.running.Nodup
  owner : ∀ x ∈ s.running, s.registry x.token = some x.executionId ↔ Undisturbed x past

namespace Tracks

variable {past : List Action} {s : State}

theorem not_registered (h : Tracks past s) {x : Execution} (hf : s.objects x.executionId = none) :
    .register x ∉ past := by
  intro hx
  obtain ⟨c, hc, -⟩ := h.objects x hx
  rw [hf] at hc
  cases hc

theorem registered_ne (h : Tracks past s) {x y : Execution} (hf : s.objects x.executionId = none)
    (hy : .register y ∈ past) : y.executionId ≠ x.executionId := by
  intro heq
  obtain ⟨c, hc, -⟩ := h.objects y hy
  rw [heq, hf] at hc
  cases hc

theorem register (h : Tracks past s) {x : Execution} (hf : s.objects x.executionId = none) :
    Tracks (past ++ [.register x]) (s.registerExecution x) where
  keyed := by
    intro id c hc
    change Function.update s.objects x.executionId (some x.context) id = some c at hc
    by_cases hid : id = x.executionId
    · subst hid
      rw [Function.update_self] at hc
      obtain rfl := Option.some.inj hc
      rfl
    · rw [Function.update_of_ne hid] at hc
      exact h.keyed id c hc
  objects := by
    intro y hy
    change ∃ c, Function.update s.objects x.executionId (some x.context) y.executionId = some c ∧ _
    rcases List.mem_append.mp hy with hy | hy
    · rw [Function.update_of_ne (h.registered_ne hf hy)]
      exact h.objects y hy
    · obtain rfl : y = x := by simpa using hy
      exact ⟨y.context, Function.update_self .., ⟨rfl, rfl, rfl, rfl⟩⟩
  registered := by
    intro y hy
    rcases List.mem_append.mp hy with hy | hy
    · exact List.mem_append_left _ (h.registered y hy)
    · obtain rfl := List.mem_singleton.mp hy
      exact List.mem_append_right _ (List.mem_singleton_self _)
  nodup := by
    refine h.nodup.append (List.nodup_singleton x) fun y hy hx => ?_
    obtain rfl := List.mem_singleton.mp hx
    exact h.not_registered hf (h.registered y hy)
  owner := by
    intro y hy
    change Function.update s.registry x.token (some x.executionId) y.token = some y.executionId ↔ _
    rcases List.mem_append.mp hy with hy | hy
    · have hr := h.registered y hy
      have hne : x ≠ y := by
        rintro rfl
        exact h.not_registered hf hr
      by_cases ht : y.token = x.token
      · rw [ht, Function.update_self, Option.some.injEq]
        refine iff_of_false (h.registered_ne hf hr).symm fun hu => ?_
        exact (hu x hne ht.symm).1 (Trace.before_concat.mpr (.inr ⟨hr, rfl⟩))
      · rw [Function.update_of_ne ht, h.owner y hy, undisturbed_concat]
        intro z _ hz
        refine ⟨?_, by simp⟩
        rintro ⟨⟩
        exact ht hz.symm
    · obtain rfl := List.mem_singleton.mp hy
      rw [Function.update_self]
      refine iff_of_true rfl fun z hz _ => ⟨fun hb => ?_, fun hb => ?_⟩
      · rcases Trace.before_concat.mp hb with hb | ⟨-, heq⟩
        · exact h.not_registered hf hb.left_mem
        · exact hz (by simpa using heq)
      · rcases Trace.before_concat.mp hb with hb | ⟨-, heq⟩
        · exact h.not_registered hf hb.left_mem
        · cases heq

theorem unregister (h : Tracks past s) (x : Execution) :
    Tracks (past ++ [.unregister x]) (s.unregisterExecution x) where
  keyed := h.keyed
  objects := fun y hy => h.objects y (by simpa using hy)
  registered := fun y hy => List.mem_append_left _ (h.registered y (List.mem_of_mem_erase hy))
  nodup := h.nodup.erase x
  owner := by
    intro y hy
    obtain ⟨hne, hy⟩ := h.nodup.mem_erase_iff.mp hy
    change Function.update s.registry x.token none y.token = some y.executionId ↔ _
    by_cases ht : y.token = x.token
    · rw [ht, Function.update_self]
      refine iff_of_false (by simp) fun hu => ?_
      exact (hu x hne.symm ht.symm).2 (Trace.before_concat.mpr (.inr ⟨h.registered y hy, rfl⟩))
    · rw [Function.update_of_ne ht, h.owner y hy, undisturbed_concat]
      intro z _ hz
      refine ⟨by simp, ?_⟩
      rintro ⟨⟩
      exact ht hz.symm

theorem call (h : Tracks past s) (x : Execution) (proxy : Proxy) :
    Tracks (past ++ [.call x proxy]) (s.callProxy x proxy) := by
  have hk : (s.callProxy x proxy).objects = s.objects ∧ (s.callProxy x proxy).registry = s.registry ∧
      (s.callProxy x proxy).running = s.running := by
    rw [State.callProxy]
    split <;> exact ⟨rfl, rfl, rfl⟩
  obtain ⟨ho, hre, hr⟩ := hk
  refine ⟨ho ▸ h.keyed, fun y hy => ho ▸ h.objects y (by simpa using hy), fun y hy => ?_,
    hr ▸ h.nodup, fun y hy => ?_⟩
  · exact List.mem_append_left _ (h.registered y (hr ▸ hy))
  · rw [hre, undisturbed_concat (by simp)]
    exact h.owner y (hr ▸ hy)

theorem answered (h : Tracks past s) (i : ℕ) (bytes : Option ℕ) :
    Tracks (past ++ [.answered i bytes]) (s.answer i bytes) := by
  have hk : (s.answer i bytes).registry = s.registry ∧ (s.answer i bytes).running = s.running := by
    rw [State.answer]
    split <;> exact ⟨rfl, rfl⟩
  have ho : ∀ id, (s.answer i bytes).objects id = s.objects id ∨
      ∃ proxy, (s.answer i bytes).objects id = (s.objects id).map (·.count proxy bytes) := by
    intro id
    rw [State.answer]
    split
    · exact .inl rfl
    · rename_i id' proxy _
      by_cases hid : id = id'
      · subst hid
        exact .inr ⟨proxy, Function.update_self ..⟩
      · exact .inl (Function.update_of_ne hid ..)
  refine ⟨fun id c hc => ?_, fun y hy => ?_, fun y hy => ?_, hk.2 ▸ h.nodup, fun y hy => ?_⟩
  · rcases ho id with heq | ⟨proxy, heq⟩
    · exact h.keyed id c (heq ▸ hc)
    · rw [heq, Option.map_eq_some_iff] at hc
      obtain ⟨c', hc', rfl⟩ := hc
      rw [← h.keyed id c' hc']
      cases bytes <;> cases proxy <;> rfl
  · obtain ⟨c, hc, hb⟩ := h.objects y (by simpa using hy)
    rcases ho y.executionId with heq | ⟨proxy, heq⟩
    · exact ⟨c, heq ▸ hc, hb⟩
    · exact ⟨c.count proxy bytes, by rw [heq, hc]; rfl, hb.count proxy bytes⟩
  · exact List.mem_append_left _ (h.registered y (hk.2 ▸ hy))
  · rw [hk.1, undisturbed_concat (by simp)]
    exact h.owner y (hk.2 ▸ hy)

theorem step (h : Tracks past s) {a : Action} (ha : s.Allows a) : Tracks (past ++ [a]) (s.step a) := by
  cases a with
  | register x => exact h.register ha
  | call x proxy => exact h.call x proxy
  | answered i bytes => exact h.answered i bytes
  | unregister x => exact h.unregister x

theorem boundTo_iff (h : Tracks past s) {x : Execution} (hx : x ∈ s.running) : BoundTo x s ↔ Undisturbed x past := by
  rw [← h.owner x hx]
  obtain ⟨c, hc, hb⟩ := h.objects x (h.registered x hx)
  constructor
  · rintro ⟨c', hr, ho, -⟩
    obtain ⟨id, hid, ho'⟩ := Option.bind_eq_some_iff.mp hr
    rw [hid, ← h.keyed id c' ho', h.keyed _ c' ho]
  · intro how
    exact ⟨c, Option.bind_eq_some_iff.mpr ⟨_, how, hc⟩, hc, hb⟩

end Tracks

theorem tracks_after {past : List Action} (h : Trace.Guarded (fun past a => (after past).Allows a) past) :
    Tracks past (after past) := by
  induction past using List.reverseRecOn with
  | nil =>
    refine ⟨fun _ _ hc => ?_, fun _ hx => ?_, fun _ hx => ?_, List.nodup_nil, fun _ hx => ?_⟩
    · cases hc
    all_goals cases hx
  | append_singleton past a ih =>
    rw [after_concat]
    exact (ih h.of_append).step (h past a [] rfl)

def Schedule.Bound (r : Schedule) : Prop :=
  ∀ past x proxy later, r.actions = past ++ .call x proxy :: later → BoundTo x (after past)

def Schedule.Undisturbed (r : Schedule) : Prop :=
  ∀ past x proxy later, r.actions = past ++ .call x proxy :: later → Registry.Undisturbed x past

/-- Calls resolve to their own contexts exactly in the interleavings in which they are not
disturbed. -/
theorem bound_iff_undisturbed (r : Schedule) : r.Bound ↔ r.Undisturbed := by
  refine forall₄_congr fun past x proxy ls => forall_congr' fun ha => ?_
  have hv : Trace.Guarded (fun past a => (after past).Allows a) (past ++ .call x proxy :: ls) :=
    ha ▸ r.valid
  exact (tracks_after hv.of_append).boundTo_iff (hv past _ ls rfl)

def overlap : Schedule where
  actions :=
    [.register { token := "mcpw_key", namespaceId := 1, namespaceName := "mail", executionId := "a" },
      .register { token := "mcpw_key", namespaceId := 2, namespaceName := "bank", executionId := "b" },
      .call { token := "mcpw_key", namespaceId := 1, namespaceName := "mail", executionId := "a" } .mcp]
  valid := by
    refine ((Trace.guarded_nil.concat ?_).concat ?_).concat ?_
    · rfl
    · rfl
    · exact List.mem_cons_self

/-- The call of the first execution acts in the second one's namespace. -/
theorem call_resolves_to_other_namespace : ¬overlap.Bound := by
  intro hb
  obtain ⟨c, hr, -, hbe⟩ := hb [_, _] _ .mcp [] rfl
  obtain rfl : ({ executionId := "b", namespaceId := 2, namespaceName := "bank" } : ExecutionContext) = c :=
    Option.some.inj hr
  exact absurd hbe.namespaceId_eq (by decide)

end McpworksApi.Run.Registry
