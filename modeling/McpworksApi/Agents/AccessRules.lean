import McpworksApi.Agents.Chat
import McpworksApi.Run.AccessLaw
import McpworksApi.Session.Wp
import McpworksApi.Store.Keys

/-! What the access rules of an agent guarantee about the tools a model calls for it. Neither `_dispatch_tool` nor
`_dispatch_chat_tool` consults the rules, so they keep a denied function or state key out of a model's reach only where
nothing of the kind is there to reach. -/

namespace McpworksApi.Agents

open Models Py Run Services Services.Functions Session

def SameCode (db db' : Db) : Prop :=
  ∀ namespaceId service function f v, getForExecution db' namespaceId service function = .ok (f, v) →
    ∃ g, getForExecution db namespaceId service function = .ok (g, v) ∧ g.serviceId = f.serviceId ∧ g.name = f.name

theorem SameCode.refl (db : Db) : SameCode db db := fun _ _ _ f _ h => ⟨f, h, rfl, rfl⟩

theorem SameCode.trans {db₁ db₂ db₃ : Db} (h₁ : SameCode db₁ db₂) (h₂ : SameCode db₂ db₃) : SameCode db₁ db₃ := by
  intro nid sv fn f v hf
  obtain ⟨g, hg, hgs, hgn⟩ := h₂ _ _ _ _ _ hf
  obtain ⟨k, hk, hks, hkn⟩ := h₁ _ _ _ _ _ hg
  exact ⟨k, hk, hks.trans hgs, hkn.trans hgn⟩

/-! ### Call counts -/

section CallCount

variable (ni : ℕ) (svc fnn : String) (db : Db)

theorem serviceOf_increment (f : Function) : ∃ bump : NamespaceService → NamespaceService,
      (∀ s, (bump s).namespaceId = s.namespaceId ∧ (bump s).name = s.name) ∧
      serviceOf (incrementOrchestrationCallCount ni svc fnn db) f = (serviceOf db f).map bump := by
  refine ⟨fun s => if s.namespaceId = ni ∧ s.name.val = svc then
    { s with callCount := s.callCount + 1 } else s, fun s => ?_, ?_⟩
  · dsimp only
    split <;> exact ⟨rfl, rfl⟩
  · unfold serviceOf incrementOrchestrationCallCount
    rw [Table.get?_updateWhere]
    simp

theorem named_increment (nid : ℕ) (s fn : String) : ∃ bump : Function → Function,
      (∀ f, (bump f).id = f.id ∧ (bump f).serviceId = f.serviceId ∧ (bump f).name = f.name ∧
        (bump f).activeVersion = f.activeVersion) ∧
      named (incrementOrchestrationCallCount ni svc fnn db) nid s fn = (named db nid s fn).map bump := by
  refine ⟨fun f => if (serviceOf db f).any (fun s => s.namespaceId = ni ∧ s.name.val = svc) ∧
    f.name.val = fnn then { f with callCount := f.callCount + 1 } else f, fun f => ?_, ?_⟩
  · dsimp only
    split <;> exact ⟨rfl, rfl, rfl, rfl⟩
  · have hs : ∀ f, (serviceOf (incrementOrchestrationCallCount ni svc fnn db) f).any
        (fun x => x.namespaceId = nid ∧ x.name.val = lower s) =
          (serviceOf db f).any (fun x => x.namespaceId = nid ∧ x.name.val = lower s) := by
      intro f
      obtain ⟨bump, hb, heq⟩ := serviceOf_increment ni svc fnn db f
      rw [heq, Option.any_map]
      congr 1
      funext x
      simp only [(hb x).1, (hb x).2]
    unfold named
    simp only [hs]
    unfold incrementOrchestrationCallCount
    dsimp only
    rw [Table.select_updateWhere_map (f := fun f : Function => { f with callCount := f.callCount + 1 }) fun _ => rfl]
    simp

theorem getForExecution_increment (nid : ℕ) (s fn : String) : ∃ bump : Function → Function,
      (∀ f, (bump f).serviceId = f.serviceId ∧ (bump f).name = f.name) ∧
      getForExecution (incrementOrchestrationCallCount ni svc fnn db) nid s fn =
        (getForExecution db nid s fn).map (Prod.map bump id) := by
  obtain ⟨bump, hb, hn⟩ := named_increment ni svc fnn db nid s fn
  have hv : ∀ f, activeVersion (incrementOrchestrationCallCount ni svc fnn db) (bump f) = activeVersion db f := by
    intro f
    unfold activeVersion
    rw [(hb f).1, (hb f).2.2.2]
    rfl
  refine ⟨bump, fun f => ⟨(hb f).2.1, (hb f).2.2.1⟩, ?_⟩
  unfold getForExecution
  rw [hn, scalarOneOrNone_map]
  rcases scalarOneOrNone (named db nid s fn) with e | _ | f
  · rfl
  · rfl
  · simp only [Except.map, Option.map_some, bind, Except.bind, hv]
    cases activeVersion db f <;> rfl

theorem sameCode_increment : SameCode db (incrementOrchestrationCallCount ni svc fnn db) := by
  intro nid s fn f v hf
  obtain ⟨bump, hb, hg⟩ := getForExecution_increment ni svc fnn db nid s fn
  rw [hg] at hf
  rcases hd : getForExecution db nid s fn with e | ⟨g, v'⟩ <;> rw [hd] at hf <;> cases hf
  exact ⟨g, rfl, (hb g).1.symm, (hb g).2.symm⟩

end CallCount

/-! ### What is denied -/

def DeniedRow (agent : Agent) (db : Db) (f : Function) : Prop :=
  ∃ s, serviceOf db f = some s ∧ ¬ AllowedAs agent s.name.val f.name.val

def AllowedKey (agent : Agent) (key : String) : Prop := (Access.checkStateAccess agent.accessRules key).1 = true

def ToolReply.shownKeys : ToolReply → List String
  | state (.str key) _ => [key]
  | state _ _ => [""]
  | keys ks _ => ks
  | found entries _ _ => entries.map Prod.fst
  | _ => []

/-- A dispatch ran nothing that is denied, showed no denied key and wrote none. -/
structure Respects (agent : Agent) (db : Db) (out : Except ApiError ToolReply × World) : Prop where
  ran : ∀ p ∈ out.2.ran, ¬ DeniedRow agent db p.1
  shown : ∀ reply, out.1 = .ok reply → ∀ key ∈ reply.shownKeys, AllowedKey agent key
  written : ∀ e : AgentState, ¬ AllowedKey agent e.key →
    (e ∈ out.2.db.agentStates.rows ↔ e ∈ db.agentStates.rows)

/-- Both dispatchers respect the agent's rules, whatever call the model makes, in any setting, and
whatever it answers in a procedure. -/
def Guarded (env : AgentEnv) (db : Db) (agent : Agent) (state : List (String × Json)) : Prop :=
  ∀ (ai : ℕ → Except ApiError AiResponse) (ctx : ToolContext) (account : ChatAccount) (name : String) (input : Args),
    ctx.agent = agent → ctx.agentState = state →
      Respects agent db (dispatchTool { env with ai } ctx name input { db }) ∧
        Respects agent db (dispatchChatTool { env with ai } account ctx name input { db })

/-- Some tool name leads to the function, and a backend starts it. -/
structure Callable (env : AgentEnv) {db : Db} {namespaceId : ℕ} (x : Stored db namespaceId) : Prop where
  unique : x.Unique
  registered : env.run.sandbox.registered x.version.backend = true
  starts : Starts env.run.sandbox .python x.version
  tool : ∃ name service function, parseToolName name = some (service, function) ∧ x.SpelledAs service function

def Findable (dumps : Json → String) (state : List (String × Json)) (key : String) : Prop :=
  ∃ query before value after, lower query ≠ "" ∧ state = before ++ (key, value) :: after ∧
    mentions dumps (lower query) (key, value) = true ∧ (before.filter (mentions dumps (lower query))).length < 20

def Writable (env : AgentEnv) (db : Db) (agent : Agent) (key : String) : Prop :=
  ∃ (tier : UserTier) (value : Json) (found : Agent × Option AgentState),
    checkSetState db agent.accountId agent.name key (encode (env.dumps value)).length (tierValue tier) = .ok found

/-- All that can be reached is allowed. -/
structure NothingDenied (env : AgentEnv) (db : Db) (agent : Agent) (state : List (String × Json)) : Prop where
  functions : ∀ x : Stored db agent.namespaceId, Callable env x → ¬ Denied agent x
  entries : ∀ a, getAgent db agent.accountId agent.name = .ok a → ∀ e ∈ entriesOf db a.id, AllowedKey agent e.key
  snapshot : ∀ key, Findable env.dumps state key → AllowedKey agent key
  writes : ∀ key, Writable env db agent key → AllowedKey agent key

/-! ### Functions -/

section Functions

variable {env : AgentEnv} {db : Db} {agent : Agent} {st : List (String × Json)} {ctx : ToolContext} {inp : Args}

/-- What holds of the world while calls are dispatched: the code is that of `db`, the state entries
are untouched, and nothing denied was run. -/
structure Intact (agent : Agent) (db : Db) (w : World) : Prop where
  sameCode : SameCode db w.db
  states : w.db.agentStates = db.agentStates
  ran : ∀ p ∈ w.ran, ¬ DeniedRow agent db p.1

theorem Intact.request {w : World} {r : ServerRequest} (h : Intact agent db w) : Intact agent db (w.request r) :=
  ⟨h.sameCode, h.states, h.ran⟩

theorem intact_init (agent : Agent) (db : Db) : Intact agent db { db } :=
  ⟨.refl db, rfl, by simp [World.ran]⟩

theorem deniedRow_congr {f g : Function} (hs : g.serviceId = f.serviceId) (hn : g.name = f.name) :
    DeniedRow agent db f ↔ DeniedRow agent db g := by
  unfold DeniedRow serviceOf
  rw [hs, hn]

theorem deniedRow_iff_denied {x : Stored db agent.namespaceId} : DeniedRow agent db x.function ↔ Denied agent x := by
  unfold DeniedRow Denied
  rw [x.serviceOf_eq]
  simp

theorem not_deniedRow_of_found (hno : ∀ x : Stored db agent.namespaceId, Callable env x →
    ¬ Denied agent x) {w : World}
    (hw : Intact agent db w) {name sv fn : String} (hp : parseToolName name = some (sv, fn))
    {f : Function} {v : FunctionVersion} (hf : getForExecution w.db agent.namespaceId sv fn = .ok (f, v))
    (hr : env.run.sandbox.registered v.backend = true) (hs : Starts env.run.sandbox .python v) :
    ¬ DeniedRow agent db f := by
  obtain ⟨g, hg, hgs, hgn⟩ := hw.sameCode _ _ _ _ _ hf
  obtain ⟨x, rfl, rfl, hsp, hu⟩ := stored_of_getForExecution hg
  rw [deniedRow_congr hgs hgn, deniedRow_iff_denied]
  exact hno x ⟨hu, hr, hs, name, sv, fn, hp, hsp⟩

theorem executeFunction_intact {f : Function} {v : FunctionVersion} {ve : Json}
    {ct : Option (List (String × Json))} (h : Starts env.run.sandbox .python v → ¬ DeniedRow agent db f) :
    Maintains (Intact agent db) (executeFunction env.run.sandbox .python f v ve [] ct)
      fun _ => True := by
  refine .write_bind (fun w hw => ⟨hw.sameCode, hw.states, fun p hp => ?_⟩) (.pure trivial)
  rw [World.ran_record, List.mem_append] at hp
  rcases hp with hp | hp
  · exact hw.ran p hp
  · by_cases hs : Starts env.run.sandbox .python v
    · rw [functionCall_ran_of_starts hs, List.mem_singleton] at hp
      rw [hp]
      exact h hs
    · rw [functionCall_ran_of_not_starts hs] at hp
      cases hp

variable (hno : ∀ x : Stored db agent.namespaceId, Callable env x → ¬ Denied agent x)

include hno

theorem executeNamespaceFunction_intact {name sv fn : String} {rid : Option String}
    (hp : parseToolName name = some (sv, fn)) :
    Maintains (Intact agent db) (executeNamespaceFunction env agent sv fn inp st rid)
      fun r => r.shownKeys = [] := by
  refine .query_bind fun w hw => ?_
  rcases hf : getForExecution w.db agent.namespaceId sv fn with e | ⟨f, v⟩
  · exact .pure rfl
  dsimp only
  split
  · rename_i hr
    refine .bind (executeFunction_intact fun hs =>
      not_deniedRow_of_found hno hw hp hf hr hs) fun result _ => ?_
    split
    · refine .write_bind (fun w hw => ⟨hw.sameCode.trans (sameCode_increment _ _ _ _), hw.states, hw.ran⟩) ?_
      split <;> exact .pure rfl
    · exact .pure rfl
  · exact .pure rfl

theorem dispatchNamespaceTool_intact (ha : ctx.agent = agent) (name : String) :
    Maintains (Intact agent db) (dispatchNamespaceTool env ctx name inp) fun r => r.shownKeys = [] := by
  subst ha
  exact dispatchNamespaceTool_maintains (fun _ => rfl) fun _ _ hp => executeNamespaceFunction_intact hno hp

theorem dispatchPlainTool_intact (ha : ctx.agent = agent) (name : String) :
    Maintains (Intact agent db) (dispatchPlainTool env ctx name inp) fun r => r.shownKeys = [] := by
  subst ha
  exact dispatchPlainTool_maintains (fun _ _ => Intact.request) (fun _ => rfl) (fun _ => rfl) fun _ _ hp =>
    executeNamespaceFunction_intact hno hp

theorem undisturbing_intact : Undisturbing env agent (Intact agent db) where
  asked _ _ hw := ⟨hw.sameCode, hw.states, hw.ran⟩
  runs _ _ _ _ hw := ⟨hw.sameCode, hw.states, hw.ran⟩
  executions _ _ hw := ⟨hw.sameCode, hw.states, hw.ran⟩
  called _ ha tool _ := (dispatchPlainTool_intact hno ha tool).forget

theorem runProcedureTool_intact (ha : ctx.agent = agent) (tier : Except ApiError String) :
    Maintains (Intact agent db) (runProcedureTool env ctx tier inp) fun r => r.shownKeys = [] := by
  unfold runProcedureTool
  refine .write_bind (fun _ hw => ⟨hw.sameCode, hw.states, hw.ran⟩) ?_
  split
  · exact .pure rfl
  split
  · refine .handle ?_ fun e => .pure rfl
    refine .fetch_bind fun _ t _ _ => ?_
    subst ha
    refine .bind (Undisturbing.runProcedureOrchestration ?_ _ _ _) fun r _ => .pure rfl
    exact undisturbing_intact hno
  · exact .pure rfl

theorem dispatchTool_intact (ha : ctx.agent = agent) (name : String) :
    Maintains (Intact agent db) (dispatchTool env ctx name inp) fun r => r.shownKeys = [] := by
  unfold dispatchTool
  split
  · split
    · exact runProcedureTool_intact hno ha _
    · exact .pure rfl
  · exact dispatchPlainTool_intact hno ha name

end Functions

/-! ### States -/

section States

variable {env : AgentEnv} {db : Db} {ag : Agent} {st : List (String × Json)} {ctx : ToolContext} {input : Args}

theorem mem_take_filter {α : Type} {p : α → Bool} {n : ℕ} {l : List α} {x : α} : x ∈ (l.filter p).take n ↔
      ∃ before after, l = before ++ x :: after ∧ p x = true ∧ (before.filter p).length < n := by
  constructor
  · intro hx
    obtain ⟨s, t, hst⟩ := List.append_of_mem hx
    have hs : s.length < n := by
      have hl := congrArg List.length hst
      simp only [List.length_take, List.length_append, List.length_cons] at hl
      omega
    have hf : l.filter p = s ++ x :: (t ++ (l.filter p).drop n) := by
      rw [← List.cons_append, ← List.append_assoc, ← hst, List.take_append_drop]
    obtain ⟨before, rest, rfl, rfl, hr⟩ := List.filter_eq_append_iff.mp hf
    obtain ⟨gap, after, rfl, hg, hx, -⟩ := List.filter_eq_cons_iff.mp hr
    exact ⟨before ++ gap, after, by simp, hx, by simpa [List.filter_eq_nil_iff.mpr hg] using hs⟩
  · rintro ⟨before, after, rfl, hx, hl⟩
    obtain ⟨m, rfl⟩ := Nat.exists_eq_add_of_lt hl
    simp [hx, List.take_append, Nat.add_assoc]

variable {name key tier : String} {aid : ℕ} {e : AgentState}

theorem findable_iff {dump : Json → String} : Findable dump st key ↔ ∃ query, lower query ≠ "" ∧
      key ∈ ((matchingEntries dump st (lower query)).take 20).map Prod.fst := by
  simp only [matchingEntries, ← List.map_take, List.map_map, List.mem_map, mem_take_filter]
  constructor
  · rintro ⟨query, before, value, after, hq, hs, hm, hl⟩
    exact ⟨query, hq, (key, value), ⟨before, after, hs, hm, hl⟩, rfl⟩
  · rintro ⟨query, hq, ⟨k, value⟩, ⟨before, after, hs, hm, hl⟩, rfl⟩
    exact ⟨query, before, value, after, hq, hs, hm, hl⟩

theorem shownKeys_state (h : keyArgument input = .ok key) (v : Json) :
    (ToolReply.state ((input.get? "key").getD .null) v).shownKeys = [key] := by
  unfold keyArgument at h
  rcases hg : input.get? "key" with _ | j
  · rw [hg] at h
    cases h
    rfl
  · rw [hg] at h
    cases j <;> cases h
    rfl

theorem mem_entriesOf_of_findEntry {gid : ℕ}
    (h : findEntry db gid key = .ok (some e)) : e ∈ entriesOf db gid ∧ e.key = key := by
  have hm := mem_of_scalarOneOrNone h
  obtain ⟨hr, hp⟩ := Table.mem_select.mp hm
  simp only [Bool.decide_and, Bool.and_eq_true, decide_eq_true_eq] at hp
  exact ⟨Table.mem_select.mpr ⟨hr, by simpa using hp.1⟩, hp.2⟩

theorem mem_entriesOf_of_getState (h : getState db aid name key = .ok e) :
    ∃ a, getAgent db aid name = .ok a ∧ e ∈ entriesOf db a.id ∧ e.key = key := by
  obtain ⟨a, ha, h⟩ := bind_eq_ok.mp h
  obtain ⟨r, hr, h⟩ := bind_eq_ok.mp h
  cases r with
  | none => cases h
  | some x =>
    cases h
    exact ⟨a, ha, mem_entriesOf_of_findEntry hr⟩

theorem checkSetState_eq_ok {size : ℕ} {a : Agent} {existing : Option AgentState}
    (h : checkSetState db aid name key size tier = .ok (a, existing)) :
    getAgent db aid name = .ok a ∧ findEntry db a.id key = .ok existing := by
  obtain ⟨b, hb, h⟩ := bind_eq_ok.mp h
  obtain ⟨lim, -, h⟩ := bind_eq_ok.mp h
  obtain ⟨found, hf, h⟩ := bind_eq_ok.mp h
  dsimp only at h
  split at h
  · cases h
  split at h
  · cases h
  cases h
  exact ⟨hb, hf⟩

theorem mem_listStateKeys {info : StateKeys}
    (h : listStateKeys db aid name tier = .ok info) (key : String) :
    ∃ a, getAgent db aid name = .ok a ∧ (key ∈ info.keys ↔ ∃ e ∈ entriesOf db a.id, e.key = key) := by
  obtain ⟨a, ha, h⟩ := bind_eq_ok.mp h
  obtain ⟨lim, -, h⟩ := bind_eq_ok.mp h
  cases h
  exact ⟨a, ha, by simp [List.mem_mergeSort]⟩

theorem exists_tier {now : Time} {ac : ChatAccount} (h : chatTier now ac = .ok tier) :
    ∃ t, tier = tierValue t := by
  match ac, h with
  | none, h => exact ⟨.proAgent, (Except.ok.inj h).symm⟩
  | some (_, some u), h => exact ⟨_, (Except.ok.inj h).symm⟩
  | some (_, none), h => cases h

theorem respects_of_intact {m : Api ToolReply}
    (h : Maintains (Intact ag db) m fun r => r.shownKeys = []) : Respects ag db (m { db }) := by
  obtain ⟨hin, hre⟩ := h _ (intact_init ag db)
  refine ⟨hin.ran, fun reply hr key hk => ?_, fun e _ => by rw [hin.states]⟩
  rw [hre reply hr] at hk
  cases hk

theorem respects_of_reads {m : Api ToolReply}
    (h : Maintains (fun w => w.db = db ∧ w.ran = []) m fun r => ∀ key ∈ r.shownKeys, AllowedKey ag key) :
    Respects ag db (m { db }) := by
  obtain ⟨⟨hdb, hr⟩, hre⟩ := h { db } ⟨rfl, rfl⟩
  exact ⟨by simp [hr], hre, fun e _ => by rw [hdb]⟩

theorem respects_of_wp {m : Api ToolReply} (h : Wp m
    (fun r w => (w.ran = [] ∧ r.shownKeys = []) ∧ ∀ e : AgentState, ¬ AllowedKey ag e.key →
      (e ∈ w.db.agentStates.rows ↔ e ∈ db.agentStates.rows))
    (fun _ w => w.ran = [] ∧ w.db = db) { db }) : Respects ag db (m { db }) := by
  unfold Wp at h
  rcases hm : m { db } with ⟨e | r, w⟩ <;> rw [hm] at h
  · exact ⟨by simp [h.1], fun _ hr => (by cases hr), fun e _ => by rw [h.2]⟩
  · refine ⟨by simp [h.1.1], fun _ hr key hk => ?_, h.2⟩
    cases hr
    rw [h.1.2] at hk
    cases hk

theorem dispatchChatTool_eq_of_not_platform {ac : ChatAccount} (hn : name ∉ platformToolNames) :
    dispatchChatTool env ac ctx name input =
      if isMcpTool name then dispatchMcpTool env ctx name input else dispatchNamespaceTool env ctx name input := by
  unfold dispatchChatTool
  dsimp only
  split
  case h_7 => rfl
  all_goals exact absurd (by decide) hn

theorem dispatchChatTool_of_not_platform {ac : ChatAccount} (hn : name ∉ platformToolNames)
    (hm : isMcpTool name = false) :
    dispatchChatTool env ac ctx name input = dispatchNamespaceTool env ctx name input := by
  rw [dispatchChatTool_eq_of_not_platform hn, hm, if_neg Bool.false_ne_true]

variable {acc : ChatAccount} (h : NothingDenied env db ag st)

include h

theorem get_state_respects (hag : ctx.agent = ag) :
    Respects ag db (dispatchChatTool env acc ctx "get_state" input { db }) := by
  subst hag
  refine respects_of_reads (.write_bind (fun w hw => hw)
    (.handle ?_ fun _ => .pure (by simp [stateNotFound, ToolReply.shownKeys])))
  refine .fetch_bind fun _ key _ hk => .fetch_bind fun w entry hw he => .pure ?_
  rw [shownKeys_state hk]
  rw [hw.1] at he
  obtain ⟨a, ha, hm, rfl⟩ := mem_entriesOf_of_getState he
  simpa using h.entries a ha entry hm

theorem list_state_keys_respects (hag : ctx.agent = ag) :
    Respects ag db (dispatchChatTool env acc ctx "list_state_keys" input { db }) := by
  subst hag
  refine respects_of_reads (.write_bind (fun w hw => hw) ?_)
  refine .fetch_bind fun _ tier _ _ => .fetch_bind fun w info hw hin => .pure fun key hk => ?_
  rw [hw.1] at hin
  obtain ⟨a, ha, hke⟩ := mem_listStateKeys hin key
  obtain ⟨e, he, rfl⟩ := hke.mp hk
  exact h.entries a ha e he

theorem search_state_respects (hs : ctx.agentState = st) :
    Respects ag db (dispatchChatTool env acc ctx "search_state" input { db }) := by
  subst hs
  refine respects_of_reads (.write_bind (fun w hw => hw) ?_)
  unfold searchState
  split
  · rename_i q hq
    split
    · exact .pure (by simp [ToolReply.shownKeys])
    · rename_i hne
      exact .pure fun key hk => h.snapshot key (findable_iff.mpr ⟨q, hne, hk⟩)
  · exact .raise

omit h in
theorem send_to_channel_respects :
    Respects ag db (dispatchChatTool env acc ctx "send_to_channel" input { db }) :=
  respects_of_reads (.write_bind (fun _ hw => hw) (.fetch_bind fun _ _ _ _ => .pure (by simp [ToolReply.shownKeys])))

theorem set_state_respects (ha : ctx.agent = ag) :
    Respects ag db (dispatchChatTool env acc ctx "set_state" input { db }) := by
  subst ha
  refine respects_of_wp (.write_bind (.fetch_bind (fun _ _ => ⟨rfl, rfl⟩) fun tier ht => .fetch_bind
    (fun _ _ => ⟨rfl, rfl⟩) fun key _ => .bind (.fetch_bind (fun _ _ => ⟨rfl, rfl⟩) fun found hc => ?_)))
  obtain ⟨t, rfl⟩ := exists_tier ht
  have hk := h.writes key ⟨t, _, found, hc⟩
  have hne : ∀ e : AgentState, ¬ AllowedKey ctx.agent e.key → e.key ≠ key := fun e he heq => he (heq ▸ hk)
  obtain ⟨a, _ | entry⟩ := found
  · refine .write ⟨⟨rfl, rfl⟩, fun e he => ?_⟩
    exact (Table.puts_insert _ _ _).mem_iff_of_ne (fun b hb hid => absurd hid (Table.freshId_ne hb)) (hne e he)
  · obtain ⟨hm, hek⟩ := mem_entriesOf_of_findEntry (checkSetState_eq_ok hc).2
    have hen : entry ∈ db.agentStates.rows := (Table.mem_select.mp hm).1
    refine .write ⟨⟨rfl, rfl⟩, fun e he => ?_⟩
    apply Table.Puts.mem_iff_of_ne (Table.puts_update _ (Table.get?_eq_some.mpr ⟨hen, rfl⟩))
      (fun b hb hid => by rw [Table.eq_of_id_eq hb hen hid]) (hek.symm ▸ hne e he)
    exact fun _ => rfl

theorem dispatchChatTool_respects (ha : ctx.agent = ag) (hs : ctx.agentState = st) (name : String) :
    Respects ag db (dispatchChatTool env acc ctx name input { db }) := by
  by_cases hp : name ∈ platformToolNames
  · simp only [platformToolNames, List.mem_cons, List.not_mem_nil, or_false] at hp
    rcases hp with rfl | rfl | rfl | rfl | rfl | rfl
    · exact send_to_channel_respects
    · exact get_state_respects h ha
    · exact set_state_respects h ha
    · exact list_state_keys_respects h ha
    · exact search_state_respects h hs
    · exact respects_of_intact (runProcedureTool_intact h.functions ha _)
  rcases hm : isMcpTool name with _ | _
  · rw [dispatchChatTool_of_not_platform hp hm]
    exact respects_of_intact (dispatchNamespaceTool_intact h.functions ha name)
  · rw [dispatchChatTool_eq_of_not_platform hp, hm, if_pos rfl]
    exact respects_of_intact (dispatchMcpTool_maintains (fun _ _ => Intact.request) (fun _ => rfl) fun _ => rfl)

end States

/-! ### What can be reached -/

section Reached

variable {env : AgentEnv} {db : Db} {agent : Agent} {state : List (String × Json)}

def tierUser (tier : UserTier) : User := { id := 0, email := "", tier }

def bareContext (agent : Agent) (state : List (String × Json)) : ToolContext where
  agent := agent
  accountId := agent.accountId
  tier := "pro-agent"
  agentState := state

theorem executeNamespaceFunction_runs {w : World} {sv fn : String} {input : Args} {f : Function}
    {v : FunctionVersion} (hf : getForExecution w.db agent.namespaceId sv fn = .ok (f, v))
    (hr : env.run.sandbox.registered v.backend = true) (hs : Starts env.run.sandbox .python v) :
    (f, v) ∈ (executeNamespaceFunction env agent sv fn input state none w).2.ran := by
  unfold executeNamespaceFunction
  rw [query_bind_apply, hf]
  dsimp only
  rw [if_pos hr]
  refine Maintains.bind_from (I := fun w : World => (f, v) ∈ w.ran) (Q := fun _ => True) ?_ fun r => ?_
  · rw [executeFunction_of_starts hs]
    simp
  split
  · refine .write_bind (fun _ hw => hw) ?_
    split <;> exact .pure trivial
  · exact .pure trivial

theorem parseToolName_not_platform {name : String} {parsed : String × String} (h : parseToolName name = some parsed) :
    name ∉ platformToolNames ∧ isMcpTool name = false := by
  unfold parseToolName at h
  split at h
  · cases h
  split at h
  · cases h
  · exact ⟨‹_›, by simpa using ‹¬ isMcpTool name = true›⟩

theorem Guarded.functions (h : Guarded env db agent state) (x : Stored db agent.namespaceId) (hx : Callable env x) :
    ¬ Denied agent x := by
  obtain ⟨name, sv, fn, hp, hs⟩ := hx.tool
  obtain ⟨hn, hm⟩ := parseToolName_not_platform hp
  have hr := (h env.ai (bareContext agent state) none name [] rfl rfl).2.ran
  rw [dispatchChatTool_of_not_platform hn hm, dispatchNamespaceTool, hp] at hr
  rw [← deniedRow_iff_denied]
  exact hr (x.function, x.version) (executeNamespaceFunction_runs
    (Stored.getForExecution_of_spelledAs hx.unique hs) hx.registered hx.starts)

theorem Guarded.entries (h : Guarded env db agent state) (a : Agent)
    (ha : getAgent db agent.accountId agent.name = .ok a) (e : AgentState) (he : e ∈ entriesOf db a.id) :
    AllowedKey agent e.key := by
  obtain ⟨info, hin⟩ : ∃ info, listStateKeys db agent.accountId agent.name "pro-agent" = .ok info :=
    ⟨_, bind_eq_ok.mpr ⟨a, ha, bind_eq_ok.mpr ⟨_, rfl, rfl⟩⟩⟩
  have hs := (h env.ai (bareContext agent state) none "list_state_keys" [] rfl rfl).2.shown
  refine hs (.keys info.keys info.totalSizeBytes) ?_ e.key ?_
  · have hst : dispatchChatTool { env with ai := env.ai } none (bareContext agent state) "list_state_keys" []
        { db } = listStateKeysTool agent.accountId agent.name "pro-agent"
          { db, platform := ["list_state_keys"] } := rfl
    rw [hst]
    simp only [listStateKeysTool, fetch_bind_apply, hin]
    rfl
  · obtain ⟨b, hb, hk⟩ := mem_listStateKeys hin e.key
    rw [ha] at hb
    cases hb
    exact hk.mpr ⟨e, he, rfl⟩

theorem Guarded.snapshot (h : Guarded env db agent state) (key : String) (hk : Findable env.dumps state key) :
    AllowedKey agent key := by
  obtain ⟨q, hq, hm⟩ := findable_iff.mp hk
  have hs := (h env.ai (bareContext agent state) none "search_state" [("query", .str q)] rfl rfl).2.shown
  refine hs (.found ((matchingEntries env.dumps state (lower q)).take 20) (lower q) state.length) ?_ key hm
  have hst : dispatchChatTool { env with ai := env.ai } none (bareContext agent state) "search_state"
      [("query", .str q)] { db } =
        searchState env [("query", .str q)] state { db, platform := ["search_state"] } := rfl
  rw [hst]
  simp [searchState, Args.get?, hq]

theorem Guarded.writes (h : Guarded env db agent state) (key : String) (hk : Writable env db agent key) :
    AllowedKey agent key := by
  obtain ⟨tier, value, ⟨a, old⟩, hc⟩ := hk
  obtain ⟨ha, he⟩ := checkSetState_eq_ok hc
  cases old with
  | some entry =>
    obtain ⟨hm, rfl⟩ := mem_entriesOf_of_findEntry he
    exact h.entries a ha entry hm
  | none =>
    by_contra hd
    have hw := (h env.ai (bareContext agent state) (some (⟨0, 0, none⟩, some (tierUser tier))) "set_state"
      [("key", .str key), ("value", value)] rfl rfl).2.written
    have hs : dispatchChatTool { env with ai := env.ai } (some (⟨0, 0, none⟩, some (tierUser tier)))
        (bareContext agent state) "set_state" [("key", .str key), ("value", value)] { db } =
          (do
            setState env.dumps agent.accountId agent.name key value (tierValue tier)
            pure (.stored (.str key)) : Api ToolReply) { db, platform := ["set_state"] } := rfl
    rw [hs, bind_pure_snd] at hw
    simp only [setState, fetch_bind_apply, hc] at hw
    have hn := (hw ⟨db.agentStates.freshId, a.id, key, value, (encode (env.dumps value)).length⟩ hd).mp
      (List.mem_append_right _ (List.mem_singleton_self _))
    exact Table.freshId_ne hn rfl

end Reached

/-- Both dispatchers respect the agent's rules exactly when nothing the rules deny can be
reached. -/
theorem guarded_iff (env : AgentEnv) (db : Db) (agent : Agent) (state : List (String × Json)) :
    Guarded env db agent state ↔ NothingDenied env db agent state := by
  constructor
  · intro h
    exact ⟨h.functions, h.entries, h.snapshot, h.writes⟩
  · intro h ai ctx account name input ha hs
    have h' : NothingDenied { env with ai } db agent state :=
      ⟨fun x hx => h.functions x ⟨hx.unique, hx.registered, hx.starts, hx.tool⟩, h.entries, h.snapshot, h.writes⟩
    exact ⟨respects_of_intact (dispatchTool_intact h'.functions ha name),
      dispatchChatTool_respects h' ha hs name⟩

section Instances

def clerkAgent : Agent :=
  { mailAgent "mail" with
    accessRules := some
      { functionRules := [{ type := some .denyServices, patterns := ["mail"] }]
        stateRules := [{ type := some .denyKeys, patterns := ["secret"] }] } }

def clerkDb : Db :=
  { mailDb "mail" with
    agents := .single clerkAgent
    agentStates := .single { id := 8, agentId := 6, key := "secret", value := .str "42", sizeBytes := 4 } }

def clerkRan (name : String) : List String :=
  (dispatchTool plainAgentEnv (bareContext clerkAgent []) name [] { db := clerkDb }).2.ran.map (·.1.name.val)

def clerkShown (name : String) (input : Args) : List String :=
  match (dispatchChatTool plainAgentEnv none (bareContext clerkAgent []) name input { db := clerkDb }).1 with
  | .ok reply => reply.shownKeys
  | .error _ => []

/-- An orchestration runs the denied function, and a chat reads the denied key. -/
theorem denied_tools_reached :
    (Access.checkFunctionAccess clerkAgent.accessRules "mail" "send" (some clerkAgent.trustScore)).1 = false ∧
      clerkRan "mail__send" = ["send"] ∧ (Access.checkStateAccess clerkAgent.accessRules "secret").1 = false ∧
      clerkShown "get_state" [("key", .str "secret")] = ["secret"] ∧
      ¬ Guarded plainAgentEnv clerkDb clerkAgent [] := by
  have hd : (Access.checkStateAccess clerkAgent.accessRules "secret").1 = false := by decide +kernel
  refine ⟨by decide +kernel, by decide +kernel, hd, by decide +kernel, fun hg => ?_⟩
  have hs := (hg plainAgentEnv.ai (bareContext clerkAgent []) none "get_state" [("key", .str "secret")]
    rfl rfl).2.shown (.state (.str "secret") (.str "42")) (by rfl) "secret" (List.mem_singleton_self _)
  rw [AllowedKey, hd] at hs
  cases hs

end Instances

end McpworksApi.Agents
