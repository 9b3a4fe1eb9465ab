import McpworksApi.Agents.AccessRules
import McpworksApi.Agents.EntryPoints
import McpworksApi.Agents.ProcedureRuns

/-! Functions that are covered by a procedure. A model should get to them only with `run_procedure`, and both
dispatchers refuse a direct call whose name is one of the covered tool names. -/

namespace McpworksApi.Agents

open Models Py Run Services Services.Functions

def coveredNames (db : Db) (namespaceId : ℕ) : List String := (procedureCovered db namespaceId).map Prod.fst

def Covered {db : Db} {namespaceId : ℕ} (x : Stored db namespaceId) : Prop :=
  ∃ p ∈ db.procedures.rows, p.namespaceId = namespaceId ∧ p.isDeleted = false ∧
    ∃ v, activeProcedureVersion db p = some v ∧ ∃ step ∈ v.steps, step.failurePolicy = .required ∧
      ∃ service function, splitOnce "." step.functionRef = some (service, function) ∧
        getForExecution db namespaceId service function = .ok (x.function, x.version)

def Enforced (env : AgentEnv) (db : Db) (agent : Agent) : Prop :=
  ∀ x : Stored db agent.namespaceId, Covered x → ∀ (ctx : ToolContext) (account : ChatAccount)
    (name : String) (input : Args),
    ctx.agent = agent → ctx.procedureCovered = procedureCovered db agent.namespaceId → name ≠ "run_procedure" →
      (x.function, x.version) ∉ (dispatchTool env ctx name input { db }).2.ran ∧
        (x.function, x.version) ∉ (dispatchChatTool env account ctx name input { db }).2.ran

structure Runnable (env : AgentEnv) {db : Db} {namespaceId : ℕ} (x : Stored db namespaceId) : Prop where
  registered : env.run.sandbox.registered x.version.backend = true
  starts : Starts env.run.sandbox .python x.version

section Calls

variable {env : AgentEnv} {ctx : ToolContext} {acc : ChatAccount} {name : String} {inp : Args} {w : World}
  {p : Function × FunctionVersion}

theorem pythonCalls_ran (sb : Sandbox) (f : Function) (v : FunctionVersion) (ve : Json)
    (ct : List (String × Json)) :
    (pythonCalls sb f v ve ct []).flatMap (·.ran) = [] ∨
      sb.registered v.backend = true ∧ Starts sb .python v ∧
        (pythonCalls sb f v ve ct []).flatMap (·.ran) = [(f, v)] := by
  unfold pythonCalls
  split
  · rename_i hr
    rw [List.flatMap_singleton]
    by_cases hs : Starts sb .python v
    · exact .inr ⟨hr, hs, functionCall_ran_of_starts hs⟩
    · exact .inl (functionCall_ran_of_not_starts hs)
  · exact .inl rfl

theorem ran_executeNamespaceFunction (env : AgentEnv) (agent : Agent) (svc fn : String) (inp : Args)
    (st : List (String × Json)) (rid : Option String) (w : World) :
    (executeNamespaceFunction env agent svc fn inp st rid w).2.ran = w.ran ∨
      ∃ p, getForExecution w.db agent.namespaceId svc fn = .ok p ∧
        env.run.sandbox.registered p.2.backend = true ∧ Starts env.run.sandbox .python p.2 ∧
          (executeNamespaceFunction env agent svc fn inp st rid w).2.ran = w.ran ++ [p] := by
  rcases hg : getForExecution w.db agent.namespaceId svc fn with e | ⟨f, v⟩
  · left
    unfold executeNamespaceFunction
    rw [Session.query_bind_apply, hg]
    rfl
  · obtain ⟨context, hc⟩ := executeNamespaceFunction_calls env inp st rid hg
    unfold World.ran
    rw [hc, List.flatMap_append]
    rcases pythonCalls_ran env.run.sandbox f v (.obj inp) context with hn | ⟨hr, hs, hra⟩
    · left
      rw [hn, List.append_nil]
    · right
      rw [hra]
      exact ⟨(f, v), rfl, hr, hs, rfl⟩

theorem dispatchNamespaceTool_of_parse {svc fn : String} (hp : parseToolName name = some (svc, fn))
    (hf : ctx.procedureCovered.find? (·.1 = name) = none) :
    dispatchNamespaceTool env ctx name inp =
      executeNamespaceFunction env ctx.agent svc fn inp ctx.agentState ctx.agentRunId := by
  rw [dispatchNamespaceTool, hp]
  simp only [hf]

theorem ran_dispatchNamespaceTool (env : AgentEnv) (ctx : ToolContext) (name : String) (inp : Args) (w : World) :
    (dispatchNamespaceTool env ctx name inp w).2.ran = w.ran ∨
      ∃ svc fn p, parseToolName name = some (svc, fn) ∧ name ∉ ctx.procedureCovered.map Prod.fst ∧
        getForExecution w.db ctx.agent.namespaceId svc fn = .ok p ∧
          env.run.sandbox.registered p.2.backend = true ∧ Starts env.run.sandbox .python p.2 ∧
            (dispatchNamespaceTool env ctx name inp w).2.ran = w.ran ++ [p] := by
  rcases hp : parseToolName name with _ | ⟨svc, fn⟩
  · left
    rw [dispatchNamespaceTool, hp]
    rfl
  rcases hf : ctx.procedureCovered.find? (·.1 = name) with _ | ⟨key, label⟩
  · rw [dispatchNamespaceTool_of_parse hp hf]
    refine (ran_executeNamespaceFunction env ctx.agent svc fn inp ctx.agentState ctx.agentRunId w).imp_right ?_
    rintro ⟨p, hg, hr, hs, hra⟩
    refine ⟨svc, fn, p, rfl, fun hm => ?_, hg, hr, hs, hra⟩
    obtain ⟨e, he, rfl⟩ := List.mem_map.mp hm
    have hno := List.find?_eq_none.mp hf e he
    simp at hno
  · have hk : KeepsCalls (coveredReply name label) := by
      unfold coveredReply
      split
      · exact .raise _
      · exact .pure _
    have hc : dispatchNamespaceTool env ctx name inp = coveredReply name label := by
      rw [dispatchNamespaceTool, hp]
      simp only [hf]
    rw [hc]
    exact .inl (hk.ran_eq w)

theorem mem_ran_dispatchNamespaceTool (h : p ∈ (dispatchNamespaceTool env ctx name inp w).2.ran) :
    p ∈ w.ran ∨ ∃ svc fn, parseToolName name = some (svc, fn) ∧
      name ∉ ctx.procedureCovered.map Prod.fst ∧
        getForExecution w.db ctx.agent.namespaceId svc fn = .ok p ∧
          env.run.sandbox.registered p.2.backend = true ∧ Starts env.run.sandbox .python p.2 := by
  rcases ran_dispatchNamespaceTool env ctx name inp w with hs | ⟨svc, fn, q, hp, hn, hg, hr, hst, hra⟩
  · rw [hs] at h
    exact .inl h
  · rw [hra, List.mem_append, List.mem_singleton] at h
    refine h.imp_right ?_
    rintro rfl
    exact ⟨svc, fn, hp, hn, hg, hr, hst⟩

theorem keepsCalls_dispatchMcpTool : KeepsCalls (dispatchMcpTool env ctx name inp) :=
  Session.Keeps.iff_maintains.mpr fun _ =>
    dispatchMcpTool_maintains (fun _ _ h => h) (fun _ => trivial) fun _ => trivial

theorem keepsCalls_dispatchAgentApiTool {agent : Agent} : KeepsCalls (dispatchAgentApiTool env agent name inp) :=
  Session.Keeps.iff_maintains.mpr fun _ =>
    dispatchAgentApiTool_maintains agent (fun _ _ h => h) (fun _ => trivial) fun _ => trivial

theorem mem_ran_dispatchTool (hn : name ≠ "run_procedure") (h : p ∈ (dispatchTool env ctx name inp w).2.ran) :
    p ∈ w.ran ∨ p ∈ (dispatchNamespaceTool env ctx name inp w).2.ran := by
  unfold dispatchTool at h
  rw [if_neg hn] at h
  unfold dispatchPlainTool at h
  split at h
  · rename_i ha
    rw [if_neg (not_platform_of_allowed ha)] at h
    split at h
    · rw [keepsCalls_dispatchMcpTool.ran_eq] at h
      exact .inl h
    split at h
    · rw [keepsCalls_dispatchAgentApiTool.ran_eq] at h
      exact .inl h
    · exact .inr h
  · exact .inl h

theorem keepsCalls_recordPlatform : KeepsCalls (recordPlatform name) := .write fun _ => rfl

theorem keepsCalls_setState {dump : Json → String} {aid : ℕ} {an key tier : String} {v : Json} :
    KeepsCalls (setState dump aid an key v tier) := by
  refine .fetch_bind fun found => ?_
  obtain ⟨agent, old⟩ := found
  cases old with
  | none => exact .write fun _ => rfl
  | some entry => exact .write fun _ => rfl

theorem keepsCalls_platform (hp : name ∈ platformToolNames) (hn : name ≠ "run_procedure") :
    KeepsCalls (dispatchChatTool env acc ctx name inp) := by
  have hs : ∀ aid agentName, KeepsCalls (getStateTool aid agentName inp) := fun _ _ =>
    .fetch_bind fun _ => .fetch_bind fun _ => .pure _
  simp only [platformToolNames, List.mem_cons, List.not_mem_nil, or_false] at hp
  rcases hp with rfl | rfl | rfl | rfl | rfl | rfl
  · exact keepsCalls_recordPlatform.bind fun _ => .fetch_bind fun _ => .pure _
  · exact keepsCalls_recordPlatform.bind fun _ => (hs _ _).handle fun _ => .pure _
  · exact keepsCalls_recordPlatform.bind fun _ => .fetch_bind fun _ => .fetch_bind fun _ =>
      keepsCalls_setState.bind fun _ => .pure _
  · exact keepsCalls_recordPlatform.bind fun _ => .fetch_bind fun _ => .fetch_bind fun _ =>
      .pure _
  · refine keepsCalls_recordPlatform.bind fun _ => ?_
    unfold searchState
    split
    · split <;> exact .pure _
    · exact .raise _
  · exact absurd rfl hn

theorem mem_ran_dispatchChatTool (hn : name ≠ "run_procedure")
    (h : p ∈ (dispatchChatTool env acc ctx name inp w).2.ran) :
    p ∈ w.ran ∨ p ∈ (dispatchNamespaceTool env ctx name inp w).2.ran := by
  by_cases hp : name ∈ platformToolNames
  · rw [(keepsCalls_platform hp hn).ran_eq] at h
    exact .inl h
  · rw [dispatchChatTool_eq_of_not_platform hp] at h
    split at h
    · rw [keepsCalls_dispatchMcpTool.ran_eq] at h
      exact .inl h
    · exact .inr h

end Calls

section Law

variable {env : AgentEnv} {db : Db} {agent : Agent} {x : Stored db agent.namespaceId}

def coveredContext (db : Db) (agent : Agent) : ToolContext :=
  { bareContext agent [] with procedureCovered := procedureCovered db agent.namespaceId }

theorem Enforced.mem_coveredNames (h : Enforced env db agent) (hx : Covered x) (hr : Runnable env x)
    {name svc fn : String} (hp : parseToolName name = some (svc, fn))
    (hg : getForExecution db agent.namespaceId svc fn = .ok (x.function, x.version)) :
    name ∈ coveredNames db agent.namespaceId := by
  by_contra hn
  obtain ⟨hpl, hm⟩ := parseToolName_not_platform hp
  have hna : name ≠ "run_procedure" := by
    rintro rfl
    exact hpl (by decide)
  have hc := (h x hx (coveredContext db agent) none name [] rfl rfl hna).2
  have hf : (coveredContext db agent).procedureCovered.find? (·.1 = name) = none := by
    refine List.find?_eq_none.mpr fun e he heq => hn ?_
    exact List.mem_map.mpr ⟨e, he, by simpa using heq⟩
  rw [dispatchChatTool_of_not_platform hpl hm, dispatchNamespaceTool, hp] at hc
  dsimp only at hc
  rw [hf] at hc
  exact hc (executeNamespaceFunction_runs hg hr.registered hr.starts)

/-- Direct calls are kept from the covered functions exactly when each tool name that leads to one
that can be run is itself a covered name. -/
theorem enforced_iff (env : AgentEnv) (db : Db) (agent : Agent) :
    Enforced env db agent ↔ ∀ x : Stored db agent.namespaceId, Covered x → Runnable env x →
      ∀ name service function, parseToolName name = some (service, function) →
        getForExecution db agent.namespaceId service function = .ok (x.function, x.version) →
          name ∈ coveredNames db agent.namespaceId := by
  constructor
  · intro h x hx hru name service function hp hg
    exact h.mem_coveredNames hx hru hp hg
  · intro hc x hx ctx account name input ha hco hn
    have hnt : (x.function, x.version) ∉ (dispatchNamespaceTool env ctx name input { db }).2.ran := by
      intro hr
      subst ha
      rcases mem_ran_dispatchNamespaceTool hr with hr | ⟨service, function, hp, hno, hg, hre, hs⟩
      · cases hr
      · rw [hco] at hno
        exact hno (hc x hx ⟨hre, hs⟩ name service function hp hg)
    exact ⟨fun h => (mem_ran_dispatchTool hn h).elim List.not_mem_nil hnt,
      fun h => (mem_ran_dispatchChatTool hn h).elim List.not_mem_nil hnt⟩

theorem Covered.unique (hx : Covered x) : x.Unique := by
  obtain ⟨-, -, -, -, -, -, -, -, -, svc, fn, -, hg⟩ := hx
  obtain ⟨y, hf, -, -, hu⟩ := stored_of_getForExecution hg
  have hs : y.service = x.service := Option.some.inj (by rw [← y.serviceOf_eq, ← x.serviceOf_eq, hf])
  unfold Stored.Unique at hu ⊢
  rwa [hf, hs] at hu

theorem dot_not_mem_of_covered {nid : ℕ} {name : String} (h : name ∈ coveredNames db nid) :
    '.' ∉ name.toList := by
  obtain ⟨e, he, rfl⟩ := List.mem_map.mp h
  obtain ⟨p, -, he⟩ := List.mem_flatMap.mp (List.mem_reverse.mp he)
  split at he
  · obtain ⟨step, -, rfl⟩ := List.mem_map.mp he
    intro hd
    simp only [dotsToUnderscores, String.toList_ofList, List.mem_flatMap] at hd
    obtain ⟨c, -, hc⟩ := hd
    split at hc
    · simp at hc
    · rename_i hne
      exact hne (List.mem_singleton.mp hc).symm
  · cases he

theorem infix_of_infix_dot {a b : List Char} (h : ['_', '_'] <:+: a ++ '.' :: b) :
    ['_', '_'] <:+: a ∨ ['_', '_'] <:+: b := by
  induction a with
  | nil =>
    rcases List.infix_cons_iff.mp h with hp | hin
    · simp at hp
    · exact .inr hin
  | cons c a ih =>
    rcases List.infix_cons_iff.mp h with hp | hin
    · cases a with
      | nil => simp at hp
      | cons d a => exact .inl (List.infix_cons_iff.mpr (.inl (by simpa using hp)))
    · exact (ih hin).imp_left fun h => List.infix_cons_iff.mpr (.inr h)

def dottedName (x : Stored db agent.namespaceId) : String := x.service.name.val ++ "." ++ x.function.name.val

theorem parseToolName_dottedName (hs : contains x.service.name.val "__" = false)
    (hf : contains x.function.name.val "__" = false) :
    parseToolName (dottedName x) = some (x.service.name.val, x.function.name.val) := by
  have hd : '.' ∈ (dottedName x).toList := by simp [dottedName]
  have hu : contains (dottedName x) "__" = false := by
    rw [Bool.eq_false_iff] at hs hf ⊢
    intro h
    have hin := contains_eq_true.mp h
    simp only [dottedName, String.toList_append, List.append_assoc] at hin
    rcases infix_of_infix_dot hin with h | h
    · exact hs (contains_eq_true.mpr h)
    · exact hf (contains_eq_true.mpr h)
  have hp : dottedName x ∉ platformToolNames := by
    intro h
    have ha : platformToolNames.all (fun t => decide ('.' ∉ t.toList)) = true := by decide
    exact of_decide_eq_true (List.all_eq_true.mp ha _ h) hd
  have hm : isMcpTool (dottedName x) = false := by
    rw [Bool.eq_false_iff] at hu ⊢
    intro h
    refine hu (contains_eq_true.mpr ?_)
    have hpr := List.isPrefixOf_iff_prefix.mp h
    exact List.IsInfix.trans ⟨['m', 'c', 'p'], [], rfl⟩ hpr.isInfix
  have hc : contains (dottedName x) "." = true :=
    contains_eq_true.mpr ⟨x.service.name.val.toList, x.function.name.val.toList, by simp [dottedName]⟩
  unfold parseToolName
  rw [if_neg hp, if_neg (by simp [hm]), if_neg (by simp [hu]), if_pos hc]
  exact splitOnce_dot.mpr ⟨rfl, x.service.name.dot_not_mem⟩

theorem not_enforced_of_dot (hx : Covered x) (hr : Runnable env x) (hs : contains x.service.name.val "__" = false)
    (hf : contains x.function.name.val "__" = false) : ¬ Enforced env db agent := by
  intro h
  have hg := Stored.getForExecution_of_spelledAs hx.unique x.spelledAs_self
  have hm := h.mem_coveredNames hx hr (parseToolName_dottedName hs hf) hg
  exact dot_not_mem_of_covered hm (by simp [dottedName])

end Law

section Instances

def newsletterRan (name : String) : List String × List String :=
  let ctx := coveredContext newsletterDb (newsletterAgent)
  ((dispatchTool plainAgentEnv ctx name [] { db := newsletterDb }).2.ran.map (·.1.name.val),
    (dispatchChatTool plainAgentEnv none ctx name [] { db := newsletterDb }).2.ran.map (·.1.name.val))

/-- The covered function is refused under its own name and run under two other spellings. -/
theorem covered_function_called_directly :
    newsletterRan "mail__send" = ([], []) ∧ newsletterRan "Mail__send" = (["send"], ["send"]) ∧
      newsletterRan "mail.send" = ([], ["send"]) ∧ ¬ Enforced plainAgentEnv newsletterDb (newsletterAgent) := by
  -- The stored function `mail.send`, which the procedure covers.
  let x : Stored newsletterDb 1 :=
    ⟨{ id := 3, namespaceId := 1, name := .mail }, { id := 4, serviceId := 3, name := .send },
      { id := 5, functionId := 4, code := some "result = 1" }, List.mem_singleton_self _, rfl, rfl, rfl, rfl⟩
  have hc : Covered x :=
    ⟨_, List.mem_singleton_self _, rfl, rfl, _, rfl, _, List.mem_singleton_self _, rfl, "mail",
      "send", by rfl, by rfl⟩
  refine ⟨by decide +kernel, by decide +kernel, by decide +kernel, ?_⟩
  exact not_enforced_of_dot hc ⟨rfl, _, rfl⟩ (by decide) (by decide)

end Instances

end McpworksApi.Agents
