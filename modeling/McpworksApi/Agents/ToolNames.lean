import McpworksApi.Agents.Enforcement
import McpworksApi.Agents.OfferedTools
import McpworksApi.Run.PackageLaw

/-! The names under which the functions of a namespace are advertised to a model, and what the dispatcher makes of
them. A name is joined of a service and a function with a double underscore and taken apart at its first one; a service
name may hold one itself, and the prefixes `mcp__` and `api__` belong to other branches. -/

namespace McpworksApi.Agents

open Models Py Run Services Services.Functions

variable {db : Db} {namespaceId : ℕ} {env : AgentEnv} {ctx : ToolContext} {input : Args} {w : World}

def advertisedName (x : Stored db namespaceId) : String := x.service.name.val ++ "__" ++ x.function.name.val

theorem contains_advertisedName (x : Stored db namespaceId) : contains (advertisedName x) "__" = true :=
  contains_eq_true.mpr ⟨x.service.name.val.toList, x.function.name.val.toList, by
    simp [advertisedName, String.toList_append]⟩

theorem advertisedName_not_restricted (x : Stored db namespaceId) : advertisedName x ∉ restrictedAgentTools := by
  have hp : ∀ t ∈ restrictedAgentTools, contains t "__" = false := by decide
  intro hm
  have hc := contains_advertisedName x
  rw [hp _ hm] at hc
  cases hc

theorem mem_buildToolDefinitions {name : String} : name ∈ buildToolDefinitions db namespaceId false true ↔
    (∃ x : Stored db namespaceId, name = advertisedName x) ∨ name ∈ platformToolNames := by
  have hpl : platformToolNames.filter (fun t => !(true && decide (t ∈ restrictedAgentTools))) =
    platformToolNames := by
    decide
  rw [buildToolDefinitions, List.mem_append, if_neg Bool.false_ne_true, hpl]
  refine or_congr ?_ Iff.rfl
  simp only [List.mem_filterMap, Bool.false_and, Bool.false_eq_true, if_false, true_and]
  constructor
  · rintro ⟨⟨f, v⟩, hp, hn⟩
    obtain ⟨x, rfl, rfl⟩ := mem_listAllForNamespace.mp hp
    split at hn
    · cases hn
    · refine ⟨x, ?_⟩
      rw [← Option.some.inj hn]
      simp [advertisedName, x.serviceOf_eq]
  · rintro ⟨x, rfl⟩
    refine ⟨(x.function, x.version), mem_listAllForNamespace.mpr ⟨x, rfl, rfl⟩, ?_⟩
    have hn : ((serviceOf db x.function).map (·.name.val)).getD "unknown" ++ "__" ++ x.function.name.val =
        advertisedName x := by
      simp [advertisedName, x.serviceOf_eq]
    simp only [hn]
    rw [if_neg (advertisedName_not_restricted x)]

variable {x : Stored db namespaceId}

theorem splitOnce_advertisedName (h : contains x.service.name.val "__" = false) :
    splitOnce "__" (advertisedName x) = some (x.service.name.val, x.function.name.val) :=
  splitOnce_underscores h x.service.name.getLast_ne_underscore

theorem service_of_startsWith (h : contains x.service.name.val "__" = false) {p : String}
    (hp : contains p "__" = false) (hl : p.toList.getLast? ≠ some '_')
    (hst : startsWith (advertisedName x) (p ++ "__") = true) : x.service.name.val = p := by
  obtain ⟨rest, hr⟩ := List.isPrefixOf_iff_prefix.mp hst
  have hj : advertisedName x = p ++ "__" ++ String.ofList rest := by
    refine String.toList_injective ?_
    rw [← hr]
    simp
  have hs := splitOnce_advertisedName h
  rw [hj, splitOnce_underscores hp hl] at hs
  exact (Prod.mk.inj (Option.some.inj hs)).1.symm

theorem startsWith_advertisedName {p : String} (h : x.service.name.val = p) :
    startsWith (advertisedName x) (p ++ "__") = true := by
  refine List.isPrefixOf_iff_prefix.mpr ⟨x.function.name.val.toList, ?_⟩
  rw [advertisedName, h]
  exact String.toList_append.symm

theorem parseToolName_of_split {name : String} {p : String × String} (hp : name ∉ platformToolNames)
    (hm : isMcpTool name = false) (hs : splitOnce "__" name = some p) : parseToolName name = some p := by
  have hc : contains name "__" = true := by
    rw [eq_append_of_splitOnce hs]
    exact contains_eq_true.mpr ⟨p.1.toList, p.2.toList, by simp [String.toList_append]⟩
  rw [parseToolName, if_neg hp, hm, if_neg Bool.false_ne_true, if_pos hc, hs]

theorem lower_of_split {s f : String} (h : splitOnce "__" (advertisedName x) = some (s, f)) :
    lower s = s ∧ lower f = f := by
  have hch : ∀ c ∈ (advertisedName x).toList, lowerChar c = [c] := by
    intro c hc
    have hj : (advertisedName x).toList =
        x.service.name.val.toList ++ "__".toList ++ x.function.name.val.toList := by
      simp [advertisedName, String.toList_append]
    rw [hj, List.mem_append, List.mem_append] at hc
    rcases hc with (hc | hc) | hc
    · exact Name.lowerChar_chars _ (x.service.name.mem_chars hc)
    · have hu : c = '_' := by simpa using hc
      subst hu
      rfl
    · exact Name.lowerChar_chars _ (x.function.name.mem_chars hc)
  have hj := congrArg String.toList (eq_append_of_splitOnce h)
  rw [String.toList_append, String.toList_append] at hj
  refine ⟨lower_eq_self fun c hc => hch c ?_, lower_eq_self fun c hc => hch c ?_⟩
  · rw [hj]
    exact List.mem_append_left _ (List.mem_append_left _ hc)
  · rw [hj]
    exact List.mem_append_right _ hc

theorem dispatchTool_advertisedName : dispatchTool env ctx (advertisedName x) input =
      if isMcpTool (advertisedName x) then dispatchMcpTool env ctx (advertisedName x) input
      else if startsWith (advertisedName x) "api__" then dispatchAgentApiTool env ctx.agent (advertisedName x) input
      else dispatchNamespaceTool env ctx (advertisedName x) input := by
  have ha : Access.isToolAllowed (effectiveToolTier ctx.agent ctx.triggerType) (advertisedName x) = true :=
    isToolAllowed_of_underscores _ _ _
  have hp := not_platform_of_allowed ha
  have hpr : advertisedName x ≠ "run_procedure" := by
    intro heq
    exact hp (heq ▸ by decide)
  rw [dispatchTool, if_neg hpr, dispatchPlainTool, if_pos ha, if_neg hp]

theorem keeps_executeNamespaceFunction {γ : Type} {g : World → γ} (hr : ∀ w c, g (w.record c) = g w)
    (hdb : ∀ w db, g { w with db } = g w) (ag : Agent) (svc fn : String) (st : List (String × Json))
    (rid : Option String) :
    Session.Keeps g (executeNamespaceFunction env ag svc fn input st rid) := by
  refine Session.Keeps.iff_maintains.mpr fun x =>
    executeNamespaceFunction_maintains (fun w c hw => ?_) (fun w _ _ _ hw => ?_) _ _ _ _ _
  · exact (hr w c).trans hw
  · exact (hdb w _).trans hw

/-- After the step from `w` to `w'` exactly the stored function has been called, with the input, and
nothing else was done outside of the database. -/
structure CalledOnly (sb : Sandbox) (x : Stored db namespaceId) (input : Args) (w w' : World) : Prop where
  calls : ∃ context, w'.calls = w.calls ++ [functionCall sb .python x.function x.version
    (.obj input) [] (some context) []]
  requests : w'.requests = w.requests
  platform : w'.platform = w.platform

theorem CalledOnly.ran {sb : Sandbox} {w' : World} (h : CalledOnly sb x input w w')
    (hs : Starts sb .python x.version) : w'.ran = w.ran ++ [(x.function, x.version)] := by
  obtain ⟨context, hc⟩ := h.calls
  rw [World.ran, hc, List.flatMap_append, List.flatMap_singleton, functionCall_ran_of_starts hs, World.ran]

theorem calledOnly_of_found {ag : Agent} {s f : String} {st : List (String × Json)}
    {rid : Option String} (hg : getForExecution w.db ag.namespaceId s f = .ok (x.function, x.version))
    (hr : env.run.sandbox.registered x.version.backend = true) :
    CalledOnly env.run.sandbox x input w (executeNamespaceFunction env ag s f input st rid w).2 := by
  refine ⟨?_, keeps_executeNamespaceFunction (fun _ _ => rfl) (fun _ _ => rfl) _ _ _ _ _ w,
    keeps_executeNamespaceFunction (fun _ _ => rfl) (fun _ _ => rfl) _ _ _ _ _ w⟩
  obtain ⟨context, hc⟩ := executeNamespaceFunction_calls env input st rid hg
  rw [pythonCalls, if_pos hr] at hc
  exact ⟨context, hc⟩

theorem not_calledOnly_of_calls {sb : Sandbox} {w' : World} (h : w'.calls = w.calls) :
    ¬ CalledOnly sb x input w w' := by
  intro hca
  obtain ⟨context, hc⟩ := hca.calls
  rw [h] at hc
  exact absurd hc (by simp)

/-- Calling an advertised name calls exactly the function it was made for, in any setting in which the
backend of the function is there and no procedure covers the name, and no two functions share
a name. -/
def NamesLeadBack (db : Db) (namespaceId : ℕ) : Prop :=
  (∀ (x : Stored db namespaceId) (env : AgentEnv) (ctx : ToolContext) (input : Args) (w : World), w.db = db →
    ctx.agent.namespaceId = namespaceId → env.run.sandbox.registered x.version.backend = true →
      ctx.procedureCovered.find? (·.1 = advertisedName x) = none →
        CalledOnly env.run.sandbox x input w (dispatchTool env ctx (advertisedName x) input w).2) ∧
  ∀ x y : Stored db namespaceId, advertisedName x = advertisedName y → x.function = y.function

/-- The names of a stored function can be told from its tool name: the service has no double
underscore, is not called like one of the other kinds of tools, and no other function has the same names. -/
structure PlainName (x : Stored db namespaceId) : Prop where
  single : contains x.service.name.val "__" = false
  notMcp : x.service.name.val ≠ "mcp"
  notApi : x.service.name.val ≠ "api"
  unique : x.Unique

theorem dispatchTool_of_plainName (h : PlainName x)
    (hc : ctx.procedureCovered.find? (·.1 = advertisedName x) = none) :
    dispatchTool env ctx (advertisedName x) input = executeNamespaceFunction env ctx.agent x.service.name.val
      x.function.name.val input ctx.agentState ctx.agentRunId := by
  have hm : isMcpTool (advertisedName x) = false := by
    rw [Bool.eq_false_iff]
    intro hs
    exact h.notMcp (service_of_startsWith h.single (p := "mcp") (by decide) (by decide) hs)
  have ha : ¬ startsWith (advertisedName x) "api__" = true := by
    intro hs
    exact h.notApi (service_of_startsWith h.single (p := "api") (by decide) (by decide) hs)
  have hp : advertisedName x ∉ platformToolNames :=
    not_platform_of_allowed (isToolAllowed_of_underscores .executeOnly _ _)
  rw [dispatchTool_advertisedName, hm, if_neg Bool.false_ne_true, if_neg ha]
  exact dispatchNamespaceTool_of_parse (parseToolName_of_split hp hm (splitOnce_advertisedName h.single)) hc

theorem eq_of_advertisedName_eq {y : Stored db namespaceId} (hx : PlainName x) (hy : PlainName y)
    (h : advertisedName x = advertisedName y) : x.function = y.function := by
  have hsp := splitOnce_advertisedName hx.single
  rw [h, splitOnce_advertisedName hy.single] at hsp
  obtain ⟨hs, hf⟩ := Prod.mk.inj (Option.some.inj hsp)
  have hu := hx.unique
  rw [Stored.Unique, ← hs, ← hf, hy.unique] at hu
  exact (List.singleton_inj.mp hu).symm

def everyBackend : AgentEnv :=
  { plainAgentEnv with run := { plainEnv with sandbox := { eagerSandbox with registered := fun _ => true } } }

def anyContext (namespaceId : ℕ) : ToolContext where
  agent := { id := 1, accountId := 1, namespaceId, name := "agent" }
  accountId := 1
  tier := "pro-agent"

theorem plainName_of_calledOnly (hd : ∀ y : Stored db namespaceId,
      advertisedName y = advertisedName x → y.function = x.function)
    (hc : CalledOnly everyBackend.run.sandbox x [] { db }
      (dispatchTool everyBackend (anyContext namespaceId) (advertisedName x) [] { db }).2) : PlainName x := by
  rw [dispatchTool_advertisedName] at hc
  split at hc
  · exact absurd hc (not_calledOnly_of_calls (keepsCalls_dispatchMcpTool _))
  rename_i hm
  split at hc
  · exact absurd hc (not_calledOnly_of_calls (keepsCalls_dispatchAgentApiTool _))
  rename_i ha
  have hp : advertisedName x ∉ platformToolNames :=
    not_platform_of_allowed (isToolAllowed_of_underscores .executeOnly _ _)
  obtain ⟨⟨s, f⟩, hsp⟩ := exists_splitOnce (by decide) (contains_advertisedName x)
  obtain ⟨hs, hf⟩ := lower_of_split hsp
  rw [dispatchNamespaceTool_of_parse (parseToolName_of_split hp (Bool.eq_false_iff.mpr hm) hsp) rfl] at hc
  rcases hg : getForExecution db namespaceId s f with e | ⟨g, v⟩
  · refine absurd hc (not_calledOnly_of_calls ?_)
    unfold executeNamespaceFunction
    rw [Session.query_bind_of_eq (a := .error e) hg]
    rfl
  -- what is found was advertised under the same name, so it is the function itself
  obtain ⟨y, rfl, rfl, ⟨hys, hyf⟩, hu⟩ := stored_of_getForExecution hg
  rw [hs] at hys
  rw [hf] at hyf
  have hy : y.function = x.function := by
    refine hd y ?_
    rw [eq_append_of_splitOnce hsp, hys, hyf]
    rfl
  have hse : y.service = x.service := by
    refine Option.some.inj (y.serviceOf_eq.symm.trans ?_)
    rw [hy]
    exact x.serviceOf_eq
  rw [hse] at hys
  refine ⟨?_, fun hn => hm ?_, fun hn => ha ?_, ?_⟩
  · rw [← hys]
    exact not_contains_of_splitOnce (by decide) hsp
  · exact startsWith_advertisedName hn
  · exact startsWith_advertisedName hn
  · rw [Stored.Unique, hse, hy] at hu
    exact hu

/-- The advertised names of a namespace lead back to the functions exactly when every function has a
plain name. -/
theorem namesLeadBack_iff (db : Db) (namespaceId : ℕ) :
    NamesLeadBack db namespaceId ↔ ∀ x : Stored db namespaceId, PlainName x := by
  constructor
  · rintro ⟨hc, hd⟩ x
    exact plainName_of_calledOnly (fun y => hd y x)
      (hc x everyBackend (anyContext namespaceId) [] { db } rfl rfl rfl rfl)
  · intro hp
    refine ⟨?_, fun x y => eq_of_advertisedName_eq (hp x) (hp y)⟩
    intro x env ctx input w hdb ha hr hco
    rw [dispatchTool_of_plainName (hp x) hco]
    refine calledOnly_of_found ?_ hr
    rw [hdb, ha]
    exact x.getForExecution_of_spelledAs (hp x).unique x.spelledAs_self

/-- Both functions are advertised as `a__b__c`, and a call of it runs the first of them. -/
theorem crossed_names_collide :
    buildToolDefinitions sharedFileDb 1 false true = ["a__b__c", "a__b__c"] ++ platformToolNames ∧
      ((dispatchTool plainAgentEnv (anyContext 1) "a__b__c" [] { db := sharedFileDb }).2.ran.map fun p =>
        (p.1.serviceId, p.1.name.val)) = [(1, "b__c")] ∧
      ¬ NamesLeadBack sharedFileDb 1 := by
  refine ⟨by decide +kernel, by decide +kernel, fun h => ?_⟩
  let x : Stored sharedFileDb 1 :=
    ⟨_, _, _, List.mem_cons_self, rfl, rfl, rfl, rfl⟩
  let y : Stored sharedFileDb 1 :=
    ⟨_, _, _, List.mem_cons_of_mem _ List.mem_cons_self, rfl, rfl, rfl, rfl⟩
  have hs : x.function = y.function := h.2 x y (by decide +kernel)
  exact absurd (congrArg (·.id) hs) (by decide)

end McpworksApi.Agents
