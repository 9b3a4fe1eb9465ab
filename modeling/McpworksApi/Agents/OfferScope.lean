import McpworksApi.Agents.ToolNames

/-! What a model can reach with its tool calls, against the tools it was offered. The list of tools is drawn up once
for a run, from the functions of the namespace, the agent's own MCP servers and its own API servers; the dispatcher
does not look at it, and resolves the name of each call again. -/

namespace McpworksApi.Agents

open Models Py Run Services Services.Functions Session

def orchestrationContext (env : AgentEnv) (db : Db) (call : OrchestrationCall) : ToolContext where
  agent := call.agent
  accountId := call.accountId
  tier := call.tier
  pool := (env.pool call.agent).isSome
  agentState := getAllState db call.agent.id
  triggerType := call.triggerType
  availableTools := offeredTools env db call.agent
  procedureCovered := procedureCovered db call.agent.namespaceId
  agentRunId := some call.runId

/-- The worlds that a model can bring about with its calls. -/
inductive Driven (env : AgentEnv) (ctx : ToolContext) (start : World) : World → Prop
  | start : Driven env ctx start start
  | asked {w : World} (n : ℕ) : Driven env ctx start w → Driven env ctx start { w with asked := n }
  | called {w : World} (name : String) (input : Args) :
      Driven env ctx start w → Driven env ctx start (dispatchTool env ctx name input w).2

variable {env : AgentEnv} {ctx : ToolContext} {start w : World} {call : OrchestrationCall}
    {name : String} {input : Args}

section Loop

open Session

variable {I : World → Prop} {disp : Dispatcher} {limits : Limits} {canary : String}

theorem runToolUses_maintains (hc : ∀ name input, Maintains I (disp ctx name input) fun _ => True)
    (bs : List Block) (t : Turn) :
    Maintains I (runToolUses env disp limits canary ctx bs t) fun _ => True := by
  induction bs generalizing t with
  | nil => exact .pure trivial
  | cons blk bs ih =>
    cases blk with
    | text cont => exact ih t
    | unreadable e => exact .pure trivial
    | toolUse tool input id =>
      rw [runToolUses]
      split
      · exact ih _
      split
      · exact .pure trivial
      split
      · exact ih _
      refine .bind (Maintains.attempt (hc tool input)) fun r _ => ?_
      cases r with
      | error e => exact .pure trivial
      | ok reply => exact ih _

theorem handleResponse_maintains (hc : ∀ name input, Maintains I (disp ctx name input) fun _ => True)
    {again : Loop → Api (Loop × Ending)} (hag : ∀ l, Maintains I (again l) fun _ => True) (l : Loop)
    (answer : Except ApiError AiResponse) :
    Maintains I (handleResponse env disp limits canary ctx again l answer) fun _ => True := by
  cases answer with
  | error e => exact .pure trivial
  | ok resp =>
    rw [handleResponse]
    dsimp only
    split
    · exact .pure trivial
    refine .bind (runToolUses_maintains hc resp.content _) fun out _ => ?_
    obtain ⟨t, _ | ending⟩ := out
    · dsimp only
      split
      · exact .pure trivial
      · exact hag _
    · exact .pure trivial

theorem orchestrationLoop_maintains (ha : ∀ w, I w → I { w with asked := w.asked + 1 })
    (hc : ∀ name input, Maintains I (disp ctx name input) fun _ => True) (n : ℕ) (l : Loop) :
    Maintains I (orchestrationLoop env disp limits canary ctx n l) fun _ => True := by
  have han : Maintains I (ask env) fun _ => True := fun w hw => ⟨ha w hw, fun _ _ => trivial⟩
  induction n generalizing l with
  | zero => exact .pure trivial
  | succ n ih =>
    refine .query_bind fun w _ => ?_
    split
    · exact .pure trivial
    split
    · exact .pure trivial
    exact .bind han fun resp _ => handleResponse_maintains hc ih _ resp

end Loop

theorem dispatchTool_of_not_allowed
    (h : ¬ Access.isToolAllowed (effectiveToolTier ctx.agent ctx.triggerType) name = true) :
    dispatchTool env ctx name input = pure (notAuthorized ctx name) := by
  unfold dispatchTool dispatchPlainTool
  rw [if_neg h, if_neg h, ite_self]

theorem dispatchTool_of_allowed
    (h : Access.isToolAllowed (effectiveToolTier ctx.agent ctx.triggerType) name = true) :
    dispatchTool env ctx name input =
      if isMcpTool name then dispatchMcpTool env ctx name input
      else if startsWith name "api__" then dispatchAgentApiTool env ctx.agent name input
      else dispatchNamespaceTool env ctx name input := by
  have hp := not_platform_of_allowed h
  have hpr : name ≠ "run_procedure" := by
    rintro rfl
    exact hp (by decide)
  rw [dispatchTool, if_neg hpr, dispatchPlainTool, if_pos h, if_neg hp]

def Reached (w w' : World) : Prop := w'.ran ≠ w.ran ∨ w'.requests ≠ w.requests

def CallsOffered (env : AgentEnv) (call : OrchestrationCall) (start : World) : Prop :=
  let ctx := orchestrationContext env start.db call
  ∀ w, Driven env ctx start w → ∀ name input, Reached w (dispatchTool env ctx name input w).2 →
    name ∈ offeredTools env start.db call.agent

def LeadsTo (call : OrchestrationCall) {db : Db} (name : String) (x : Stored db call.agent.namespaceId) : Prop :=
  Access.isToolAllowed (effectiveToolTier call.agent call.triggerType) name = true ∧
    ¬ startsWith name "api__" = true ∧
    ∃ service function, parseToolName name = some (service, function) ∧ x.SpelledAs service function

theorem isMcpTool_of_mem {agent : Agent} (h : name ∈ mcpToolNames env agent) : isMcpTool name = true := by
  obtain ⟨t, -, rfl⟩ := List.mem_map.mp h
  refine List.isPrefixOf_iff_prefix.mpr ⟨(t.1 ++ "__" ++ t.2).toList, ?_⟩
  simp [mcpToolName]

theorem eq_advertisedName_of_offered {db : Db} {x : Stored db call.agent.namespaceId} (hl : LeadsTo call name x)
    (h : name ∈ offeredTools env db call.agent) : name = advertisedName x := by
  obtain ⟨-, ha, svc, fn, hp, hsp⟩ := hl
  obtain ⟨hpl, hm⟩ := parseToolName_not_platform hp
  rw [offeredTools, List.mem_append, List.mem_append, mem_buildToolDefinitions] at h
  rcases h with ((⟨y, rfl⟩ | hpt) | hpo) | ho
  · have hsl : splitOnce "__" (advertisedName y) = some (svc, fn) := by
      rw [parseToolName, if_neg hpl, hm, if_neg Bool.false_ne_true, if_pos (contains_advertisedName y)] at hp
      exact hp
    obtain ⟨hs, hf⟩ := lower_of_split hsl
    rw [eq_append_of_splitOnce hsl, advertisedName, ← hsp.1, ← hsp.2, hs, hf]
  · exact absurd hpt hpl
  · exact absurd (isMcpTool_of_mem hpo) (Bool.eq_false_iff.mp hm)
  · obtain ⟨t, -, rfl⟩ := List.mem_map.mp ho
    refine absurd (List.isPrefixOf_iff_prefix.mpr ⟨(t.1 ++ "__" ++ t.2).toList, ?_⟩) ha
    simp

theorem CallsOffered.functions (h : CallsOffered env call start) (x : Stored start.db call.agent.namespaceId)
    (hu : x.Unique) (hr : Runnable env x) (name : String) (hl : LeadsTo call name x)
    (hn : name ∉ coveredNames start.db call.agent.namespaceId) : name = advertisedName x := by
  refine eq_advertisedName_of_offered hl (h start .start name [] (.inl ?_))
  obtain ⟨ha, hap, svc, fn, hp, hs⟩ := hl
  obtain ⟨-, hm⟩ := parseToolName_not_platform hp
  have hf : (procedureCovered start.db call.agent.namespaceId).find? (·.1 = name) = none := by
    refine List.find?_eq_none.mpr fun e he heq => hn ?_
    exact List.mem_map.mpr ⟨e, he, by simpa using heq⟩
  have hc : CalledOnly env.run.sandbox x [] start (executeNamespaceFunction env call.agent svc fn []
      (getAllState start.db call.agent.id) (some call.runId) start).2 :=
    calledOnly_of_found (x.getForExecution_of_spelledAs hu hs) hr.registered
  rw [dispatchTool_of_allowed ha, hm, if_neg Bool.false_ne_true, if_neg hap,
    dispatchNamespaceTool_of_parse hp hf]
  intro hsa
  exact absurd ((hc.ran hr.starts).symm.trans hsa) (by simp)

end McpworksApi.Agents
