import McpworksApi.Agents.Procedures

/-! Which tool of which server a call through the pool of an agent reaches (`McpServerPool`). The server of a
qualified name is looked up, but the tool is cut off again after the first double underscore that follows `mcp__`. -/

namespace McpworksApi.Agents

open Models Py Run Session

/-- Every name that is offered stands for one tool of one server, and a call of it invokes that one. -/
def RoutedExactly (env : AgentEnv) (agent : Agent) : Prop :=
  ∀ name ∈ mcpToolNames env agent, ∃ t ∈ (env.pool agent).getD [], mcpToolName t = name ∧
    (∀ t' ∈ (env.pool agent).getD [], mcpToolName t' = name → t' = t) ∧
    ∀ input w, (callPoolTool env agent name input w).2 = w.request (.mcp t.1 t.2)

/-- A server's name that a cut at the first double underscore gives back. -/
structure PlainServerName (server : String) : Prop where
  nonempty : server ≠ ""
  no_separator : contains server "__" = false
  not_trailing : server.toList.getLast? ≠ some '_'

theorem PlainServerName.splitOnce {sr : String} (h : PlainServerName sr) (tool : String) :
    splitOnce "__" (sr ++ "__" ++ tool) = some (sr, tool) :=
  splitOnce_underscores h.no_separator h.not_trailing

theorem plainServerName_of_splitOnce {server tool s : String} (hs : server ≠ "")
    (h : Py.splitOnce "__" (server ++ "__" ++ tool) = some (s, tool)) : PlainServerName server := by
  have he : server = s := by
    have heq := congrArg String.toList (eq_append_of_splitOnce h)
    simp only [String.toList_append] at heq
    exact String.toList_injective (List.append_cancel_right (List.append_cancel_right heq))
  subst he
  have hn := not_contains_of_splitOnce (by simp) h
  refine ⟨hs, hn, fun hl => ?_⟩
  -- a trailing underscore would make the cut one place earlier
  obtain ⟨l, hl⟩ := List.getLast?_eq_some_iff.mp hl
  have hcut : Py.splitOnce "__" (String.ofList l ++ "__" ++ ("_" ++ tool)) = some (String.ofList l, "_" ++ tool) := by
    apply splitOnce_underscores
    · rw [Bool.eq_false_iff, ne_eq, contains_eq_true] at hn ⊢
      refine fun hin => hn (hin.trans ?_)
      rw [hl, String.toList_ofList]
      exact (List.prefix_append l ['_']).isInfix
    · intro hlast
      obtain ⟨l', hl'⟩ := List.getLast?_eq_some_iff.mp hlast
      rw [Bool.eq_false_iff, ne_eq, contains_eq_true] at hn
      refine hn ⟨l', [], ?_⟩
      simp only [String.toList_ofList] at hl'
      simp [hl, hl']
  have hsame : server ++ "__" ++ tool = String.ofList l ++ "__" ++ ("_" ++ tool) :=
    String.toList_injective (by simp [hl])
  rw [hsame, hcut] at h
  have := congrArg (fun p : Option (String × String) => p.map (·.2.toList.length)) h
  simp at this

theorem drop_mcpToolName (t : String × String) :
    String.ofList ((mcpToolName t).toList.drop 5) = t.1 ++ "__" ++ t.2 := by
  apply String.toList_injective
  simp [mcpToolName]

/-- What a call by the name of a tool invokes: the server that is looked up, and the tool that is cut off. -/
def poolTarget (env : AgentEnv) (agent : Agent) (t : String × String) : Option (String × String) :=
  (poolServer env agent (mcpToolName t)).bind fun server =>
    if server = "" then none else (Py.splitOnce "__" (t.1 ++ "__" ++ t.2)).map fun cut => (server, cut.2)

theorem callPoolTool_snd (env : AgentEnv) (ag : Agent) (t : String × String) (inp : Args) (w : World) :
    (callPoolTool env ag (mcpToolName t) inp w).2 =
      (poolTarget env ag t).elim w fun target => w.request (.mcp target.1 target.2) := by
  unfold callPoolTool poolTarget
  rw [drop_mcpToolName]
  rcases poolServer env ag (mcpToolName t) with _ | server
  · rfl
  by_cases hs : server = ""
  · simp only [hs, if_true]
    rfl
  simp only [hs, if_false, Option.bind_some]
  rcases Py.splitOnce "__" (t.1 ++ "__" ++ t.2) with _ | ⟨s, tool⟩
  · rfl
  · rcases h : env.callMcp server tool inp <;> simp only [h] <;> rfl

/-- The pool routes exactly if no server that has tools is nameless or has a name with a double underscore or a
trailing one. -/
theorem routed_exactly_iff (env : AgentEnv) (agent : Agent) :
    RoutedExactly env agent ↔ ∀ t ∈ (env.pool agent).getD [], PlainServerName t.1 := by
  constructor
  · intro h t ht
    obtain ⟨t', ht', hn, hu, hcall⟩ := h _ (List.mem_map_of_mem ht)
    obtain rfl := hu t ht rfl
    have hw := congrArg World.requests ((callPoolTool_snd env agent t [] { db := {} }).symm.trans
      (hcall [] { db := {} }))
    rcases hp : poolTarget env agent t with _ | target
    · simp [hp, World.request] at hw
    · obtain ⟨sr, -, hta⟩ := Option.bind_eq_some_iff.mp hp
      by_cases hs : sr = ""
      · simp [hs] at hta
      rw [if_neg hs] at hta
      obtain ⟨⟨s, tool⟩, hsplit, rfl⟩ := Option.map_eq_some_iff.mp hta
      simp only [hp, World.request, Option.elim_some, List.nil_append, List.cons.injEq, ServerRequest.mcp.injEq,
        and_true] at hw
      obtain ⟨rfl, rfl⟩ := hw
      exact plainServerName_of_splitOnce hs hsplit
  · intro h name hname
    obtain ⟨t, ht, rfl⟩ := List.mem_map.mp hname
    have hu : ∀ t' ∈ (env.pool agent).getD [], mcpToolName t' = mcpToolName t → t' = t := by
      intro t' ht' he
      have hs := congrArg (fun n : String => Py.splitOnce "__" (String.ofList (n.toList.drop 5))) he
      simp only [drop_mcpToolName, (h t' ht').splitOnce, (h t ht).splitOnce] at hs
      exact Option.some.inj hs
    have hp : poolServer env agent (mcpToolName t) = some t.1 := by
      unfold poolServer
      rcases hf : ((env.pool agent).getD []).reverse.find? (mcpToolName · = mcpToolName t) with _ | t'
      · simpa using List.find?_eq_none.mp hf t (List.mem_reverse.mpr ht)
      · have hn : mcpToolName t' = mcpToolName t := by simpa using List.find?_some hf
        rw [hu t' (List.mem_reverse.mp (List.mem_of_find?_eq_some hf)) hn]
        rfl
    refine ⟨t, ht, rfl, hu, fun input w => ?_⟩
    rw [callPoolTool_snd, poolTarget, hp, Option.bind_some, if_neg (h t ht).nonempty, (h t ht).splitOnce]
    rfl

def docsPool : AgentEnv := { plainAgentEnv with pool := fun _ => some [("docs__v2", "search")] }

def docsAgent : Agent := { id := 1, accountId := 2, namespaceId := 3, name := "docs" }

/-- The server's name has a double underscore: its tool `search` is called as `v2__search`. -/
theorem search_misrouted : (callPoolTool docsPool docsAgent "mcp__docs__v2__search" [] { db := {} }).2.requests =
    [.mcp "docs__v2" "v2__search"] ∧ ¬ RoutedExactly docsPool docsAgent := by
  have hr : (callPoolTool docsPool docsAgent "mcp__docs__v2__search" [] { db := {} }).2.requests =
      [.mcp "docs__v2" "v2__search"] := by decide
  refine ⟨hr, fun h => ?_⟩
  obtain ⟨t, ht, -, -, hc⟩ := h "mcp__docs__v2__search" (by decide)
  obtain rfl := List.mem_singleton.mp ht
  rw [hc] at hr
  exact absurd hr (by decide)

end McpworksApi.Agents
