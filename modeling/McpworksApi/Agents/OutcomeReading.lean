import McpworksApi.Agents.OfferScope
import McpworksApi.Agents.RequiredFields

/-! How the orchestration reads the replies of tools. A call counts as failed when the first 50 characters of its reply
contain the word `error` in quotes, whatever became of the operation. -/

namespace McpworksApi.Agents

open Models Py Run Services Services.Functions Session

abbrev Output := Option (String × Bool)

def Output.failed (o : Output) : Bool := o.elim true Prod.snd

section Outputs

variable (env : AgentEnv) (flagged : String → String → Args → Bool) (ctx : ToolContext) (name : String) (input : Args)
  (w : World)

def mcpOutput : Output :=
  (poolServer env ctx.agent name).bind fun server =>
    if server = "" then none
    else (splitOnce "__" (String.ofList (name.toList.drop 5))).bind fun parts =>
      (env.callMcp server parts.2 input).toOption.map fun text => (clip 4000 text, flagged server parts.2 input)

def apiOutput : Output :=
  (parseApiToolName name).bind fun call =>
    ((proxyApiCall env.gateway ctx.agent.namespaceId [] 0 call.1 call.2 input w).1.toOption.bind Except.toOption).map
      fun payload =>
        (formatOutcome env.dumps env.gateway (w.db.namespaces.get? ctx.agent.namespaceId) (.ok payload), false)

def functionResult (found : Function × FunctionVersion) : ExecutionResult :=
  (functionCall env.run.sandbox .python found.1 found.2 (.obj input) []
    (some (stateContext ctx.agentState ++
      if given ctx.agentRunId then [("agent_run_id", .str (ctx.agentRunId.getD ""))] else [])) []).result

def functionOutput : Output :=
  (parseToolName name).bind fun call =>
    if (ctx.procedureCovered.find? (·.1 = name)).isSome then none
    else (getForExecution w.db ctx.agent.namespaceId call.1 call.2).toOption.bind fun found =>
      if env.run.sandbox.registered found.2.backend && (functionResult env ctx input found).success then
        some (outputText env (functionResult env ctx input found).output, false)
      else none

def operationOutput : Output :=
  if Access.isToolAllowed (effectiveToolTier ctx.agent ctx.triggerType) name then
    if isMcpTool name then if ctx.pool then mcpOutput env flagged ctx name input else none
    else if startsWith name "api__" then apiOutput env ctx name input w
    else functionOutput env ctx name input w
  else none

end Outputs

def ErrorsFirst (dumps : Json → String) : Prop :=
  ∀ value fields, ∃ rest, dumps (.obj (("error", value) :: fields)) = "\x7b\"error\"" ++ rest

def Tells (env : AgentEnv) (reply : ToolReply) (o : Output) : Prop :=
  o.elim (∃ rest, reply.render env = "\x7b\"error\"" ++ rest) fun out => reply.render env = out.1

variable {env : AgentEnv} {flagged : String → String → Args → Bool} {ctx : ToolContext} {name : String} {input : Args}
  {w w' : World} {reply : ToolReply}

theorem looksFailed_error (rest : String) : looksFailed ("\x7b\"error\"" ++ rest) = true := by
  have hc : (clip 50 ("\x7b\"error\"" ++ rest)).toList = "\x7b\"error\"".toList ++ rest.toList.take 42 := by
    simp [clip]
  refine contains_eq_true.mpr ?_
  rw [hc]
  exact List.IsInfix.trans ⟨['\x7b'], [], by decide⟩ (List.prefix_append _ _).isInfix

theorem tells_error (hd : ErrorsFirst env.dumps) (msg : String) : Tells env (.error msg) none := hd _ _

theorem tells_errorText (msg : String) : Tells env (errorText msg) none := by
  have hs : "\x7b\"error\": \"" = "\x7b\"error\"" ++ ": \"" := by decide
  refine ⟨": \"" ++ msg ++ "\"\x7d", ?_⟩
  rw [errorText, ToolReply.render, hs, String.append_assoc, String.append_assoc, String.append_assoc]

abbrev Replies (env : AgentEnv) (m : Api ToolReply) (o : Output) (w : World) : Prop :=
  Wp m (fun reply _ => Tells env reply o) (fun _ _ => True) w

theorem replies_mcp (hd : ErrorsFirst env.dumps) :
    Replies env (dispatchMcpTool env ctx name input)
      (if ctx.pool then mcpOutput env flagged ctx name input else none) w := by
  unfold dispatchMcpTool
  split
  · unfold callPoolTool mcpOutput
    rcases poolServer env ctx.agent name with _ | server
    · exact tells_errorText _
    dsimp only [Option.bind_some]
    split
    · exact tells_errorText _
    rcases splitOnce "__" (String.ofList (name.toList.drop 5)) with _ | ⟨_, tool⟩
    · exact tells_errorText _
    apply Wp.write_bind
    dsimp only [Option.bind_some]
    rcases env.callMcp server tool input with message | text
    · exact tells_errorText _
    · rfl
  · exact tells_error hd _

theorem replies_api (hd : ErrorsFirst env.dumps) :
    Replies env (dispatchAgentApiTool env ctx.agent name input) (apiOutput env ctx name input w) w := by
  unfold dispatchAgentApiTool apiOutput
  rcases parseApiToolName name with _ | ⟨sr, op⟩
  · exact tells_error hd _
  apply Wp.query_bind
  apply Wp.bind
  refine (Wp.result _ w).mono (fun outcome _ hc => ?_) fun _ _ _ => trivial
  dsimp only [Option.bind_some]
  rw [hc]
  rcases outcome with e | payload
  · exact hd _ _
  · rfl

theorem replies_function (hd : ErrorsFirst env.dumps) :
    Replies env (dispatchNamespaceTool env ctx name input) (functionOutput env ctx name input w) w := by
  unfold dispatchNamespaceTool functionOutput
  rcases parseToolName name with _ | ⟨svc, fn⟩
  · exact tells_error hd _
  dsimp only [Option.bind_some]
  rcases hf : ctx.procedureCovered.find? (·.1 = name) with _ | ⟨key, label⟩ <;> simp only [hf]
  · apply Wp.query_bind
    rcases getForExecution w.db ctx.agent.namespaceId svc fn with e | ⟨f, v⟩
    · exact tells_error hd _
    dsimp only [Except.toOption, Option.bind_some, Option.isSome_none]
    by_cases hr : env.run.sandbox.registered v.backend = true
    · rw [if_pos hr, hr, Bool.true_and]
      apply Wp.bind
      apply Wp.write_bind
      refine Wp.pure ?_
      unfold functionResult
      dsimp only
      generalize (functionCall env.run.sandbox .python f v (.obj input) [] _ []).result = result
      by_cases hs : result.success = true
      · rw [if_pos hs, if_pos hs]
        apply Wp.write_bind
        unfold outputText
        rcases result.output with _ | b | n | x | s | items | fields <;> rfl
      · rw [if_neg hs, if_neg hs]
        exact tells_error hd _
    · rw [if_neg hr, Bool.eq_false_iff.mpr hr, Bool.false_and]
      exact tells_error hd _
  · unfold coveredReply
    split
    · exact trivial
    · exact tells_error hd _

theorem replies_dispatchTool (flagged : String → String → Args → Bool) (hd : ErrorsFirst env.dumps) :
    Replies env (dispatchTool env ctx name input) (operationOutput env flagged ctx name input w) w := by
  unfold operationOutput
  by_cases ha : Access.isToolAllowed (effectiveToolTier ctx.agent ctx.triggerType) name = true
  · rw [dispatchTool_of_allowed ha, if_pos ha]
    split
    · exact replies_mcp hd
    split
    · exact replies_api hd
    · exact replies_function hd
  · rw [dispatchTool_of_not_allowed ha, if_neg ha]
    exact tells_error hd _

theorem looksFailed_iff {o : Output} (h : Tells env reply o) :
    looksFailed (reply.render env) = o.failed ↔ ∀ out, o = some out → looksFailed out.1 = out.2 := by
  rcases o with _ | out
  · obtain ⟨rest, hr⟩ := h
    rw [hr, looksFailed_error]
    simp [Output.failed]
  · have hre : reply.render env = out.1 := h
    rw [hre]
    simp [Output.failed]

def Classified (failed : Bool) (tool : String) (t t' : Turn) : Prop :=
  if failed then t'.functionsCalled = t.functionsCalled ∧ t'.success = t.success
  else t'.functionsCalled = t.functionsCalled ++ [tool] ∧ t'.success = true

theorem classified_answer {failed : Bool} {t : Turn} {id tool input text : String} :
    Classified failed tool t ((t.dispatch tool).answer id tool input text) ↔ looksFailed text = failed := by
  cases failed <;> cases ht : looksFailed text <;> simp [Classified, Turn.answer, Turn.dispatch, ht]

/-- A call that is dispatched is counted as failed exactly when it failed, if and only if the text that the operation
put out, if any, looks like it. -/
theorem outcome_classified_iff (env : AgentEnv) (flagged : String → String → Args → Bool) (limits : Limits)
    (canary : String) (ctx : ToolContext) (tool : String) (input : Args) (id : String) (t t' : Turn) (w w' : World)
    (hdumps : ErrorsFirst env.dumps)
    (h : runToolUses env (dispatchTool env) limits canary ctx [.toolUse tool input id] t w = (.ok (t', none), w'))
    (hdispatched : t'.trace ≠ t.trace) :
    Classified (operationOutput env flagged ctx tool input w).failed tool t t' ↔
      ∀ out, operationOutput env flagged ctx tool input w = some out → looksFailed out.1 = out.2 := by
  have hr : Wp (runToolUses env (dispatchTool env) limits canary ctx [.toolUse tool input id] t)
      (fun out _ => out.2 = none → out.1.trace ≠ t.trace →
        (Classified (operationOutput env flagged ctx tool input w).failed tool t out.1 ↔
          ∀ out, operationOutput env flagged ctx tool input w = some out → looksFailed out.1 = out.2))
      (fun _ _ => True) w := by
    unfold runToolUses
    split
    · exact fun _ hs => absurd rfl hs
    split
    · exact fun hn => by cases hn
    split
    · exact fun _ hs => absurd rfl hs
    apply Wp.bind
    refine .attempt ((replies_dispatchTool flagged hdumps).mono (fun reply _ ht => ?_) fun _ _ _ hn => by cases hn)
    exact fun _ _ => classified_answer.trans (looksFailed_iff ht)
  exact hr.of_ok h rfl hdispatched

theorem exists_intercalate_cons (sep first : String) (rest : List String) :
    ∃ tail, sep.intercalate (first :: rest) = first ++ tail := by
  cases rest with
  | nil => exact ⟨"", by simp⟩
  | cons second rest => exact ⟨sep ++ sep.intercalate (second :: rest), by simp [String.append_assoc]⟩

theorem errorsFirst_dumps : ErrorsFirst Json.dumps := by
  intro value fs
  obtain ⟨tail, ht⟩ := exists_intercalate_cons ", " (dumpsString "error" ++ ": " ++ value.dumps) (dumpsFields fs)
  have hk : "\x7b" ++ dumpsString "error" = "\x7b\"error\"" := by decide +kernel
  refine ⟨": " ++ value.dumps ++ tail ++ "\x7d", ?_⟩
  rw [Json.dumps, dumpsFields, ht, ← hk]
  simp only [String.append_assoc]

def callReturning (output : String) : Except ApiError (Turn × Option Ending) × World :=
  runToolUses (returning (.str output)) (dispatchTool (returning (.str output)))
    (tierLimits "pro-agent") "canary" newsletterContext
    [.toolUse "mail__send" [] "1"] { functionsCalled := [], trace := [] } { db := mailDb "sms" }

def outputReturning (output : String) : Output :=
  operationOutput (returning (.str output)) (fun _ _ _ => false) newsletterContext "mail__send" []
    { db := mailDb "sms" }

/-- A function that succeeds with a word in quotes is counted as failed. -/
theorem success_counted_as_error :
    outputReturning "0 \"error\" lines" = some ("0 \"error\" lines", false) ∧
      (callReturning "0 \"error\" lines").1.toOption.map (fun out => (out.1.functionsCalled, out.1.success)) =
        some ([], false) := by
  decide +kernel

theorem success_counted : ∃ t w, callReturning "sent" = (.ok (t, none), w) ∧
    Classified (outputReturning "sent").failed "mail__send" { functionsCalled := [], trace := [] } t := by
  have ho : outputReturning "sent" = some ("sent", false) := by decide +kernel
  refine ⟨_, _, rfl, ?_⟩
  refine (outcome_classified_iff _ _ (tierLimits "pro-agent") "canary" _ _ _ "1" _ _ _ _ errorsFirst_dumps
    (rfl : callReturning "sent" = _) ?_).mpr fun out h => ?_
  · exact fun h => by cases h
  · obtain rfl := Option.some.inj (ho.symm.trans h)
    decide +kernel

end McpworksApi.Agents
