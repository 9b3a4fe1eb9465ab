import McpworksApi.Agents.Orchestration
import McpworksApi.Session.Trace

/-! The protocol of the orchestration loop. What a run may do next is read off its trace: when the model may be asked,
and when a tool may be dispatched. -/

namespace McpworksApi.Agents

open Models Py Run Session

def Event.isQuestion : Event → Bool
  | .asked _ _ => true
  | _ => false

def Event.tokens : Event → ℤ
  | .replied tokens => tokens
  | _ => 0

def Event.success : Event → Option String
  | .answered tool true => some tool
  | _ => none

def Event.idle (n : ℕ) : Event → ℕ
  | .asked _ _ => n + 1
  | .answered _ true => 0
  | _ => n

def questions (trace : List Event) : ℕ := trace.countP Event.isQuestion

def tokensUsed (trace : List Event) : ℤ := (trace.map Event.tokens).sum

def succeeded (trace : List Event) : List String := trace.filterMap Event.success

def idleRounds (trace : List Event) : ℕ := trace.foldl Event.idle 0

section Concat

variable (trace : List Event) (e : Event)

theorem questions_concat : questions (trace ++ [e]) = questions trace + if e.isQuestion then 1 else 0 := by
  rw [questions, List.countP_append, List.countP_singleton, questions]

theorem tokensUsed_concat : tokensUsed (trace ++ [e]) = tokensUsed trace + e.tokens := by
  simp [tokensUsed]

theorem succeeded_concat : succeeded (trace ++ [e]) = succeeded trace ++ e.success.toList := by
  rw [succeeded, List.filterMap_append, succeeded, List.append_cancel_left_eq]
  cases h : e.success <;> simp [h]

theorem idleRounds_concat : idleRounds (trace ++ [e]) = e.idle (idleRounds trace) := by
  rw [idleRounds, List.foldl_append]
  rfl

end Concat

def toolUseIds (content : List Block) : List String :=
  content.filterMap fun
    | .toolUse _ _ id => some id
    | _ => none

def resultIds : List Message → List String
  | .toolResult id _ _ :: rest => id :: resultIds rest
  | _ => []

def Paired : List Message → Prop
  | [] => True
  | .assistant content :: rest => resultIds rest = toolUseIds content ∧ Paired rest
  | .user _ :: rest => Paired rest
  | .toolResult _ _ _ :: rest => Paired rest

def ResultFor (id : String) (m : Message) : Prop := ∃ tool content, m = .toolResult id tool content

theorem resultIds_of_results {ids : List String} {rs : List Message} (h : List.Forall₂ ResultFor ids rs) :
    resultIds rs = ids := by
  induction h with
  | nil => rfl
  | cons hid _ ih =>
    obtain ⟨tool, cont, rfl⟩ := hid
    rw [resultIds, ih]

theorem paired_of_results {ids : List String} {results : List Message} (h : List.Forall₂ ResultFor ids results) :
    Paired results := by
  induction h with
  | nil => trivial
  | cons hid _ ih =>
    obtain ⟨tool, cont, rfl⟩ := hid
    exact ih

theorem resultIds_append_assistant (messages rest : List Message) (cont : List Block) :
    resultIds (messages ++ .assistant cont :: rest) = resultIds messages := by
  induction messages with
  | nil => rfl
  | cons m messages ih =>
    cases m with
    | toolResult id tool text => rw [List.cons_append, resultIds, resultIds, ih]
    | user text => rfl
    | assistant bs => rfl

theorem Paired.append {msgs rs : List Message} {cont : List Block} (h : Paired msgs)
    (hr : List.Forall₂ ResultFor (toolUseIds cont) rs) :
    Paired (msgs ++ .assistant cont :: rs) := by
  induction msgs with
  | nil => exact ⟨resultIds_of_results hr, paired_of_results hr⟩
  | cons m msgs ih =>
    cases m with
    | toolResult id tool text => exact ih h
    | user text => exact ih h
    | assistant bs => exact ⟨(resultIds_append_assistant msgs rs cont).trans h.1, ih h.2⟩

/-- The model is asked about a paired conversation only, while there are iterations and tokens left
and one of the last three rounds had a successful call; a tool is dispatched only below the
function limit. -/
def Permitted (limits : Limits) (past : List Event) : Event → Prop
  | .asked _ messages =>
    Paired messages ∧ (questions past : ℤ) < limits.maxIterations ∧ tokensUsed past < limits.maxAiTokens ∧
      idleRounds past < 3
  | .dispatched _ => 0 ≤ limits.maxFunctionsCalled → ((succeeded past).length : ℤ) < limits.maxFunctionsCalled
  | .replied _ => True
  | .answered _ _ => True

/-- Every event is permitted where it happens, and the calls reported are those that succeeded. -/
structure Disciplined (limits : Limits) (trace : List Event) (functionsCalled : List String) : Prop where
  guarded : Trace.Guarded (Permitted limits) trace
  called : functionsCalled = succeeded trace
  within : 0 ≤ limits.maxFunctionsCalled → (functionsCalled.length : ℤ) ≤ limits.maxFunctionsCalled

variable {env : AgentEnv} {dispatch : Dispatcher} {limits : Limits} {canary : String} {ctx : ToolContext}

/-- The state of a run while the tool calls of an answer are dealt with: those with the ids `ids`
have their results, and the counters stand as they did when the answer came. -/
structure Turn.Sound (limits : Limits) (l : Loop) (ids : List String) (t : Turn) : Prop where
  disciplined : Disciplined limits t.trace t.functionsCalled
  questions_eq : questions t.trace = l.iterations
  tokens_eq : tokensUsed t.trace = l.totalTokens
  idle_eq : idleRounds t.trace = if t.success then 0 else l.consecutiveFailures + 1
  results : List.Forall₂ ResultFor ids t.results

namespace Turn.Sound

variable {l : Loop} {ids : List String} {t : Turn}

theorem addResult (h : t.Sound limits l ids) (id tool cont : String) :
    (t.addResult id tool cont).Sound limits l (ids ++ [id]) :=
  { h with results := List.rel_append h.results (.cons ⟨tool, cont, rfl⟩ .nil) }

theorem dispatched (h : t.Sound limits l ids) (tool : String) (hl : limitReached limits t.functionsCalled = false) :
    (t.dispatch tool).Sound limits l ids where
  disciplined := by
    refine ⟨h.disciplined.guarded.concat fun hm => ?_, ?_, h.disciplined.within⟩
    · rw [← h.disciplined.called]
      simpa [limitReached, hm] using hl
    · exact h.disciplined.called.trans ((succeeded_concat t.trace _).trans (List.append_nil _)).symm
  questions_eq := (questions_concat t.trace _).trans h.questions_eq
  tokens_eq := (tokensUsed_concat t.trace _).trans ((add_zero _).trans h.tokens_eq)
  idle_eq := (idleRounds_concat t.trace _).trans h.idle_eq
  results := h.results

theorem answer (h : t.Sound limits l ids) (id tool inp text : String)
    (hl : limitReached limits t.functionsCalled = false) :
    (t.answer id tool inp text).Sound limits l (ids ++ [id]) where
  disciplined := by
    refine ⟨h.disciplined.guarded.concat trivial, ?_, fun hm => ?_⟩
    · rw [Turn.answer, succeeded_concat, h.disciplined.called]
      cases looksFailed text <;> simp [Event.success]
    · have hlt : (t.functionsCalled.length : ℤ) < limits.maxFunctionsCalled := by
        simpa [limitReached, hm] using hl
      rw [Turn.answer]
      split
      · exact hlt.le
      · rw [List.length_append, List.length_singleton]
        push_cast
        omega
  questions_eq := (questions_concat t.trace _).trans h.questions_eq
  tokens_eq := (tokensUsed_concat t.trace _).trans ((add_zero _).trans h.tokens_eq)
  idle_eq := by
    rw [Turn.answer, idleRounds_concat, h.idle_eq]
    cases looksFailed text <;> cases t.success <;> rfl
  results := List.rel_append h.results (.cons ⟨tool, text, rfl⟩ .nil)

end Turn.Sound

theorem runToolUses_sound (l : Loop) (blocks : List Block) {ids : List String} {t : Turn} (h : t.Sound limits l ids) :
    Yields (runToolUses env dispatch limits canary ctx blocks t) fun out =>
      match out.2 with
      | none => out.1.Sound limits l (ids ++ toolUseIds blocks)
      | some _ => Disciplined limits out.1.trace out.1.functionsCalled := by
  induction blocks generalizing ids t with
  | nil =>
    refine Yields.pure ?_
    simpa [toolUseIds] using h
  | cons blk blocks ih =>
    cases blk with
    | text cont => exact ih h
    | unreadable e => exact Yields.pure h.disciplined
    | toolUse tool input id =>
      have hid : ids ++ toolUseIds (.toolUse tool input id :: blocks) = (ids ++ [id]) ++ toolUseIds blocks := by
        simp [toolUseIds]
      rw [runToolUses, hid]
      split
      · exact ih (h.addResult _ _ _)
      · rename_i hl
        rw [Bool.not_eq_true] at hl
        split
        · exact Yields.pure h.disciplined
        · split
          · exact ih (h.addResult _ _ _)
          · refine (Yields.attempt _).bind fun r _ => ?_
            cases r with
            | error e => exact Yields.pure (h.dispatched tool hl).disciplined
            | ok reply => exact ih ((h.dispatched tool hl).answer id tool _ _ hl)

/-- The loop's own counters agree with its trace. -/
structure Loop.Sound (limits : Limits) (n : ℕ) (l : Loop) : Prop where
  disciplined : Disciplined limits l.trace l.functionsCalled
  questions_eq : questions l.trace = l.iterations
  left : (l.iterations + n : ℕ) = limits.maxIterations.toNat
  tokens_eq : tokensUsed l.trace = l.totalTokens
  idle_eq : idleRounds l.trace = l.consecutiveFailures
  idle_lt : l.consecutiveFailures < 3
  paired : Paired l.messages

namespace Loop.Sound

variable {n : ℕ} {l : Loop}

theorem ask (h : l.Sound limits (n + 1)) (ht : l.totalTokens < limits.maxAiTokens) (ts : List String) :
    Disciplined limits (l.ask ts).trace (l.ask ts).functionsCalled := by
  refine ⟨h.disciplined.guarded.concat ⟨h.paired, ?_, ?_, ?_⟩, ?_, h.disciplined.within⟩
  · have hl := h.left
    rw [h.questions_eq]
    omega
  · rw [h.tokens_eq]
    exact ht
  · rw [h.idle_eq]
    exact h.idle_lt
  · exact h.disciplined.called.trans ((succeeded_concat l.trace _).trans (List.append_nil _)).symm

theorem turn (h : l.Sound limits (n + 1)) (ht : l.totalTokens < limits.maxAiTokens) (ts : List String)
    (r : AiResponse) : (((l.ask ts).reply r).turn).Sound limits ((l.ask ts).reply r) [] where
  disciplined := by
    have ha := h.ask ht ts
    refine ⟨ha.guarded.concat trivial, ?_, ha.within⟩
    exact ha.called.trans ((succeeded_concat _ _).trans (List.append_nil _)).symm
  questions_eq := by
    rw [Loop.turn, Loop.reply, questions_concat, Loop.ask, questions_concat, h.questions_eq]
    rfl
  tokens_eq := by
    rw [Loop.turn, Loop.reply, tokensUsed_concat, Loop.ask, tokensUsed_concat, h.tokens_eq]
    simp [Event.tokens]
  idle_eq := by
    rw [Loop.turn, Loop.reply, idleRounds_concat, Loop.ask, idleRounds_concat, h.idle_eq]
    rfl
  results := .nil

theorem next (h : l.Sound limits (n + 1)) {ts : List String} {r : AiResponse} {t : Turn}
    (ht : t.Sound limits ((l.ask ts).reply r) (toolUseIds r.content))
    (hg : ¬3 ≤ (((l.ask ts).reply r).next r.content t).consecutiveFailures) :
    (((l.ask ts).reply r).next r.content t).Sound limits n where
  disciplined := ht.disciplined
  questions_eq := ht.questions_eq
  left := by
    have hl := h.left
    simp only [Loop.next, Loop.reply, Loop.ask]
    omega
  tokens_eq := ht.tokens_eq
  idle_eq := ht.idle_eq
  idle_lt := by omega
  paired := h.paired.append ht.results

end Loop.Sound

theorem ask_yields : Yields (ask env) fun _ => True := fun w => ⟨env.ai w.asked, rfl, trivial⟩

theorem orchestrationLoop_disciplined (n : ℕ) {l : Loop} (h : l.Sound limits n) :
    Yields (orchestrationLoop env dispatch limits canary ctx n l) fun out =>
      Disciplined limits out.1.trace out.1.functionsCalled := by
  induction n generalizing l with
  | zero => exact Yields.pure h.disciplined
  | succ n ih =>
    refine Yields.query_bind fun asked => ?_
    split
    · exact Yields.pure h.disciplined
    · rename_i ht
      split
      · exact Yields.pure h.disciplined
      · refine ask_yields.bind fun resp _ => ?_
        cases resp with
        | error e => exact Yields.pure (h.ask (not_le.mp ht) _)
        | ok resp =>
          have htu := h.turn (not_le.mp ht) ctx.availableTools resp
          rw [handleResponse]
          dsimp only
          split
          · exact Yields.pure htu.disciplined
          · refine (runToolUses_sound _ resp.content htu).bind fun out ho => ?_
            rcases out with ⟨t, ending | ending⟩
            · dsimp only
              split
              · exact Yields.pure ho.disciplined
              · rename_i hg
                exact ih (h.next ho hg)
            · exact Yields.pure ho

/-- What a whole run keeps to. -/
structure Protocol (limits : Limits) (r : Orchestration) (trace : List Event) : Prop where
  guarded : Trace.Guarded (Permitted limits) trace
  called : r.functionsCalled <+: succeeded trace
  within : 0 ≤ limits.maxFunctionsCalled → ((succeeded trace).length : ℤ) ≤ limits.maxFunctionsCalled

theorem recordRun_yields (ag : Agent) (trig : String) (r : Orchestration) (out : RunStatus) :
    Yields (recordRun env ag trig r out) fun _ => True := by
  unfold recordRun
  split
  · exact Yields.write trivial
  · exact Yields.pure trivial

theorem finishOrchestration_called (call : OrchestrationCall) (l : Loop) (fin : Ending) :
    Yields (finishOrchestration env call l fin) fun r => r.functionsCalled <+: l.functionsCalled := by
  cases fin with
  | completed cont =>
    refine Yields.query_bind fun rid => ?_
    dsimp only
    rw [postOrchestration_eq]
    exact (recordRun_yields _ _ _ _).bind fun _ _ => Yields.pure (List.prefix_refl _)
  | limit error => exact Yields.pure (List.prefix_refl _)
  | canaryLeaked tool => exact Yields.pure List.nil_prefix
  | raised e =>
    refine Yields.query_bind fun rid => ?_
    exact (recordRun_yields _ _ _ _).bind fun _ _ => Yields.pure (List.prefix_refl _)

/-- Every run ends with a result and has kept to the protocol. -/
theorem orchestrate_protocol (env : AgentEnv) (dispatch : Dispatcher) (call : OrchestrationCall) :
    Yields (orchestrate env dispatch call) fun out =>
      Protocol (resolveOrchestrationLimits call.tier call.agent) out.1 out.2 := by
  unfold orchestrate
  dsimp only
  split
  · refine Yields.pure ⟨Trace.guarded_nil, List.prefix_refl _, fun hm => ?_⟩
    simpa [succeeded] using hm
  · refine Yields.query_bind fun ts => Yields.query_bind fun st => Yields.query_bind fun cov => ?_
    have hs : Loop.Sound (resolveOrchestrationLimits call.tier call.agent)
        (resolveOrchestrationLimits call.tier call.agent).maxIterations.toNat
        { messages := [.user call.triggerContext] } :=
      { disciplined := ⟨Trace.guarded_nil, rfl, fun hm => by simpa using hm⟩
        questions_eq := rfl
        left := Nat.zero_add _
        tokens_eq := rfl
        idle_eq := rfl
        idle_lt := Nat.zero_lt_succ 2
        paired := trivial }
    refine (orchestrationLoop_disciplined _ hs).bind fun out ho => ?_
    refine (finishOrchestration_called call out.1 out.2).bind fun r hr => Yields.pure ?_
    exact ⟨ho.guarded, ho.called ▸ hr, fun hm => ho.called ▸ ho.within hm⟩

end McpworksApi.Agents
