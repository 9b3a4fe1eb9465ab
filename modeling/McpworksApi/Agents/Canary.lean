import McpworksApi.Agents.RunAccounting

/-! The canary token of a run. An input that holds the token somewhere has it in its text as well, so no such input is
dispatched, and the run ends where it turns up. -/

namespace McpworksApi.Agents

open Models Py Run Services Session

def urlSafeChars : List Char := "ABCDEFGHIJKLMNOPQRSTUVWXYZabcdefghijklmnopqrstuvwxyz0123456789-_".toList

theorem urlSafeChars_eq : urlSafeChars =
    ['A', 'B', 'C', 'D', 'E', 'F', 'G', 'H', 'I', 'J', 'K', 'L', 'M', 'N', 'O', 'P', 'Q', 'R', 'S',
      'T', 'U', 'V', 'W',
      'X', 'Y', 'Z', 'a', 'b', 'c', 'd', 'e', 'f', 'g', 'h', 'i', 'j', 'k', 'l', 'm', 'n', 'o', 'p',
        'q', 'r', 's', 't',
      'u', 'v', 'w', 'x', 'y', 'z', '0', '1', '2', '3', '4', '5', '6', '7', '8', '9', '-', '_'] :=
  String.toList_ofList

def UrlSafe (token : String) : Prop := ∀ c ∈ token.toList, c ∈ urlSafeChars

def Leaks (token : String) (input : Args) : Prop := ∃ s ∈ (Json.obj input).strings, contains s token = true

section Texts

variable {token s : String}

theorem contains_append_left (h : contains s token = true) (x : String) : contains (s ++ x) token = true := by
  rw [contains_eq_true, String.toList_append]
  exact (contains_eq_true.mp h).trans (List.prefix_append _ _).isInfix

theorem contains_append_right (h : contains s token = true) (x : String) : contains (x ++ s) token = true := by
  rw [contains_eq_true, String.toList_append]
  exact (contains_eq_true.mp h).trans (List.suffix_append _ _).isInfix

theorem flatMap_reprChar (hsafe : UrlSafe token) {quote : Char} (hq : quote = '"' ∨ quote = '\'') :
    token.toList.flatMap (reprChar quote) = token.toList := by
  have hp : (urlSafeChars.all fun c => reprChar '"' c = [c] ∧ reprChar '\'' c = [c]) = true := by
    rw [urlSafeChars_eq]
    decide +kernel
  replace hp := fun c hc => of_decide_eq_true (List.all_eq_true.mp hp c hc)
  have hch : ∀ c ∈ token.toList, reprChar quote c = [c] := by
    intro c hc
    rcases hq with rfl | rfl
    · exact (hp c (hsafe c hc)).1
    · exact (hp c (hsafe c hc)).2
  rw [List.flatMap_congr hch, List.flatMap_singleton']

theorem contains_repr (hsafe : UrlSafe token) (h : contains s token = true) : contains (Py.repr s) token = true := by
  obtain ⟨before, after, hs⟩ := contains_eq_true.mp h
  refine contains_eq_true.mpr ?_
  unfold Py.repr
  rw [String.toList_ofList, ← hs, List.flatMap_append, List.flatMap_append,
    flatMap_reprChar hsafe (by split <;> simp)]
  simp only [List.append_assoc, ← List.cons_append]
  exact ⟨_, _, List.append_assoc ..⟩

theorem contains_intercalate {sep x : String} {l : List String} (hx : x ∈ l) (h : contains x token = true) :
    contains (sep.intercalate l) token = true := by
  induction l with
  | nil => cases hx
  | cons first l ih =>
    cases l with
    | nil =>
      obtain rfl := List.mem_singleton.mp hx
      rwa [String.intercalate_singleton]
    | cons second l =>
      rw [String.intercalate_cons_cons]
      rcases List.mem_cons.mp hx with rfl | hx
      · exact contains_append_left (contains_append_left h sep) _
      · exact contains_append_right (ih hx) _

mutual

theorem contains_jsonRepr (hsafe : UrlSafe token) (h : contains s token = true) :
    ∀ j : Json, s ∈ j.strings → contains j.repr token = true
  | .str _, hs => by
    obtain rfl := List.mem_singleton.mp hs
    exact contains_repr hsafe h
  | .arr items, hs => by
    obtain ⟨x, hx, hc⟩ := contains_reprItems hsafe h items hs
    exact contains_append_left (contains_append_right (contains_intercalate hx hc) "[") "]"
  | .obj fields, hs => by
    obtain ⟨x, hx, hc⟩ := contains_reprFields hsafe h fields hs
    exact contains_append_left (contains_append_right (contains_intercalate hx hc) "\x7b") "\x7d"

theorem contains_reprItems (hsafe : UrlSafe token) (h : contains s token = true) :
    ∀ its : List Json, s ∈ stringsOfItems its → ∃ x ∈ reprItems its, contains x token = true
  | j :: its, hs => by
    rcases List.mem_append.mp hs with hs | hs
    · exact ⟨_, List.mem_cons_self, contains_jsonRepr hsafe h j hs⟩
    · obtain ⟨x, hx, hc⟩ := contains_reprItems hsafe h its hs
      exact ⟨x, List.mem_cons_of_mem _ hx, hc⟩

theorem contains_reprFields (hsafe : UrlSafe token) (h : contains s token = true) :
    ∀ fs : List (String × Json), s ∈ stringsOfFields fs → ∃ x ∈ reprFields fs, contains x token = true
  | (key, j) :: fs, hs => by
    rw [stringsOfFields, List.cons_append, List.mem_cons, List.mem_append] at hs
    rcases hs with rfl | hs | hs
    · exact ⟨_, List.mem_cons_self, contains_append_left (contains_append_left (contains_repr hsafe h) ": ") _⟩
    · exact ⟨_, List.mem_cons_self, contains_append_right (contains_jsonRepr hsafe h j hs) _⟩
    · obtain ⟨x, hx, hc⟩ := contains_reprFields hsafe h fs hs
      exact ⟨x, List.mem_cons_of_mem _ hx, hc⟩

end

theorem Leaks.contains_text {inp : Args} (hsafe : UrlSafe token) (h : Leaks token inp) :
    contains (Json.text (.obj inp)) token = true := by
  obtain ⟨s, hs, hc⟩ := h
  exact contains_jsonRepr hsafe hc _ hs

end Texts

variable {env : AgentEnv} {dispatch dispatch' : Dispatcher} {limits : Limits} {canary : String} {ctx : ToolContext}
  {call : OrchestrationCall} {n : ℕ} {l : Loop} {t : Turn} {w w' : World}

def AgreeWithout (canary : String) (dispatch dispatch' : Dispatcher) : Prop :=
  ∀ ctx tool input, ¬ Leaks canary input → dispatch ctx tool input = dispatch' ctx tool input

section Agree

variable (hstr : env.str = Json.text) (hsafe : UrlSafe canary) (h : AgreeWithout canary dispatch dispatch')

include hstr hsafe h

theorem runToolUses_agree (bs : List Block) (t : Turn) :
    runToolUses env dispatch limits canary ctx bs t = runToolUses env dispatch' limits canary ctx bs t := by
  induction bs generalizing t with
  | nil => rfl
  | cons blk bs ih =>
    cases blk with
    | text cont => exact ih t
    | unreadable e => rfl
    | toolUse tool input id =>
      unfold runToolUses
      simp only [ih]
      by_cases hc : contains (env.str (.obj input)) canary = true
      · simp only [if_pos hc]
      · have hcl : ¬ Leaks canary input := fun hl => hc (hstr ▸ hl.contains_text hsafe)
        rw [h ctx tool input hcl]

theorem orchestrationLoop_agree (n : ℕ) (l : Loop) :
    orchestrationLoop env dispatch limits canary ctx n l = orchestrationLoop env dispatch' limits canary ctx n l := by
  induction n generalizing l with
  | zero => rfl
  | succ n ih =>
    have hh : handleResponse env dispatch limits canary ctx (orchestrationLoop env dispatch limits canary ctx n) =
        handleResponse env dispatch' limits canary ctx (orchestrationLoop env dispatch' limits canary ctx n) := by
      funext l resp
      cases resp with
      | error e => rfl
      | ok resp => simp only [handleResponse, runToolUses_agree hstr hsafe h, ih]
    simp only [orchestrationLoop, hh]

end Agree

structure Round (env : AgentEnv) (limits : Limits) (l : Loop) (w : World) (response : AiResponse) : Prop where
  tokens : l.totalTokens < limits.maxAiTokens
  time : env.elapsed w.asked < limits.maxExecutionSeconds
  answer : env.ai w.asked = .ok response
  stop : response.stopReason = "tool_use"

inductive LeaksIn (env : AgentEnv) (dispatch : Dispatcher) (limits : Limits) (canary : String) (ctx : ToolContext) :
    ℕ → Loop → World → String → World → Prop
  | here {n : ℕ} {l : Loop} {w w' : World} {response : AiResponse} {t : Turn} {before after : List Block}
    {tool id : String} {input : Args} (hround : Round env limits l w response)
    (hcontent : response.content = before ++ .toolUse tool input id :: after)
    (hbefore : runToolUses env dispatch limits canary ctx before ((l.ask ctx.availableTools).reply response).turn
      { w with asked := w.asked + 1 } = (.ok (t, none), w'))
    (hlimit : limitReached limits t.functionsCalled = false) (hleaks : Leaks canary input) :
    LeaksIn env dispatch limits canary ctx (n + 1) l w tool w'
  | later {n : ℕ} {l : Loop} {w w₁ w' : World} {response : AiResponse} {t : Turn} {tool : String}
    (hround : Round env limits l w response)
    (huses : runToolUses env dispatch limits canary ctx response.content
      ((l.ask ctx.availableTools).reply response).turn
      { w with asked := w.asked + 1 } = (.ok (t, none), w₁))
    (hfailures : (((l.ask ctx.availableTools).reply response).next response.content t).consecutiveFailures < 3)
    (hlater : LeaksIn env dispatch limits canary ctx n
      (((l.ask ctx.availableTools).reply response).next response.content t)
      w₁ tool w') : LeaksIn env dispatch limits canary ctx (n + 1) l w tool w'

theorem orchestrationLoop_of_round {resp : AiResponse} (h : Round env limits l w resp) :
    orchestrationLoop env dispatch limits canary ctx (n + 1) l w =
      handleResponse env dispatch limits canary ctx (orchestrationLoop env dispatch limits canary ctx n)
        (l.ask ctx.availableTools) (.ok resp) { w with asked := w.asked + 1 } := by
  have ha : ask env w = (.ok (.ok resp), { w with asked := w.asked + 1 }) := by
    rw [← h.answer]
    rfl
  unfold orchestrationLoop
  rw [query_bind_apply, if_neg (not_le.mpr h.tokens), if_neg (not_le.mpr h.time), bind_of_ok ha]

theorem runToolUses_of_leaks (hstr : env.str = Json.text) (hsafe : UrlSafe canary) {pre post : List Block}
    {tool id : String} {inp : Args} {t t' : Turn}
    (hb : runToolUses env dispatch limits canary ctx pre t w = (.ok (t', none), w'))
    (hl : limitReached limits t'.functionsCalled = false) (hle : Leaks canary inp) :
    runToolUses env dispatch limits canary ctx (pre ++ .toolUse tool inp id :: post) t w =
      (.ok (t', some (.canaryLeaked tool)), w') := by
  induction pre generalizing t w with
  | nil =>
    cases hb
    rw [List.nil_append, runToolUses, if_neg (Bool.eq_false_iff.mp hl), if_pos (hstr ▸ hle.contains_text hsafe)]
    rfl
  | cons blk pre ih =>
    cases blk with
    | text cont => exact ih hb
    | unreadable e => cases hb
    | toolUse o given id' =>
      rw [List.cons_append]
      unfold runToolUses at hb ⊢
      split at hb
      · rw [if_pos ‹_›]
        exact ih hb
      rw [if_neg ‹_›]
      split at hb
      · cases hb
      rw [if_neg ‹_›]
      split at hb
      · rw [if_pos ‹_›]
        exact ih hb
      rw [if_neg ‹_›]
      obtain ⟨reply, w₁, hr, hb⟩ := Session.bind_eq_ok.mp hb
      rw [bind_of_ok hr]
      cases reply with
      | error e => cases hb
      | ok reply => exact ih hb

theorem orchestrationLoop_of_leaks (hstr : env.str = Json.text) (hsafe : UrlSafe canary) {tool : String}
    (h : LeaksIn env dispatch limits canary ctx n l w tool w') :
    ∃ l', orchestrationLoop env dispatch limits canary ctx n l w = (.ok (l', .canaryLeaked tool), w') := by
  induction h with
  | here hr hc hb hl hle =>
    rw [orchestrationLoop_of_round hr]
    unfold handleResponse
    dsimp only
    rw [if_neg (not_not.mpr hr.stop), hc, bind_of_ok (runToolUses_of_leaks hstr hsafe hb hl hle)]
    exact ⟨_, rfl⟩
  | later hr hu hf _ ih =>
    obtain ⟨l', hl'⟩ := ih
    rw [orchestrationLoop_of_round hr]
    unfold handleResponse
    dsimp only
    rw [if_neg (not_not.mpr hr.stop), bind_of_ok hu]
    dsimp only
    rw [if_neg (not_le.mpr hf)]
    exact ⟨l', hl'⟩

/-- What the dispatcher would do with an input that holds the token makes no difference to a run, and a run that comes
to such a call ends in the world in which it came to it. -/
theorem canary_contained (env : AgentEnv) (call : OrchestrationCall) (hstr : env.str = Json.text)
    (hsafe : UrlSafe call.canary) :
    (∀ dispatch, AgreeWithout call.canary (dispatchTool env) dispatch →
      orchestrate env (dispatchTool env) call = orchestrate env dispatch call) ∧
    ∀ w tool w', given call.agent.aiEngine = true → call.agent.aiApiKey.isSome = true →
      LeaksIn env (dispatchTool env) (resolveOrchestrationLimits call.tier call.agent) call.canary
        (orchestrationContext env w.db call)
        (resolveOrchestrationLimits call.tier call.agent).maxIterations.toNat
          { messages := [.user call.triggerContext] } w
        tool w' →
      ∃ r trace, orchestrate env (dispatchTool env) call w = (.ok (r, trace), w') ∧ r.success = false := by
  constructor
  · intro dispatch h
    unfold orchestrate
    simp only [orchestrationLoop_agree hstr hsafe h]
  · intro w tool w' he hk hl
    obtain ⟨l', hl'⟩ := orchestrationLoop_of_leaks hstr hsafe hl
    have hr : ¬ (!given call.agent.aiEngine || call.agent.aiApiKey.isNone) = true := by
      simp [he, ← Option.not_isSome, hk]
    unfold orchestrate
    rw [if_neg hr]
    change ∃ r trace,
      (orchestrationLoop env (dispatchTool env) _ call.canary (orchestrationContext env w.db call) _
        _ >>= _) w = (.ok (r, trace), w') ∧ _
    rw [bind_of_ok hl']
    exact ⟨_, _, rfl, rfl⟩

def leakingModel : AgentEnv :=
  { plainAgentEnv with
    str := Json.text
    ai := fun _ => .ok
      { content := [.toolUse "mail__send" [("to", .arr [.str "the canary sings"])], .toolUse "mail__send" []]
        stopReason := "tool_use" } }

theorem leaking_run_ends : ∃ r trace,
    orchestrate leakingModel (dispatchTool leakingModel) (newsletterCall newsletterAgent) { db := mailDb "sms" } =
      (.ok (r, trace), { db := mailDb "sms", asked := 1 }) ∧ r.success = false := by
  have hl : (resolveOrchestrationLimits "pro-agent" newsletterAgent).maxIterations.toNat = 9 + 1 := by decide
  have hsafe : ("canary".toList.all (· ∈ urlSafeChars)) = true := by
    rw [urlSafeChars_eq]
    decide
  refine (canary_contained leakingModel _ rfl fun c hc => of_decide_eq_true (List.all_eq_true.mp hsafe c hc)).2 _
    "mail__send" _ (by decide) (by decide) ?_
  have hs : LeaksIn leakingModel (dispatchTool leakingModel) (resolveOrchestrationLimits "pro-agent" newsletterAgent)
      "canary" (orchestrationContext leakingModel (mailDb "sms") (newsletterCall newsletterAgent)) (9 + 1)
      { messages := [.user "Send the newsletter."] } { db := mailDb "sms" } "mail__send"
      { db := mailDb "sms", asked := 1 } :=
    .here ⟨by decide, by decide, rfl, rfl⟩ (List.nil_append _).symm rfl (by decide)
      ⟨"the canary sings", by decide, by decide⟩
  rw [← hl] at hs
  exact hs

end McpworksApi.Agents
