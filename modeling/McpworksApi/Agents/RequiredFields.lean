import McpworksApi.Agents.ProcedureRuns

/-! The required fields of a step. The output of its function is written as a text, cut to 4000 characters and read
again, and it is validated only if it is an object then. -/

namespace McpworksApi.Agents

open Models Py Run Services Services.Functions Session

def outputText (env : AgentEnv) (output : Json) : String := clip 4000 (valueText env.dumps output)

def replyText : Except ApiError ToolReply → Option String
  | .ok (.text s) => some s
  | _ => none

def Complete (step : ProcedureStep) (value : Json) : Prop :=
  ∃ fields, value = .obj fields ∧ ∀ f ∈ step.requiredFields, f ∈ fields.map Prod.fst

def recorded (env : AgentEnv) (ctx : ToolContext) (step : ProcedureStep) (tool : String) (input : Args) (w : World) :
    Option Json :=
  match (tryBlocks env ctx step tool [.toolUse tool input] { attempt := 1 } w).1 with
  | .ok (_, data) => data
  | .error _ => none

variable {env : AgentEnv} {ctx : ToolContext} {step : ProcedureStep} {tool : String} {input : Args}
    {w : World} {output : Json}

def validated (step : ProcedureStep) (text : String) : Except ApiError (Option Json) → Option Json
  | .error _ => none
  | .ok data => if missingFields step (data.getD (.str text)) = [] then some (data.getD (.str text)) else none

theorem recorded_eq (step : ProcedureStep) (hc :
    replyText (dispatchPlainTool env ctx tool input w).1 = some (outputText env output))
    (hsu : looksFailed (outputText env output) = false) :
    recorded env ctx step tool input w = validated step (outputText env output)
      (env.loads (outputText env output)) := by
  have hr : (dispatchPlainTool env ctx tool input w).1 = .ok (.text (outputText env output)) := by
    unfold replyText at hc
    split at hc
    · rename_i s hs
      rw [hs, Option.some.inj hc]
    · cases hc
  generalize outputText env output = text at hr hsu ⊢
  have hn : ¬ looksFailed ((ToolReply.text text).render env) = true := Bool.eq_false_iff.mp hsu
  unfold recorded tryBlocks
  rw [if_neg (fun h => h rfl), bind_of_ok (apply_of_ok hr)]
  dsimp only
  rw [if_neg hn, fetch_bind_apply]
  dsimp only [ToolReply.render]
  rcases hl : env.loads text with e | data
  · rfl
  unfold validated
  dsimp only
  rcases hm : missingFields step (data.getD (.str text)) with _ | ⟨field, fs⟩
  · rfl
  · rfl

theorem missingFields_obj {fs : List (String × Json)} :
    missingFields step (.obj fs) = [] ↔ Complete step (.obj fs) := by
  simp [missingFields, Complete, List.filter_eq_nil_iff]

/-- The fields of a step are enforced on a function with this output, which does not look like an error, exactly when
the text that is made of the output is read as an object, or reading it raises. -/
theorem required_fields_enforced_iff (env : AgentEnv) (ctx : ToolContext) (step : ProcedureStep) (tool : String)
    (input : Args) (w : World) (output : Json)
    (hcall : replyText (dispatchPlainTool env ctx tool input w).1 = some (outputText env output))
    (hsuccess : looksFailed (outputText env output) = false)
    (hread : ∀ fields, output = .obj fields → (env.dumps output).length ≤ 4000 →
      env.loads (env.dumps output) = .ok (some output))
    (hcut : ∀ fields, output = .obj fields → 4000 < (env.dumps output).length →
      env.loads (clip 4000 (env.dumps output)) = .ok none) :
    ((∀ data, recorded env ctx step tool input w = some data → Complete step data) ∧
        (Complete step output → (recorded env ctx step tool input w).isSome)) ↔
      ∀ data, env.loads (outputText env output) = .ok data → ∃ fields, data = some (.obj fields) := by
  have heq := recorded_eq step hcall hsuccess
  constructor
  · rintro ⟨he, -⟩ data hd
    -- what is no object passes the validation
    by_contra hno
    have hn : ∀ fields, data.getD (.str (outputText env output)) ≠ .obj fields := by
      intro fields hf
      cases data with
      | none => simp at hf
      | some data => exact hno ⟨fields, congrArg some hf⟩
    have hm : missingFields step (data.getD (.str (outputText env output))) = [] := by
      unfold missingFields
      split
      · rename_i fields hf
        exact absurd hf (hn fields)
      · rfl
    rw [hd, validated, if_pos hm] at heq
    obtain ⟨fields, hf, -⟩ := he _ heq
    exact hn fields hf
  · intro hob
    rw [heq]
    refine ⟨fun data hd => ?_, fun hc => ?_⟩
    · rcases hl : env.loads (outputText env output) with e | read
      · rw [hl] at hd
        cases hd
      · obtain ⟨fields, rfl⟩ := hob read hl
        rw [hl, validated, Option.getD_some] at hd
        split at hd
        · rename_i hm
          obtain rfl := Option.some.inj hd
          exact missingFields_obj.mp hm
        · cases hd
    · obtain ⟨own, ho, -⟩ := id hc
      have ht : outputText env output = clip 4000 (env.dumps output) := by rw [ho]; rfl
      by_cases hlo : 4000 < (env.dumps output).length
      · obtain ⟨fields, hf⟩ := hob none (by rw [ht, hcut own ho hlo])
        cases hf
      · have hw : clip 4000 (env.dumps output) = env.dumps output := by
          unfold clip
          rw [List.take_of_length_le (by rw [String.length_toList]; omega), String.ofList_toList]
        rw [ht, hw, hread own ho (not_lt.mp hlo), validated, Option.getD_some]
        rw [ho] at hc ⊢
        rw [if_pos (missingFields_obj.mpr hc)]
        rfl

def returning (output : Json) : AgentEnv :=
  { plainAgentEnv with
    dumps := Json.dumps
    loads := fun text => if text = "\x7b\"id\": 1\x7d" then .ok (some (.obj [("id", .int 1)])) else .ok none
    run := { plainEnv with sandbox := { eagerSandbox with run := fun _ => { success := true, output } } } }

def recordedFor (output : Json) : Option Json :=
  recorded (returning output) newsletterContext
    { stepNumber := 1, name := "send", functionRef := "mail.send", requiredFields := ["id"] } "mail__send" []
    { db := newsletterDb }

/-- A text is recorded as the result of a step that requires a field. -/
theorem text_passes_for_fields : recordedFor (.str "done") = some (.str "done") := rfl

theorem id_recorded : recordedFor (.obj [("id", .int 1)]) = some (.obj [("id", .int 1)]) ∧
    ∀ data, recordedFor (.obj [("id", .int 1)]) = some data →
      Complete { stepNumber := 1, name := "send", functionRef := "mail.send", requiredFields := ["id"] } data := by
  have hl : ∀ text, text = "\x7b\"id\": 1\x7d" →
      (returning (.obj [("id", .int 1)])).loads text = .ok (some (.obj [("id", .int 1)])) := fun _ h => if_pos h
  refine ⟨rfl, ((required_fields_enforced_iff _ _ _ _ _ _ (.obj [("id", .int 1)]) ?_ ?_ ?_ ?_).mpr ?_).1⟩
  · decide +kernel
  · decide +kernel
  · exact fun _ _ _ => hl _ (by decide +kernel)
  · exact fun _ _ hlo => absurd hlo (by decide +kernel)
  · intro data hd
    rw [hl _ (by decide +kernel)] at hd
    exact ⟨_, (Except.ok.inj hd).symm⟩

end McpworksApi.Agents
