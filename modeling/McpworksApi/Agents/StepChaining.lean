import McpworksApi.Agents.ProcedureRuns
import McpworksApi.Services.Procedures

/-! Step chaining. A mapping may refer to the result of an earlier step as `$.steps.name.result.field`, and
`create_procedure` checks that such a step comes before. -/

namespace McpworksApi.Agents

open Models Py Run Services Services.Procedures Session

abbrev Position := List ProcedureStep × Progress × World

/-- One step of a procedure that goes on after it. -/
inductive Advance (env : AgentEnv) (ctx : ToolContext) (executionId : ℕ) : Position → Position → Prop
  | unmapped {step : ProcedureStep} {steps : List ProcedureStep} {p : Progress} {w : World} {e : String}
    {errors : List String} (htool : (stepTool step).isSome = true)
    (herrors : mappingErrors step p.context = .ok (e :: errors))
    (hpolicy : step.failurePolicy ≠ .required) :
    Advance env ctx executionId (step :: steps, p, w) (steps, p.unmapped step (e :: errors), w)
  | attempted {step : ProcedureStep} {steps : List ProcedureStep} {p q : Progress} {w w₁ w₂ : World} {tool : String}
    {run : StepRun} (htool : stepTool step = some tool) (herrors : mappingErrors step p.context = .ok [])
    (hrun : runAttempts env ctx step tool (step.maxRetries + 1) {} w = (.ok run, w₁))
    (hpolicy : run.result = none → step.failurePolicy ≠ .required)
    (hmapped : p.attempted step tool run = .ok q)
    (hupdate : (updateExecution env executionId q.stepResults fun e => { e with currentStep := step.stepNumber }) w₁ =
      (.ok (), w₂)) :
    Advance env ctx executionId (step :: steps, p, w) (steps, q, w₂)

theorem attempted_bind_of_ok {p q : Progress} {step : ProcedureStep} {tool : String} {run : StepRun} {α : Type}
    (k : Progress → Api α) (w : World) (h : p.attempted step tool run = .ok q) :
    ((fetch fun _ => p.attempted step tool run) >>= k) w = k q w :=
  fetch_bind_of_ok (q := fun _ : World => p.attempted step tool run) h

/-- From either end of an advance the run goes on in the same way. -/
theorem runSteps_of_advance {env : AgentEnv} {ctx : ToolContext} {eid total : ℕ} {proc : String} {a b : Position}
    (h : Advance env ctx eid a b) :
    runSteps env ctx proc eid total a.1 a.2.1 a.2.2 = runSteps env ctx proc eid total b.1 b.2.1 b.2.2 := by
  cases h with
  | unmapped ht he hp =>
    obtain ⟨⟨svc, fn⟩, hs⟩ := Option.isSome_iff_exists.mp ((Option.isSome_map).symm.trans ht)
    simp only [runSteps, hs, he, if_neg hp]
  | @attempted step steps p q w w₁ w₂ tool run ht he hr hp hq hu =>
    obtain ⟨⟨svc, fn⟩, hs, rfl⟩ := Option.map_eq_some_iff.mp ht
    obtain ⟨attempts, result, iterations⟩ := run
    simp only [runSteps, hs, he]
    rw [bind_of_ok hr]
    cases result with
    | some output => exact (attempted_bind_of_ok _ w₁ hq).trans (bind_of_ok hu)
    | none =>
      cases hpo : step.failurePolicy with
      | required => exact absurd hpo (hp rfl)
      | allowed | skip => exact (attempted_bind_of_ok _ w₁ hq).trans (bind_of_ok hu)

def startContext (inputContext : Option Json) : Args :=
  match inputContext with
  | some c => if c.truthy then [("input", c)] else []
  | none => []

theorem stepKey_ne (n : ℕ) : "steps" ≠ "step_" ++ toString n := by
  intro h
  have hc := congrArg (fun s => s.toList[4]?) h
  simp [String.toList_append] at hc

theorem remember_steps (p : Progress) (step : ProcedureStep) (st : String) (r : Json) :
    (p.remember step st r).context.get? "steps" = p.context.get? "steps" :=
  Args.get?_set_of_ne _ (stepKey_ne step.stepNumber)

theorem advance_steps {env : AgentEnv} {ctx : ToolContext} {eid : ℕ} {a b : Position}
    (h : Advance env ctx eid a b) : b.2.1.context.get? "steps" = a.2.1.context.get? "steps" := by
  cases h with
  | unmapped => rfl
  | @attempted step steps p q w w₁ w₂ tool run ht he hr hp hq hu =>
    obtain ⟨attempts, _ | output, iterations⟩ := run
    · cases hq
      exact remember_steps _ step _ .null
    · rw [Progress.attempted, Progress.afterStep] at hq
      rcases hm : mappedOutput step output with e | mapped <;> rw [hm] at hq <;> cases hq
      exact remember_steps _ step "success" _

theorem steps_missing {env : AgentEnv} {ctx : ToolContext} {eid : ℕ} {ss : List ProcedureStep}
    {ictx : Option Json} {w : World} {b : Position}
    (h : Relation.ReflTransGen (Advance env ctx eid) (ss, { context := startContext ictx }, w) b) :
    b.2.1.context.get? "steps" = none := by
  induction h with
  | refl =>
    dsimp only
    unfold startContext
    split
    · split
      · simp [Args.get?]
      · rfl
    · rfl
  | tail _ hs ih => rw [advance_steps hs, ih]

def chainExpression (name field : String) : String := "$.steps." ++ name ++ ".result." ++ field

/-- A procedure was created, some of its steps have been executed, the one called `name` succeeded
with `value` in the field `field` of its result, and the next step refers to that field. -/
structure Chained (env : AgentEnv) (ctx : ToolContext) (p : Progress) (name field : String)
    (value : Json) : Prop where
  run : ∃ db db' namespaceId service procedure inputs description createdBy stored version,
    createProcedure namespaceId service procedure inputs description createdBy db = (.ok stored, db') ∧
      activeProcedureVersion db' stored = some version ∧
        ∃ executionId inputContext w w' step steps,
          Relation.ReflTransGen (Advance env ctx executionId)
            (version.steps, { context := startContext inputContext }, w) (step :: steps, p, w') ∧
              ∃ param, (param, chainExpression name field) ∈ step.inputMapping.getD []
  succeeded : ∃ r ∈ p.stepResults, r.name = name ∧ r.status = "success" ∧
    ∃ fields, r.result = .obj fields ∧ Args.get? fields field = some value

theorem resolve_chainExpression {ctx : Args} (hm : ctx.get? "steps" = none) (name field : String) :
    JsonPath.resolve (chainExpression name field) ctx =
      .error (.jsonPath ("Key 'steps' not found (at '" ++ chainExpression name field ++ "')")) := by
  have hf : chainExpression name field =
      String.ofList ('$' :: '.' :: 's' :: "teps".toList ++
        ('.' :: name.toList ++ ".result.".toList ++ field.toList)) := by
    apply String.toList_injective
    simp [chainExpression, String.toList_append]
  have hn : ∀ d ∈ "teps".toList, JsonPath.isNameChar d = true := List.all_eq_true.mp (by rfl)
  rw [hf]
  exact JsonPath.resolve_of_missing (by decide) (by decide) hn (by rfl) hm

/-- A reference to an earlier step is never resolved. -/
theorem chained_step_never_resolves {env : AgentEnv} {ctx : ToolContext} {p : Progress}
    {name field : String} {value : Json}
    (h : Chained env ctx p name field value) :
    JsonPath.resolve (chainExpression name field) p.context =
      .error (.jsonPath ("Key 'steps' not found (at '" ++ chainExpression name field ++ "')")) := by
  obtain ⟨_, _, _, _, _, _, _, _, _, version, -, -, eid, inputContext, w, w', step, steps, hr, -⟩ := h.run
  exact resolve_chainExpression (steps_missing hr) name field

def reportInputs : List StepInput :=
  [{ name := "send", functionRef := "mail.send", instructions := "Send the mail." },
    { name := "log", functionRef := "mail.send", instructions := "Log the number of mails.",
      inputMapping := some (.obj [("count", .str "$.steps.send.result.sent")]) }]

def sendStep : ProcedureStep where
  stepNumber := 1
  name := "send"
  functionRef := "mail.send"
  instructions := "Send the mail."

def reportVersion : ProcedureVersion where
  id := 1
  procedureId := 1
  steps :=
    [sendStep,
      { stepNumber := 2, name := "log", functionRef := "mail.send", instructions := "Log the number of mails.",
        inputMapping := some [("count", "$.steps.send.result.sent")] }]

def reportResult : Json := .obj [("sent", .int 3)]

def reportEnv : AgentEnv :=
  { plainAgentEnv with
    run := { plainEnv with sandbox := { eagerSandbox with run := fun _ => { success := true, output := reportResult } } }
    ai := callingModel "mail__send"
    dumps := Json.dumps
    loads := fun _ => .ok (some reportResult) }

def reportWorld : World where
  db := { mailDb "sms" with
    procedureExecutions := .single { id := 1, procedureId := 1, procedureVersion := 1, triggerType := "manual" } }

def reportRun : StepRun where
  attempts := [{ attempt := 1, success := true, toolInput := some [] }]
  result := some reportResult
  iterations := 1

theorem report_created : createProcedure 1 "mail" "report" reportInputs none none (mailDb "sms") =
    (.ok { id := 1, namespaceId := 1, serviceId := 3, name := "report" },
      { mailDb "sms" with
        procedures := Table.empty.insert fun i => { id := i, namespaceId := 1, serviceId := 3, name := "report" }
        procedureVersions := Table.empty.insert fun i => { reportVersion with id := i } }) := by
  rfl

def reportProgress : Progress := (Progress.attempted {} sendStep "mail__send" reportRun).toOption.getD {}

theorem report_advance : ∃ w', Advance reportEnv newsletterContext 1 (reportVersion.steps, {}, reportWorld)
    (reportVersion.steps.tail, reportProgress, w') := by
  have hr : (runAttempts reportEnv newsletterContext sendStep "mail__send" 2 {} reportWorld).1 = .ok reportRun := rfl
  exact ⟨_, .attempted rfl rfl (apply_of_ok hr) (fun h => nomatch h) rfl (apply_of_ok rfl)⟩

theorem report_chained : Chained reportEnv newsletterContext reportProgress "send" "sent" (.int 3) where
  run := by
    obtain ⟨w', ha⟩ := report_advance
    exact ⟨mailDb "sms", _, 1, "mail", "report", reportInputs, none, none, _, reportVersion,
      report_created, rfl, 1, none,
      reportWorld, w', _, [], .single ha, "count", List.mem_singleton_self _⟩
  succeeded := ⟨_, List.mem_singleton_self _, rfl, rfl, _, rfl, rfl⟩

theorem sent_mails_key_missing : JsonPath.resolve (chainExpression "send" "sent") reportProgress.context =
    .error (.jsonPath ("Key 'steps' not found (at '" ++ chainExpression "send" "sent" ++ "')")) :=
  chained_step_never_resolves report_chained

/-- The second step cannot be given the number of mails. -/
theorem sent_mails_not_passed_on : Chained reportEnv newsletterContext reportProgress "send" "sent" (.int 3) ∧
    JsonPath.resolve (chainExpression "send" "sent") reportProgress.context ≠ .ok (.int 3) := by
  refine ⟨report_chained, ?_⟩
  have hr : JsonPath.resolve (chainExpression "send" "sent") reportProgress.context =
      .error (.jsonPath "Key 'steps' not found (at '$.steps.send.result.sent')") := rfl
  rw [hr]
  exact fun h => nomatch h

end McpworksApi.Agents
