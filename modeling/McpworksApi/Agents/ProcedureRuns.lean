import McpworksApi.Agents.Procedures
import McpworksApi.Run.AccessLaw

/-! What the end of a procedure says about its steps. Attempts leave the record of the execution
alone, so it holds what was written after the last step: the results of all steps in order
when the procedure succeeded (`Finished`), and the status `failed` when it did not. -/

namespace McpworksApi.Agents

open Models Py Run Services Services.Functions Session

def stepTool (step : ProcedureStep) : Option String :=
  (splitOnce "." step.functionRef).map fun p => p.1 ++ "__" ++ p.2

/-- The result accounts for the step. -/
structure EntryOf (step : ProcedureStep) (r : StepResult) : Prop where
  stepNumber : r.stepNumber = step.stepNumber
  name : r.name = step.name
  called : r.status = "success" → r.functionCalled = stepTool step ∧ (stepTool step).isSome = true
  required : step.failurePolicy = .required → r.status = "success"

def successfulTools (steps : List ProcedureStep) (results : List StepResult) : List String :=
  (steps.zip results).filterMap fun p => if p.2.status = "success" then stepTool p.1 else none

/-- The execution is completed and accounts for every step. -/
structure Finished (steps : List ProcedureStep) (r : Orchestration) (e : ProcedureExecution) : Prop where
  status : e.status = .completed
  entries : List.Forall₂ EntryOf steps e.stepResults
  called : r.functionsCalled = successfulTools steps e.stepResults

def executionRow (executionId : ℕ) (w : World) : Option ProcedureExecution :=
  w.db.procedureExecutions.get? executionId

def Ended (executionId : ℕ) (steps : List ProcedureStep) (r : Orchestration) (w : World) : Prop :=
  ∃ e, executionRow executionId w = some e ∧ (r.success = true → Finished steps r e) ∧
    (r.success = false → e.status = .failed)

theorem ended_failed {ei : ℕ} {sss : List ProcedureStep} {r : Orchestration} {w : World} {e : ProcedureExecution}
    (hro : executionRow ei w = some e) (hr : r.success = false) (he : e.status = .failed) :
    Ended ei sss r w := by
  refine ⟨e, hro, fun hs => ?_, fun _ => he⟩
  rw [hr] at hs
  cases hs

section Frame

variable {env : AgentEnv} {ctx : ToolContext}

abbrev KeepsExecutions {α : Type} (m : Api α) : Prop := Keeps (fun w : World => w.db.procedureExecutions) m

theorem keepsExecutions_runAttempts (step : ProcedureStep) (tool : String) (n : ℕ) (r : StepRun) :
    KeepsExecutions (runAttempts env ctx step tool n r) := by
  refine Keeps.iff_maintains.mpr fun x => runAttempts_maintains (fun _ _ hw => hw) (fun input => ?_) n r
  refine dispatchPlainTool_maintains (fun _ _ hw => hw) (fun _ => trivial) (fun _ => trivial) fun _ _ _ => ?_
  exact executeNamespaceFunction_maintains (fun _ _ hw => hw) (fun _ _ _ _ hw => hw) _ _ _ _ _

end Frame

/-- The results so far account for the steps that are done. -/
structure Tally (done : List ProcedureStep) (p : Progress) : Prop where
  entries : List.Forall₂ EntryOf done p.stepResults
  called : p.functionsCalled = successfulTools done p.stepResults

theorem successfulTools_append {done : List ProcedureStep} {rs : List StepResult}
    {step : ProcedureStep} {r : StepResult}
    (h : done.length = rs.length) :
    successfulTools (done ++ [step]) (rs ++ [r]) =
      successfulTools done rs ++ if r.status = "success" then (stepTool step).toList else [] := by
  unfold successfulTools
  rw [List.zip_append h, List.filterMap_append]
  congr 1
  simp only [List.zip_cons_cons, List.zip_nil_right, List.filterMap_cons, List.filterMap_nil]
  split <;> rename_i hr
  · split at hr <;> simp_all
  · split at hr <;> simp_all

theorem Tally.snoc {done : List ProcedureStep} {p q : Progress} {step : ProcedureStep}
    {r : StepResult} (h : Tally done p)
    (hr : EntryOf step r) (hre : q.stepResults = p.stepResults ++ [r])
    (hc : q.functionsCalled = p.functionsCalled ++ if r.status = "success" then (stepTool step).toList else []) :
    Tally (done ++ [step]) q := by
  refine ⟨?_, ?_⟩
  · rw [hre]
    exact List.rel_append h.entries (.cons hr .nil)
  · rw [hc, hre, h.called, successfulTools_append h.entries.length_eq]

def Ends (executionId : ℕ) (steps : List ProcedureStep) (m : Api Orchestration) : Prop :=
  ∀ w w' row r, executionRow executionId w = some row → m w = (.ok r, w') → Ended executionId steps r w'

section Runs

variable {env : AgentEnv} {ctx : ToolContext} {eid : ℕ} {ss : List ProcedureStep}

namespace Ends

variable {α : Type} {m : Api α} {k : α → Api Orchestration} {f : ProcedureExecution → ProcedureExecution}
  {hf : ∀ e, (f e).id = e.id} {rs : List StepResult}

theorem bind_of_keeps (hm : KeepsExecutions m) (hk : ∀ a, Ends eid ss (k a)) :
    Ends eid ss (m >>= k) := by
  intro w w' row r hr h
  obtain ⟨a, w₁, hru, h⟩ := Session.bind_eq_ok.mp h
  have hke : (m w).2.db.procedureExecutions = w.db.procedureExecutions := hm w
  rw [hru] at hke
  refine hk a w₁ w' row r ?_ h
  exact (congrArg (fun t => Table.get? t eid) hke).trans hr

theorem row_of_store {w w' : World} {u : Unit} (h : storeExecution env eid rs f hf w = (.ok u, w')) :
    executionRow eid w' = (executionRow eid w).map fun e => { f e with stepResults := rs } := by
  obtain ⟨⟨⟩, w₁, hfe, hw⟩ := Session.bind_eq_ok.mp h
  obtain ⟨-, rfl⟩ := Prod.mk.inj hfe
  obtain ⟨-, rfl⟩ := Prod.mk.inj hw
  have hid : ∀ e, Row.id { f e with stepResults := rs } = Row.id e := hf
  exact @Table.get?_update _ _ _ _ _ hid

theorem row_of_update {w w' : World} {u : Unit} (h : updateExecution env eid rs f hf w = (.ok u, w')) :
    executionRow eid w' = (executionRow eid w).map fun e => { f e with stepResults := rs } := by
  obtain ⟨e, w₁, hfe, hs⟩ := Session.bind_eq_ok.mp h
  obtain ⟨-, rfl⟩ := Prod.mk.inj hfe
  exact row_of_store hs

theorem bind_update {k : Unit → Api Orchestration} (hk : Ends eid ss (k ())) :
    Ends eid ss (updateExecution env eid rs f hf >>= k) := by
  intro w w' row r hr h
  obtain ⟨⟨⟩, w₁, hu, h⟩ := Session.bind_eq_ok.mp h
  have hr₁ := row_of_update hu
  rw [hr] at hr₁
  exact hk w₁ w' _ r hr₁ h

theorem of_failed_store {r : Orchestration} (hr : r.success = false) (hfa : ∀ e, (f e).status = .failed) :
    Ends eid ss (storeExecution env eid rs f hf >>= fun _ => pure r) := by
  intro w w' row r' hro h
  obtain ⟨⟨⟩, w₁, hu, h⟩ := Session.bind_eq_ok.mp h
  cases h
  have hr₁ := row_of_store hu
  rw [hro] at hr₁
  exact ended_failed hr₁ hr (hfa row)

theorem of_failed {r : Orchestration} (hr : r.success = false) (hfa : ∀ e, (f e).status = .failed) :
    Ends eid ss (updateExecution env eid rs f hf >>= fun _ => pure r) := by
  intro w w' row r' hro h
  obtain ⟨⟨⟩, w₁, hu, h⟩ := Session.bind_eq_ok.mp h
  cases h
  have hr₁ := row_of_update hu
  rw [hro] at hr₁
  exact ended_failed hr₁ hr (hfa row)

end Ends

theorem keepsExecutions_postOrchestration (ag : Agent) (trig : String) (r : Orchestration) (out : RunStatus) :
    KeepsExecutions (postOrchestration env ag trig r out) := by
  rw [postOrchestration_eq]
  unfold recordRun
  split
  · exact .write fun _ => rfl
  · exact .pure ()

theorem ends_completed {p : Progress} {r : Orchestration} {total : ℕ} (ht : Tally ss p) (hr : r.success = true)
    (hc : r.functionsCalled = p.functionsCalled) :
    Ends eid ss (do
      updateExecution env eid p.stepResults fun e =>
        { e with status := .completed, currentStep := total, completedAt := some env.now }
      postOrchestration env ctx.agent ctx.triggerType r
      pure r) := by
  intro w w' row r' hro h
  obtain ⟨⟨⟩, w₁, hu, h⟩ := Session.bind_eq_ok.mp h
  obtain ⟨⟨⟩, w₂, hp, h⟩ := Session.bind_eq_ok.mp h
  cases h
  have hr₁ := Ends.row_of_update hu
  rw [hro] at hr₁
  have hk : ((postOrchestration env ctx.agent ctx.triggerType r : Api Unit) w₁).2.db.procedureExecutions =
      w₁.db.procedureExecutions := keepsExecutions_postOrchestration _ _ _ _ w₁
  rw [hp] at hk
  have hr₂ := (congrArg (fun t => Table.get? t eid) hk).trans hr₁
  refine ⟨_, hr₂, fun _ => ⟨rfl, ht.entries, hc.trans ht.called⟩, fun hfa => ?_⟩
  rw [hr] at hfa
  cases hfa

theorem Tally.attempted {done : List ProcedureStep} {p q : Progress} {step : ProcedureStep} {tool : String}
    {run : StepRun} (h : Tally done p) (ht : stepTool step = some tool)
    (hp : run.result = none → step.failurePolicy ≠ .required) (hq : p.attempted step tool run = .ok q) :
    Tally (done ++ [step]) q := by
  obtain ⟨attempts, _ | output, iterations⟩ := run
  · have hst : (if step.failurePolicy = .skip then "skipped" else "failed") ≠ "success" := by
      split <;> decide
    cases hq
    refine h.snoc ⟨rfl, rfl, fun hs => absurd hs hst, fun hs => absurd hs (hp rfl)⟩ rfl ?_
    rw [StepRun.entry, if_neg hst, List.append_nil]
    rfl
  · rw [Progress.attempted, Progress.afterStep] at hq
    rcases hm : mappedOutput step output with e | mapped <;> rw [hm] at hq <;> cases hq
    refine h.snoc ⟨rfl, rfl, fun _ => ⟨?_, ?_⟩, fun _ => rfl⟩ rfl ?_
    · rw [ht]
      rfl
    · rw [ht]
      rfl
    · simp [StepRun.entry, Progress.remember, ht]

theorem Tally.unmapped {done : List ProcedureStep} {p : Progress} {step : ProcedureStep} {errors : List String}
    (h : Tally done p) (hp : step.failurePolicy ≠ .required) : Tally (done ++ [step]) (p.unmapped step errors) := by
  have hst : "failed" ≠ "success" := by decide
  refine h.snoc ⟨rfl, rfl, fun hs => absurd hs hst, fun hs => absurd hs hp⟩ rfl ?_
  rw [if_neg hst, List.append_nil]
  rfl

theorem ends_runSteps {proc : String} {total : ℕ} {done ss : List ProcedureStep} {p : Progress}
    (ht : Tally done p) : Ends eid (done ++ ss) (runSteps env ctx proc eid total ss p) := by
  induction ss generalizing done p with
  | nil =>
    rw [List.append_nil]
    exact ends_completed ht rfl rfl
  | cons step ss ih =>
    rw [List.append_cons]
    unfold runSteps
    rcases hs : splitOnce "." step.functionRef with _ | ⟨svc, fn⟩
    · intro w w' row r _ h
      cases h
    have hto : stepTool step = some (svc ++ "__" ++ fn) := by
      unfold stepTool
      rw [hs]
      rfl
    dsimp only
    split
    · intro w w' row r _ h
      cases h
    · -- the inputs of the step could not be resolved
      split
      · exact .of_failed_store rfl fun _ => rfl
      · exact ih (ht.unmapped ‹_›)
    · refine .bind_of_keeps (keepsExecutions_runAttempts _ _ _ _) fun run => ?_
      split
      · exact .of_failed rfl fun _ => rfl
      · rename_i hp
        intro w w' row r hr h
        obtain ⟨q, hq, h⟩ := fetch_bind_eq_ok.mp h
        exact Ends.bind_update (ih (ht.attempted hto (fun hn hr => hp hn hr) hq)) w w' row r hr h

/-- What a procedure returns and what is stored about it agree: when it succeeds, the row of its
execution is completed and accounts for every step; when it fails after the row was
created, the row says so. -/
def ProcedureSound (env : AgentEnv) (ctx : ToolContext) (procedure service : String) (inputContext : Option Json)
    (w : World) : Prop :=
  ∀ r w', runProcedureOrchestration env ctx procedure service inputContext w = (.ok r, w') →
    (r.success = true → ∃ p v e, getProcedure w.db ctx.agent.namespaceId service procedure = .ok p ∧
      activeProcedureVersion w.db p = some v ∧ executionRow w.db.procedureExecutions.freshId w' = some e ∧
        Finished v.steps r e) ∧
    (r.success = false → given ctx.agent.aiEngine = true → ctx.agent.aiApiKey.isSome = true →
      ∀ p v, getProcedure w.db ctx.agent.namespaceId service procedure = .ok p →
        activeProcedureVersion w.db p = some v →
        ∃ e, executionRow w.db.procedureExecutions.freshId w' = some e ∧ e.status = .failed)

theorem procedure_sound (env : AgentEnv) (ctx : ToolContext) (procedure service : String) (inputContext : Option Json)
    (w : World) : ProcedureSound env ctx procedure service inputContext w := by
  intro r w' h
  unfold runProcedureOrchestration at h
  dsimp only at h
  split at h
  · -- no AI engine
    rename_i he
    cases h
    constructor
    · intro hr
      cases hr
    · intro _ hg hk
      simp only [hg, Bool.not_true, Bool.false_or, Option.isNone_iff_eq_none] at he
      rw [he] at hk
      cases hk
  rw [query_bind_apply] at h
  rcases hp : getProcedure w.db ctx.agent.namespaceId service procedure with e | p
  · rw [hp] at h
    cases h
    constructor
    · intro hr
      cases hr
    · intro _ _ _ p v hp'
      cases hp'
  rw [hp] at h
  dsimp only at h
  rw [query_bind_apply] at h
  rcases hv : activeProcedureVersion w.db p with _ | v
  · rw [hv] at h
    cases h
    constructor
    · intro hr
      cases hr
    · intro _ _ _ p' v hp' hv'
      cases hp'
      rw [hv] at hv'
      cases hv'
  rw [hv] at h
  dsimp only at h
  rw [query_bind_apply] at h
  obtain ⟨-, -, h⟩ := fetch_bind_eq_ok.mp h
  rw [write_bind_apply, query_bind_apply, query_bind_apply] at h
  have hd : ∀ context : Args, Tally [] { context } := fun _ => ⟨.nil, rfl⟩
  obtain ⟨e, hro, hfi, hfa⟩ := ends_runSteps (hd _) _ w' _ r (by exact Table.get?_insert) h
  exact ⟨fun hr => ⟨p, v, e, rfl, hv, hro, hfi hr⟩, fun hr _ _ _ _ _ _ => ⟨e, hro, hfa hr⟩⟩

end Runs

section Instances

/-- The agent whose procedure `newsletter` sends a mail, and which may not send an SMS. -/
def newsletterAgent : Agent :=
  { mailAgent "sms" with aiEngine := some "anthropic", aiApiKey := some "key" }

def newsletterDb : Db :=
  { mailDb "sms" with
    procedures := .single { id := 8, namespaceId := 1, serviceId := 3, name := "newsletter" }
    procedureVersions := .single
      { id := 9, procedureId := 8, steps := [{ stepNumber := 1, name := "send", functionRef := "mail.send" }] } }

def callingModel (tool : String) : ℕ → Except ApiError AiResponse := fun _ =>
  .ok { content := [.toolUse tool []], stopReason := "tool_use" }

def newsletterContext : ToolContext := { agent := newsletterAgent, accountId := 2, tier := "pro-agent" }

example :
    let out := runProcedureOrchestration { plainAgentEnv with ai := callingModel "mail__send" } newsletterContext
      "newsletter" "mail" none { db := newsletterDb }
    out.1.toOption.map (·.success) = some true ∧ (executionRow 1 out.2).map (·.status) = some .completed := by
  decide +kernel

end Instances

end McpworksApi.Agents
