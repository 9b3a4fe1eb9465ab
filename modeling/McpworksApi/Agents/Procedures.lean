import McpworksApi.Agents.Tools
import McpworksApi.Services.JsonPath

/-! Tool calls of an orchestration (`tasks/orchestrator.py`), and the procedures they can start.
A procedure asks the model, step by step, for a call of the step's function, and hands the
call to the same dispatcher as any other; a step is tried again while it fails, and a
required step that keeps failing ends the procedure. -/

namespace McpworksApi.Agents

open Models Py Run Services Services.Functions Access Session

/-- What the dispatcher of a run is given besides the call. -/
structure ToolContext where
  agent : Agent
  accountId : ℕ
  tier : String
  pool : Bool := false
  agentState : List (String × Json) := []
  triggerType : String := "manual"
  availableTools : List String := []
  procedureCovered : List (String × String) := []
  agentRunId : Option String := none

def unknownTool (name : String) (available : List String) : ToolReply :=
  .error ("Unknown tool: '" ++ name ++ "'. Tool names use the format 'service_name__function_name' (double " ++
    "underscore). Available tools: " ++ if available = [] then "none" else formatAvailableTools available)

def coveredReply (name label : String) : Api ToolReply :=
  match splitOnce " / " label with
  | none => raise (valueError "not enough values to unpack (expected 2, got 1)")
  | some (service, procedure) =>
    pure (.error ("Direct call to '" ++ name ++ "' is blocked — this function is covered by procedure '" ++ label ++
      "'. You MUST use run_procedure(service='" ++ service ++ "', name='" ++ procedure ++ "') instead."))

def dispatchNamespaceTool (env : AgentEnv) (ctx : ToolContext) (name : String) (input : Args) : Api ToolReply :=
  match parseToolName name with
  | none => pure (unknownTool name ctx.availableTools)
  | some (service, function) =>
    match ctx.procedureCovered.find? (·.1 = name) with
    | some (_, label) => coveredReply name label
    | none => executeNamespaceFunction env ctx.agent service function input ctx.agentState ctx.agentRunId

def poolServer (env : AgentEnv) (agent : Agent) (name : String) : Option String :=
  (((env.pool agent).getD []).reverse.find? (mcpToolName · = name)).map Prod.fst

def errorText (message : String) : ToolReply := .text ("\x7b\"error\": \"" ++ message ++ "\"\x7d")

def callPoolTool (env : AgentEnv) (agent : Agent) (name : String) (input : Args) : Api ToolReply :=
  match poolServer env agent name with
  | none => pure (errorText ("Unknown MCP tool: " ++ name))
  | some server =>
    if server = "" then pure (errorText ("Unknown MCP tool: " ++ name))
    else
      match splitOnce "__" (String.ofList (name.toList.drop 5)) with
      | none => pure (errorText ("Invalid MCP tool name format: " ++ name))
      | some (_, tool) => do
        write (·.request (.mcp server tool))
        match env.callMcp server tool input with
        | .ok output => pure (.text (clip 4000 output))
        | .error message => pure (errorText ("MCP tool call failed: " ++ clip 300 message))

def dispatchMcpTool (env : AgentEnv) (ctx : ToolContext) (name : String) (input : Args) : Api ToolReply :=
  if ctx.pool then callPoolTool env ctx.agent name input
  else pure (.error "MCP server pool not available")

def dispatchAgentApiTool (env : AgentEnv) (agent : Agent) (name : String) (input : Args) : Api ToolReply :=
  match parseApiToolName name with
  | none => pure (.error ("invalid API tool name: " ++ name))
  | some (server, operation) => do
    let ns ← query fun w => w.db.namespaces.get? agent.namespaceId
    let outcome ← proxyApiCall env.gateway agent.namespaceId [] 0 server operation input
    pure (.text (formatOutcome env.dumps env.gateway ns outcome))

def executePlatformTool (env : AgentEnv) (ctx : ToolContext) (name : String) (input : Args) : Api ToolReply :=
  handle
    (do
      recordPlatform name
      match name with
      | "send_to_channel" => sendToChannelTool env ctx.agent input
      | "get_state" => getStateTool ctx.accountId ctx.agent.name input
      | "set_state" => setStateTool env ctx.accountId ctx.agent.name ctx.tier input
      | "list_state_keys" => listStateKeysTool ctx.accountId ctx.agent.name ctx.tier
      | "search_state" => searchState env input ctx.agentState
      | _ => pure (.error ("Unknown platform tool: " ++ name)))
    fun e => pure (.error (clip 500 e.text))

def effectiveToolTier (agent : Agent) (triggerType : String) : ToolTier :=
  if triggerType = "cron" ∨ triggerType = "webhook" then agent.scheduledToolTier else agent.toolTier

def toolTierName : ToolTier → String
  | .executeOnly => "execute_only"
  | .standard => "standard"
  | .builder => "builder"
  | .admin => "admin"

def notAuthorized (ctx : ToolContext) (name : String) : ToolReply :=
  .error ("Agent '" ++ ctx.agent.name ++ "' (tier: " ++ toolTierName (effectiveToolTier ctx.agent ctx.triggerType) ++
    ") is not authorized to call '" ++ name ++ "' in " ++ ctx.triggerType ++ " context")

def dispatchPlainTool (env : AgentEnv) (ctx : ToolContext) (name : String) (input : Args) : Api ToolReply :=
  if isToolAllowed (effectiveToolTier ctx.agent ctx.triggerType) name then
    if name ∈ platformToolNames then executePlatformTool env ctx name input
    else if isMcpTool name then dispatchMcpTool env ctx name input
    else if startsWith name "api__" then dispatchAgentApiTool env ctx.agent name input
    else dispatchNamespaceTool env ctx name input
  else pure (notAuthorized ctx name)

theorem not_platform_of_allowed {tier : ToolTier} {name : String} (h : Access.isToolAllowed tier name = true) :
    name ∉ platformToolNames := by
  have hr : ∀ t ∈ platformToolNames, ∀ tier, Access.isToolAllowed tier t = false := by
    intro t ht tier
    fin_cases ht <;> cases tier <;> decide
  intro hn
  rw [hr name hn tier] at h
  cases h

def getProcedure (db : Db) (namespaceId : ℕ) (service name : String) : Except ApiError Procedure := do
  match ← scalarOneOrNone (db.services.select fun s => s.namespaceId = namespaceId ∧ s.name.val = service) with
  | none => .error (notFound ("Service '" ++ service ++ "' not found"))
  | some s =>
    match ← scalarOneOrNone (db.procedures.select fun p => p.serviceId = s.id ∧ p.name = name ∧
      p.isDeleted = false) with
    | none => .error (notFound ("Procedure '" ++ name ++ "' not found in service '" ++ service ++ "'"))
    | some p => .ok p

def activeProcedureVersion (db : Db) (p : Procedure) : Option ProcedureVersion :=
  (db.procedureVersions.select (·.procedureId = p.id)).find? (·.version = p.activeVersion)

def maxExecutionSeconds (tier : String) (agent : Agent) : ℤ :=
  agent.orchestrationLimits.maxExecutionSeconds.getD
    (if tier = "enterprise-agent" ∨ tier = "dedicated-agent" then 300 else 120)

structure StepRun where
  attempts : List AttemptRecord := []
  result : Option Json := none
  iterations : ℕ := 0

def StepRun.record (r : StepRun) (a : AttemptRecord) : StepRun := { r with attempts := r.attempts ++ [a] }

def missingFields (step : ProcedureStep) : Json → List String
  | .obj fields => step.requiredFields.filter (· ∉ fields.map Prod.fst)
  | _ => []

def tryBlocks (env : AgentEnv) (ctx : ToolContext) (step : ProcedureStep) (tool : String) :
    List Block → AttemptRecord → Api (AttemptRecord × Option Json)
  | [], a => pure (a, none)
  | .text _ :: blocks, a => tryBlocks env ctx step tool blocks a
  | .unreadable e :: _, _ => raise e
  | .toolUse name input _ :: blocks, a =>
    if name ≠ tool then
      tryBlocks env ctx step tool blocks
        { a with error := some ("Called '" ++ name ++ "' instead of required '" ++ tool ++ "'") }
    else do
      -- a step's tool has a double underscore in its name, so it is never `run_procedure`
      let reply ← dispatchPlainTool env ctx name input
      let text := reply.render env
      let a := { a with toolInput := some input }
      if looksFailed text then tryBlocks env ctx step tool blocks { a with error := some (clip 500 text) }
      else
        let data := (← fetch fun _ => env.loads text).getD (.str text)
        match missingFields step data with
        | [] => pure ({ a with success := true }, some data)
        | missing =>
          tryBlocks env ctx step tool blocks
            { a with error := some ("Validation failed: missing fields " ++ reprList missing) }

def runAttempts (env : AgentEnv) (ctx : ToolContext) (step : ProcedureStep) (tool : String) : ℕ →
    StepRun → Api StepRun
  | 0, r => pure r
  | n + 1, r => do
    let asked ← query (·.asked)
    let a : AttemptRecord := { attempt := r.attempts.length + 1 }
    if maxExecutionSeconds ctx.tier ctx.agent ≤ env.elapsed asked then
      pure (r.record { a with error := some "Execution time limit exceeded" })
    else
      match ← ask env with
      | .error (.py .aiClientError message) =>
        runAttempts env ctx step tool n (r.record { a with error := some (clip 500 message) })
      | .error e => raise e
      | .ok response =>
        let r := { r with iterations := r.iterations + 1 }
        if response.stopReason ≠ "tool_use" then
          runAttempts env ctx step tool n
            (r.record { a with error := some "LLM responded with text instead of calling the required function" })
        else
          match ← tryBlocks env ctx step tool response.content a with
          | (a, none) => runAttempts env ctx step tool n (r.record a)
          | (a, some data) => pure { r.record a with result := some data }

structure Progress where
  context : Args := []
  stepResults : List StepResult := []
  functionsCalled : List String := []
  iterations : ℕ := 0

def storeExecution (env : AgentEnv) (executionId : ℕ) (results : List StepResult)
    (f : ProcedureExecution → ProcedureExecution)
      (hf : ∀ e, (f e).id = e.id := by intro; exact id rfl) : Api Unit := do
  fetch fun _ =>
    if env.storableSteps results then .ok ()
    else .error (.py .dataError "unsupported Unicode escape sequence")
  write fun w => { w with db := { w.db with
    procedureExecutions := w.db.procedureExecutions.update executionId
      (fun e => { f e with stepResults := results }) hf } }

def updateExecution (env : AgentEnv) (executionId : ℕ) (results : List StepResult)
    (f : ProcedureExecution → ProcedureExecution)
      (hf : ∀ e, (f e).id = e.id := by intro; exact id rfl) : Api Unit := do
  let _ ← fetch fun w => scalarOne (w.db.procedureExecutions.select (·.id = executionId))
  storeExecution env executionId results f hf

/-- What `int` raises; the mappings catch `JSONPathError` only. -/
def indexTooLong : ApiError := valueError "Exceeds the limit (4300 digits) for integer string conversion"

def mappingErrors (step : ProcedureStep) (context : Args) : Except ApiError (List String) :=
  match JsonPath.resolveInputMapping (step.inputMapping.getD []) context with
  | .ok (_, errors) => .ok errors
  | .error _ => .error indexTooLong

def mappedOutput (step : ProcedureStep) (output : Json) : Except ApiError Json :=
  match JsonPath.applyOutputMapping (step.outputMapping.getD []) output with
  | .ok ([], _) => .ok output
  | .ok (extracted, _) => .ok (.obj extracted)
  | .error _ => .error indexTooLong

def Progress.remember (p : Progress) (step : ProcedureStep) (status : String) (result : Json) : Progress :=
  let entry : Json := .obj [("name", .str step.name), ("status", .str status), ("result", result)]
  { p with context := p.context.set ("step_" ++ toString step.stepNumber) entry }

def Progress.afterStep (p : Progress) (step : ProcedureStep) (tool : String) :
    Option Json → Except ApiError (String × Progress)
  | some output => do
    let p := p.remember step "success" (← mappedOutput step output)
    .ok ("success", { p with functionsCalled := p.functionsCalled ++ [tool] })
  | none =>
    let status := if step.failurePolicy = .skip then "skipped" else "failed"
    .ok (status, p.remember step status .null)

def unmappedMessage (errors : List String) : String := "Input mapping failed: " ++ "; ".intercalate errors

/-- After a step whose inputs could not be resolved. -/
def Progress.unmapped (p : Progress) (step : ProcedureStep) (errors : List String) : Progress :=
  { p with stepResults := p.stepResults ++
    [{ stepNumber := step.stepNumber, name := step.name, status := "failed",
       error := some (unmappedMessage errors) }] }

def StepRun.entry (run : StepRun) (step : ProcedureStep) (tool status : String) : StepResult :=
  { stepNumber := step.stepNumber, name := step.name, status, functionCalled := run.result.map fun _ => tool,
    result := run.result.getD .null, attemptCount := run.attempts.length, attempts := run.attempts }

/-- After a step that was attempted, if the procedure goes on. -/
def Progress.attempted (p : Progress) (step : ProcedureStep) (tool : String) (run : StepRun) :
    Except ApiError Progress := do
  let q ← { p with iterations := p.iterations + run.iterations }.afterStep step tool run.result
  .ok { q.2 with stepResults := q.2.stepResults ++ [run.entry step tool q.1] }

def Progress.failed (p : Progress) (text error : String) : Orchestration :=
  { success := false, finalText := some text, functionsCalled := p.functionsCalled, iterations := p.iterations,
    error := some error }

def failedAt (step : ProcedureStep) : String :=
  "Procedure failed at step " ++ toString step.stepNumber ++ " (" ++ step.name ++ ")"

def calledText (r : Orchestration) : String := ", ".intercalate (r.functionsCalled.take 10)

def recordableCall (env : RunEnv) (c : ToolCall) : Bool :=
  c.toolName.length ≤ 255 && env.storable c.toolName && env.storableJson c.toolInput && env.storable c.resultPreview

/-- The database takes the row of the run and those of its tool calls, which are written in one transaction. -/
def recordable (env : RunEnv) (r : Orchestration) : Bool :=
  (calledText r).length ≤ 255 && env.storable (calledText r) && r.error.all (env.storable <| clip 1000 ·) &&
    r.finalText.all (env.storable <| clip 1000 ·) && r.toolCalls.all (recordableCall env)

/-- `_record_run`: what the database refuses is logged and dropped. -/
def recordRun (env : AgentEnv) (agent : Agent) (triggerType : String) (r : Orchestration) (outcome : RunStatus) :
    Api Unit :=
  if recordable env.run r then
    write fun w => { w with db := { w.db with
      agentRuns := w.db.agentRuns.insert fun i =>
        { id := i, agentId := agent.id, triggerType := "ai", triggerDetail := some ("orchestration:" ++ triggerType),
          functionName := if r.functionsCalled = [] then none else some (calledText r),
          status := outcome, error := r.error.map (clip 1000),
          resultSummary := r.finalText.map (clip 1000) } } }
  else pure ()

def postOrchestration (env : AgentEnv) (agent : Agent) (triggerType : String) (r : Orchestration)
    (outcome : RunStatus := if r.success then .completed else .failed) : Api Unit := do
  if given agent.autoChannel ∧ given r.finalText then
    let _ ← query fun _ =>
      env.sendToChannel agent (.str (agent.autoChannel.getD "")) (.str (r.finalText.getD ""))
  recordRun env agent triggerType r outcome

theorem postOrchestration_eq (env : AgentEnv) (ag : Agent) (trig : String) (r : Orchestration) (out : RunStatus) :
    postOrchestration env ag trig r out = recordRun env ag trig r out := by
  unfold postOrchestration
  dsimp only
  split <;> rfl

def runSteps (env : AgentEnv) (ctx : ToolContext) (procedure : String) (executionId total : ℕ) :
    List ProcedureStep → Progress → Api Orchestration
  | [], p => do
    updateExecution env executionId p.stepResults fun e =>
      { e with status := .completed, currentStep := total, completedAt := some env.now }
    let r : Orchestration :=
      { success := true, functionsCalled := p.functionsCalled, iterations := p.iterations,
        finalText := some ("Procedure '" ++ procedure ++ "' completed successfully (" ++
          toString total ++ " steps)") }
    postOrchestration env ctx.agent ctx.triggerType r
    pure r
  | step :: steps, p =>
    match splitOnce "." step.functionRef with
    | none => raise (valueError "not enough values to unpack (expected 2, got 1)")
    | some (service, function) => do
      let tool := service ++ "__" ++ function
      match mappingErrors step p.context with
      | .error e => raise e
      | .ok (e :: errors) =>
        let p := p.unmapped step (e :: errors)
        if step.failurePolicy = .required then
          storeExecution env executionId p.stepResults fun e =>
            { e with status := .failed, completedAt := some env.now }
          pure (p.failed (failedAt step ++ ": input mapping error") (unmappedMessage (e :: errors)))
        else runSteps env ctx procedure executionId total steps p
      | .ok [] =>
        let run ← runAttempts env ctx step tool (step.maxRetries + 1) {}
        -- the outcome of the step, and whether the procedure goes on
        match run.result, step.failurePolicy with
        | none, .required =>
          let p := { p with
            iterations := p.iterations + run.iterations
            stepResults := p.stepResults ++ [run.entry step tool "failed"] }
          updateExecution env executionId p.stepResults fun e =>
            { e with
              status := .failed, currentStep := step.stepNumber, completedAt := some env.now
              error := some ("Required step " ++ toString step.stepNumber ++ " (" ++ step.name ++ ") failed after " ++
                toString run.attempts.length ++ " attempts") }
          pure (p.failed (failedAt step)
            ("Required step " ++ toString step.stepNumber ++ " (" ++ step.name ++ ") failed"))
        | _, _ =>
          let p ← fetch fun _ => p.attempted step tool run
          updateExecution env executionId p.stepResults fun e => { e with currentStep := step.stepNumber }
          runSteps env ctx procedure executionId total steps p

def createExecution (ctx : ToolContext) (p : Procedure) (inputContext : Option Json) (t : Table ProcedureExecution) :
    Table ProcedureExecution :=
  t.insert fun i =>
    { id := i, procedureId := p.id, procedureVersion := p.activeVersion, agentId := some ctx.agent.id,
      triggerType := ctx.triggerType, inputContext }

/-- The database takes the input context, which goes into a `JSONB` column. -/
def storableInput (env : AgentEnv) (inputContext : Option Json) : Bool :=
  inputContext.all fun c => env.run.storableJson (env.dumps c)

def runProcedureOrchestration (env : AgentEnv) (ctx : ToolContext) (procedure service : String)
    (inputContext : Option Json) : Api Orchestration := do
  let agent := ctx.agent
  if !given agent.aiEngine || agent.aiApiKey.isNone then
    pure { success := false, error := some "Agent has no AI engine configured" }
  else
    match ← query fun w => getProcedure w.db agent.namespaceId service procedure with
    | .error e => pure { success := false, error := some e.text }
    | .ok p =>
      match ← query fun w => activeProcedureVersion w.db p with
      | none => pure { success := false, error := some ("No active version for procedure '" ++ procedure ++ "'") }
      | some v =>
        let executionId ← query fun w => w.db.procedureExecutions.freshId
        fetch fun _ =>
          if storableInput env inputContext then .ok ()
          else .error (.py .dataError "unsupported Unicode escape sequence")
        write fun w => { w with db := { w.db with
          procedureExecutions := createExecution ctx p inputContext w.db.procedureExecutions } }
        let tools ← query fun w => buildToolDefinitions w.db agent.namespaceId false true
        let state ← query fun w => getAllState w.db agent.id
        -- inside a procedure no function counts as covered, and there are no MCP servers
        let ctx : ToolContext :=
          { agent, accountId := ctx.accountId, tier := ctx.tier, agentState := state,
            triggerType := ctx.triggerType, availableTools := tools }
        let context : Args := match inputContext with
          | some c => if c.truthy then [("input", c)] else []
          | none => []
        runSteps env ctx procedure executionId v.steps.length v.steps { context }

def runProcedureTool (env : AgentEnv) (ctx : ToolContext) (tier : Except ApiError String) (input : Args) :
    Api ToolReply := do
  let service := (input.get? "service").getD (.str "")
  let procedure := (input.get? "name").getD (.str "")
  recordPlatform "run_procedure"
  if !service.truthy || !procedure.truthy then pure (.error "run_procedure requires 'service' and 'name'")
  else
    match service, procedure with
    | .str service, .str procedure =>
      handle
        (do
          let tier ← fetch fun _ => tier
          let r ← runProcedureOrchestration env { ctx with tier } procedure service (input.get? "input_context")
          pure (.procedure r.success r.functionsCalled.length (clip 500 (r.finalText.getD ""))))
        fun e => pure (.error ("Procedure failed: " ++ clip 300 e.text))
    -- a name that is not text fails in the query, which counts as a failed procedure
    | _, _ => pure (.procedure false 0 "")

def dispatchTool (env : AgentEnv) (ctx : ToolContext) (name : String) (input : Args) : Api ToolReply :=
  if name = "run_procedure" then
    if isToolAllowed (effectiveToolTier ctx.agent ctx.triggerType) name then
      runProcedureTool env ctx (.ok ctx.tier) input
    else pure (notAuthorized ctx name)
  else dispatchPlainTool env ctx name input

/-! ### What calls preserve

Whatever the functions of the namespace preserve is preserved by the calls that lead to them, and by
the attempts at a step. -/

section Preserve

open Session

variable {env : AgentEnv} {ctx : ToolContext} {I : World → Prop} {Q : ToolReply → Prop} {name : String} {input : Args}

theorem executeNamespaceFunction_maintains (hr : ∀ w c, I w → I (w.record c))
    (hc : ∀ w nid svc fn, I w →
      I { w with db := incrementOrchestrationCallCount nid svc fn w.db })
    (agt : Agent) (svc fn : String) (st : List (String × Json)) (rid : Option String) :
    Maintains I (executeNamespaceFunction env agt svc fn input st rid) fun _ => True := by
  apply Maintains.query_bind
  intro w _
  rcases getForExecution w.db agt.namespaceId svc fn with e | ⟨f, v⟩
  · exact .pure trivial
  dsimp only
  split
  · have hca : Maintains I (executeFunction env.run.sandbox .python f v (.obj input) []
        (some (stateContext st ++ if given rid then [("agent_run_id", .str (rid.getD ""))] else []))) fun _ => True :=
      .write_bind (fun w => hr w _) (.pure trivial)
    apply Maintains.bind hca
    intro r _
    split
    · apply Maintains.write_bind (fun w => hc w _ _ _)
      split <;> exact .pure trivial
    · exact .pure trivial
  · exact .pure trivial

theorem dispatchNamespaceTool_maintains (he : ∀ m, Q (.error m))
    (hr : ∀ svc fn, parseToolName name = some (svc, fn) →
      Maintains I (executeNamespaceFunction env ctx.agent svc fn input ctx.agentState ctx.agentRunId) Q) :
    Maintains I (dispatchNamespaceTool env ctx name input) Q := by
  unfold dispatchNamespaceTool
  rcases hp : parseToolName name with _ | ⟨svc, fn⟩
  · exact .pure (he _)
  dsimp only
  split
  · unfold coveredReply
    split
    · exact .raise
    · exact .pure (he _)
  · exact hr svc fn hp

theorem callPoolTool_maintains (agt : Agent) (hr : ∀ w r, I w → I (w.request r)) (ht : ∀ s, Q (.text s)) :
    Maintains I (callPoolTool env agt name input) Q := by
  unfold callPoolTool
  split
  · exact .pure (ht _)
  split
  · exact .pure (ht _)
  split
  · exact .pure (ht _)
  refine .write_bind (fun w => hr w _) ?_
  split <;> exact .pure (ht _)

theorem dispatchMcpTool_maintains (hr : ∀ w r, I w → I (w.request r)) (he : ∀ m, Q (.error m))
    (ht : ∀ s, Q (.text s)) : Maintains I (dispatchMcpTool env ctx name input) Q := by
  unfold dispatchMcpTool
  split
  · exact callPoolTool_maintains ctx.agent hr ht
  · exact .pure (he _)

theorem dispatchAgentApiTool_maintains (agt : Agent) (hr : ∀ w r, I w → I (w.request r))
    (he : ∀ m, Q (.error m)) (ht : ∀ s, Q (.text s)) :
    Maintains I (dispatchAgentApiTool env agt name input) Q := by
  unfold dispatchAgentApiTool
  split
  · exact .pure (he _)
  · exact .query_bind fun _ _ => .bind (proxyApiCall_maintains hr) fun _ _ => .pure (ht _)

theorem dispatchPlainTool_maintains (hr : ∀ w r, I w → I (w.request r)) (he : ∀ m, Q (.error m))
    (ht : ∀ s, Q (.text s))
    (hru : ∀ svc fn, parseToolName name = some (svc, fn) →
      Maintains I (executeNamespaceFunction env ctx.agent svc fn input ctx.agentState ctx.agentRunId) Q) :
    Maintains I (dispatchPlainTool env ctx name input) Q := by
  unfold dispatchPlainTool
  split
  · rename_i ha
    rw [if_neg (not_platform_of_allowed ha)]
    split
    · exact dispatchMcpTool_maintains hr he ht
    split
    · exact dispatchAgentApiTool_maintains _ hr he ht
    · exact dispatchNamespaceTool_maintains he hru
  · exact .pure (he _)

theorem tryBlocks_maintains {step : ProcedureStep} {tool : String}
    (hc : ∀ input, Maintains I (dispatchPlainTool env ctx tool input) fun _ => True) (bs : List Block)
    (a : AttemptRecord) : Maintains I (tryBlocks env ctx step tool bs a) fun _ => True := by
  induction bs generalizing a with
  | nil => exact .pure trivial
  | cons blk bs ih =>
    cases blk with
    | text cont => exact ih a
    | unreadable e => exact .raise
    | toolUse name input id =>
      unfold tryBlocks
      split
      · exact ih _
      · rename_i hn
        obtain rfl := not_not.mp hn
        refine .bind (hc input) fun reply _ => ?_
        dsimp only
        split
        · exact ih _
        · refine .fetch_bind fun _ _ _ _ => ?_
          split
          · exact .pure trivial
          · exact ih _

theorem runAttempts_maintains {step : ProcedureStep} {tool : String} (ha : ∀ w n, I w → I { w with asked := n })
    (hc : ∀ input, Maintains I (dispatchPlainTool env ctx tool input) fun _ => True) (n : ℕ) (r : StepRun) :
    Maintains I (runAttempts env ctx step tool n r) fun _ => True := by
  have han : Maintains I (ask env) fun _ => True :=
    .query_bind fun _ _ => .write_bind (fun w => ha w _) (.pure trivial)
  induction n generalizing r with
  | zero => exact .pure trivial
  | succ n ih =>
    refine .query_bind fun w _ => ?_
    dsimp only
    split
    · exact .pure trivial
    refine .bind han fun answer _ => ?_
    split
    · exact ih _
    · exact .raise
    rename_i response
    split
    · exact ih _
    refine .bind (tryBlocks_maintains hc response.content _) fun outcome _ => ?_
    obtain ⟨a, _ | data⟩ := outcome
    · exact ih _
    · exact .pure trivial

/-- All that a procedure does to the world keeps the invariant. -/
structure Undisturbing (env : AgentEnv) (agent : Agent) (I : World → Prop) : Prop where
  asked : ∀ w n, I w → I { w with asked := n }
  runs : ∀ w (mk : ℕ → AgentRun) (hmk : ∀ i, (mk i).id = i), (∀ i, (mk i).triggerType = "ai") → I w →
    I { w with db := { w.db with agentRuns := w.db.agentRuns.insert mk hmk } }
  executions : ∀ w executions, I w → I { w with db := { w.db with procedureExecutions := executions } }
  called : ∀ ctx : ToolContext, ctx.agent = agent → ∀ tool input,
    Maintains I (dispatchPlainTool env ctx tool input) fun _ => True

namespace Undisturbing

variable {ag : Agent}

theorem recordRun (h : Undisturbing env ag I) (trig : String) (r : Orchestration) (out : RunStatus) :
    Maintains I (recordRun env ag trig r out) fun _ => True := by
  unfold Agents.recordRun
  split
  · exact .write (fun w => h.runs w _ _ fun _ => rfl) trivial
  · exact .pure trivial

theorem postOrchestration (h : Undisturbing env ag I) (trig : String) (r : Orchestration) (out : RunStatus) :
    Maintains I (postOrchestration env ag trig r out) fun _ => True := by
  rw [postOrchestration_eq]
  exact h.recordRun _ _ _

theorem storeExecution (h : Undisturbing env ag I) (eid : ℕ) (rs : List StepResult)
    (f : ProcedureExecution → ProcedureExecution) (hf : ∀ e, (f e).id = e.id) :
    Maintains I (storeExecution env eid rs f hf) fun _ => True :=
  .fetch_bind fun _ _ _ _ => .write (fun w => h.executions w _) trivial

theorem updateExecution (h : Undisturbing env ag I) (eid : ℕ) (rs : List StepResult)
    (f : ProcedureExecution → ProcedureExecution) (hf : ∀ e, (f e).id = e.id) :
    Maintains I (updateExecution env eid rs f hf) fun _ => True :=
  .fetch_bind fun _ _ _ _ => h.storeExecution _ _ _ _

theorem runSteps (h : Undisturbing env ctx.agent I) (proc : String) (eid total : ℕ)
    (ss : List ProcedureStep) (p : Progress) :
    Maintains I (runSteps env ctx proc eid total ss p) fun _ => True := by
  induction ss generalizing p with
  | nil =>
    exact .bind (h.updateExecution _ _ _ _) fun _ _ => .map (h.postOrchestration _ _ _)
  | cons step ss ih =>
    rw [Agents.runSteps]
    split
    · exact .raise
    dsimp only
    split
    · exact .raise
    · split
      · exact .map (h.storeExecution _ _ _ _)
      · exact ih _
    · apply Maintains.bind (runAttempts_maintains h.asked (h.called ctx rfl _) _ _)
      intro run _
      split
      · exact .map (h.updateExecution _ _ _ _)
      · exact .fetch_bind fun _ _ _ _ => .bind (h.updateExecution _ _ _ _) fun _ _ => ih _

theorem runProcedureOrchestration (h : Undisturbing env ctx.agent I) (proc svc : String)
    (ictx : Option Json) :
    Maintains I (runProcedureOrchestration env ctx proc svc ictx) fun _ => True := by
  unfold Agents.runProcedureOrchestration
  dsimp only
  split
  · exact .pure trivial
  apply Maintains.query_bind
  intro w _
  cases getProcedure w.db ctx.agent.namespaceId svc proc with
  | error e => exact .pure trivial
  | ok p =>
    apply Maintains.query_bind
    intro w _
    cases activeProcedureVersion w.db p with
    | none => exact .pure trivial
    | some v =>
      refine .query_bind fun _ _ => .fetch_bind fun _ _ _ _ => .write_bind (fun w => h.executions w _) ?_
      refine .query_bind fun _ _ => .query_bind fun _ _ => runSteps ?_ _ _ _ _ _
      exact h

end Undisturbing

end Preserve

end McpworksApi.Agents
