import McpworksApi.Run.CacheLaw
import McpworksApi.Run.Scanners

/-! What becomes of a verdict to block. The text that a tool call answers is put together here: the output of a
function goes through the pipeline of the namespace when the function was called directly, or from a Python program in
a namespace with untrusted data; that of a TypeScript program does not; the response of a published API endpoint goes
through it if there is one. -/

namespace McpworksApi.Run.Scanners

open Models Py Services Services.Functions

def runOutputPipeline (scan : ScanEnv) (ctx : ScanContext) (ns : Namespace) (content : String) : String :=
  (evaluatePipeline scan content ctx ns.scannerPipeline).modifiedContent.getD content

/-- The ways an output takes to the caller: of a function that was called directly, with its trust
level, or of a program in code mode. -/
inductive OutputPath
  | direct (service function outputTrust : String)
  | python (dataTrust : Bool)
  | typescript

def hasDataTrust (db : Db) (namespaceId : ℕ) : Bool :=
  mcpServersOf db namespaceId ≠ [] || (listAllForNamespace db namespaceId).any (·.1.outputTrust = "data")

def outputPath (db : Db) (h : RunHandler) (ns : Namespace) (name : String) : Option OutputPath :=
  if (name = "execute_python" ∨ name = "execute") ∧ h.mode = "code" then some (.python (hasDataTrust db ns.id))
  else if name = "execute_typescript" ∧ h.mode = "code" then some .typescript
  else
    match splitOnce "." name with
    | none => none
    | some (service, function) =>
      match getForExecution db ns.id service function with
      | .error _ => none
      | .ok (f, _) => some (.direct service function f.outputTrust)

def OutputPath.context (h : RunHandler) (executionId : String) : OutputPath → ScanContext
  | .direct service function outputTrust => ⟨.output, h.namespaceName, service, function, executionId, outputTrust⟩
  | .python _ => ⟨.output, h.namespaceName, "code_mode", "execute", executionId, "data"⟩
  | .typescript => ⟨.output, h.namespaceName, "code_mode", "execute", executionId, "data"⟩

def OutputPath.text (scan : ScanEnv) (h : RunHandler) (ns : Namespace) (executionId content : String)
    (path : OutputPath) : String :=
  match path with
  | .direct _ _ _ | .python true => runOutputPipeline scan (path.context h executionId) ns content
  | .python false | .typescript => content

def optional (s : Option String) : Json := (s.map Json.str).getD .null

def failureText (r : ExecutionResult) : String :=
  (Json.obj [("error", optional r.error), ("error_type", optional r.errorType), ("stderr", optional r.stderr)]).dumps

def missingEnvText (missing : List String) : String :=
  (Json.obj
    [("error", .str "missing_env"), ("missing", .arr (missing.map .str)),
      ("message", .str ("Required environment variables not provided: " ++ ", ".intercalate missing))]).dumps

def envStatusText (s : EnvStatus) : String :=
  let strings := fun l : List String => Json.arr (l.map .str)
  (Json.obj
    ([("configured", strings s.configured), ("missing_required", strings s.missingRequired),
      ("missing_optional", strings s.missingOptional),
      ("functions", .obj (s.functions.map fun f =>
        (f.1, .obj [("required", strings f.2.1), ("optional", strings f.2.2.1), ("status", .str f.2.2.2)])))] ++
      if s.missingRequired = [] then []
      else
        [("note", .str ("Functions with status 'missing_env' will fail. " ++
          "Add missing variables to your MCP server X-MCPWorks-Env header."))])).dumps

def resultText (scan : ScanEnv) (db : Db) (h : RunHandler) (name executionId : String) : ToolResult → String
  | .executed r =>
    if r.success then
      match getNamespace db h with
      | .error _ => r.output.dumps
      | .ok ns => ((outputPath db h ns name).map (·.text scan h ns executionId r.output.dumps)).getD r.output.dumps
    else failureText r
  | .missingEnv missing => missingEnvText missing
  | .envStatus s => envStatusText s
  | .text s => s

def dispatchText (env : RunEnv) (scan : ScanEnv) (h : RunHandler) (name : String) (args : Args)
    (sandboxEnv : List (String × String)) (executionId : String) : Api String := do
  let db ← Session.query (·.db)
  let result ← dispatchTool env h name args sandboxEnv
  pure (resultText scan db h name executionId result)

theorem dispatchText_fst {env : RunEnv} {scan : ScanEnv} {h : RunHandler} {name eid : String} {args : Args}
    {senv : List (String × String)} {w : World} {result : ToolResult}
    (hr : (dispatchTool env h name args senv w).1 = .ok result) :
    (dispatchText env scan h name args senv eid w).1 =
      .ok (resultText scan w.db h name eid result) := by
  rcases hd : dispatchTool env h name args senv w with ⟨r, w'⟩
  rw [hd] at hr
  obtain rfl : r = .ok result := hr
  rw [dispatchText, Session.query_bind_apply, Session.bind_of_ok hd]
  rfl

structure ApiProxyResult where
  statusCode : Option ℤ := none
  contentType : String := ""
  truncated : Bool := false
  jsonBody : Option Json := none
  text : Option String := none
  error : Option String := none
  reason : Option String := none
  action : Option String := none

def responseText (r : ApiProxyResult) : String :=
  (Json.obj
    ([("status_code", (r.statusCode.map Json.int).getD .null), ("truncated", .bool r.truncated),
      ("content_type", .str r.contentType)] ++
      (r.jsonBody.map fun j => [("json", j)]).getD [] ++ (r.text.map fun s => [("text", .str s)]).getD [])).dumps

def apiContext (ns : Namespace) (server operationId executionId : String) : ScanContext :=
  ⟨.output, ns.name.val, "api:" ++ server, operationId, executionId, "prompt"⟩

def blockedText : String :=
  (Json.obj [("error", .str "blocked_by_scanner"), ("reason", .str "response blocked by injection scanner")]).dumps

def scanResponse (scan : ScanEnv) (ns : Namespace) (server operationId executionId text : String) : String :=
  match ns.scannerPipeline with
  | none => text
  | some pipeline =>
    let r := evaluatePipeline scan text (apiContext ns server operationId executionId) (some pipeline)
    if r.finalAction = .block then blockedText else r.modifiedContent.getD text

def proxyAndFormat (scan : ScanEnv) (ns : Option Namespace) (server operationId executionId : String)
    (r : ApiProxyResult) : Bool × String :=
  if given r.error then
    (false, (Json.obj [("error", optional r.error), ("reason", optional r.reason), ("action", optional r.action)]).dumps)
  else
    match ns with
    | none => (true, responseText r)
    | some ns => (true, scanResponse scan ns server operationId executionId (responseText r))

def inputContext (h : RunHandler) (service function executionId : String) : ScanContext :=
  ⟨.input, h.namespaceName, service, function, executionId, "prompt"⟩

/-- A namespace's pipeline is enforced: an output or a response that it blocks is not in the text
that the caller gets, and no code is run on arguments that it blocks. -/
structure Enforced (pipeline : Option ScannerPipeline) : Prop where
  output : ∀ scan env h name args sandboxEnv executionId w ns r path text,
    getNamespace w.db h = .ok ns → ns.scannerPipeline = pipeline → outputPath w.db h ns name = some path →
    (dispatchTool env h name args sandboxEnv w).1 = .ok (.executed r) → r.success = true →
    (evaluatePipeline scan r.output.dumps (path.context h executionId) pipeline).finalAction = .block →
    (dispatchText env scan h name args sandboxEnv executionId w).1 = .ok text → contains text r.output.dumps = false
  response : ∀ scan ns server operationId executionId r,
    ns.scannerPipeline = pipeline → given r.error = false →
    (evaluatePipeline scan (responseText r) (apiContext ns server operationId executionId)
      pipeline).finalAction = .block →
    contains (proxyAndFormat scan (some ns) server operationId executionId r).2 (responseText r) = false
  input : ∀ scan env h name args sandboxEnv executionId w ns service function,
    getNamespace w.db h = .ok ns → ns.scannerPipeline = pipeline → splitOnce "." name = some (service, function) →
    (evaluatePipeline scan (Json.obj args).dumps (inputContext h service function executionId) pipeline).finalAction =
      .block →
    (dispatchTool env h name args sandboxEnv w).2.ran = w.ran

theorem dumps_obj_head (key : String) (j : Json) (fs : Args) :
    ("\x7b" ++ dumpsString key).toList <+: (Json.obj ((key, j) :: fs)).dumps.toList := by
  rw [Json.dumps, dumpsFields]
  simp only [String.toList_append, String.toList_intercalate, List.map_cons]
  cases (dumpsFields fs).map String.toList with
  | nil => exact ⟨(": ".toList ++ j.dumps.toList) ++ "\x7d".toList, by simp [List.intercalate]⟩
  | cons t ts =>
    exact ⟨(": ".toList ++ j.dumps.toList) ++ (", ".toList ++ ", ".toList.intercalate (t :: ts)) ++ "\x7d".toList,
      by simp [List.intercalate, List.intersperse]⟩

theorem response_withheld (scan : ScanEnv) (ns : Namespace) (sr oid eid : String)
    (r : ApiProxyResult) (he : given r.error = false)
    (hb : (evaluatePipeline scan (responseText r) (apiContext ns sr oid eid)
      ns.scannerPipeline).finalAction = .block) :
    contains (proxyAndFormat scan (some ns) sr oid eid r).2 (responseText r) = false := by
  cases hp : ns.scannerPipeline with
  | none =>
    rw [hp] at hb
    exact absurd hb (not_blocks_of_builtin (by decide))
  | some pipeline =>
    rw [hp] at hb
    have hr : (proxyAndFormat scan (some ns) sr oid eid r).2 = blockedText := by
      simp only [proxyAndFormat, he, scanResponse, hp, hb]
      rfl
    rw [hr, ← Bool.not_eq_true, contains_eq_true]
    intro hin
    have hh : contains blockedText ("\x7b" ++ dumpsString "status_code") = true :=
      contains_eq_true.mpr ((dumps_obj_head _ _ _).isInfix.trans hin)
    exact absurd hh (by decide)

def blockingScan : ScanEnv where
  post _ _ _ := .ok (.obj [("action", .str "block")])
  callPython _ _ _ := some (.ok (.obj [("action", .str "block")]))
  parseFloat _ := none
  nfkc s := s
  decodeBase64 _ := none
  isPrintable _ := true

theorem blockingScan_external {ent : ScannerEntry} (h : External ent) (ctx : ScanContext) (cont : String) :
    ∃ v, scanAndTransform blockingScan ent ctx cont = .completed cont v ∧ v.action = .block := by
  unfold scanAndTransform
  rcases h with h | h <;> rw [h] <;> exact ⟨_, rfl, rfl⟩

/-- A builtin scanner leaves a text that holds no secret, in a context that is trusted. -/
theorem builtin_keeps {scan : ScanEnv} {ent : ScannerEntry} {ctx : ScanContext} {content text : String}
    {v : ScanVerdict} (he : ¬External ent) (ht : ctx.outputTrust = "prompt") (hs : (secretScan content).1 = content)
    (h : scanAndTransform scan ent ctx content = .completed text v) : text = content := by
  unfold scanAndTransform at h
  split at h
  · split at h
    · obtain ⟨rfl, -⟩ := Scan.completed.inj h
      rfl
    · obtain ⟨rfl, -⟩ := Scan.completed.inj h
      exact hs
    · obtain ⟨rfl, -⟩ := Scan.completed.inj h
      rw [trustBoundaryScan, ht, if_neg (by decide)]
    · cases h
  · rename_i hw
    exact absurd (.inl hw) he
  · rename_i hp
    exact absurd (.inr hp) he
  · cases h

theorem scanAll_blockingScan {ctx : ScanContext} {ents : List ScannerEntry} {cont : String}
    (ht : ctx.outputTrust = "prompt") (hse : (secretScan cont).1 = cont)
    (h : ∃ e ∈ ents, applies ctx e = true ∧ External e) :
    (scanAll blockingScan ctx ents cont).content = cont ∧ (scanAll blockingScan ctx ents cont).allErrored = false ∧
      ∃ v ∈ (scanAll blockingScan ctx ents cont).verdicts, v.action = .block := by
  induction ents with
  | nil =>
    obtain ⟨e, he, -⟩ := h
    cases he
  | cons e ents ih =>
    have hl : ¬(applies ctx e = true ∧ External e) → ∃ e' ∈ ents, applies ctx e' = true ∧ External e' := by
      intro hn
      obtain ⟨e', he', ha⟩ := h
      rcases List.mem_cons.mp he' with rfl | he'
      · exact absurd ha hn
      · exact ⟨e', he', ha⟩
    rw [scanAll]
    split
    · by_cases hex : External e
      · obtain ⟨v, hv, hvb⟩ := blockingScan_external hex ctx cont
        rw [hv]
        dsimp only
        rw [if_pos hvb]
        exact ⟨rfl, rfl, v, List.mem_singleton_self _, hvb⟩
      · obtain ⟨hc, her, v', hv', hvb'⟩ := ih (hl fun h => hex h.2)
        rcases builtin_cases blockingScan ctx cont hex with hs | ⟨text, v, hs, hne⟩ <;> rw [hs] <;> dsimp only
        · exact ⟨hc, her, v', hv', hvb'⟩
        · obtain rfl := builtin_keeps hex ht hse hs
          rw [if_neg hne]
          exact ⟨hc, rfl, v', List.mem_cons_of_mem _ hv', hvb'⟩
    · rename_i ha
      exact ih (hl fun hex => ha hex.1)

theorem evaluatePipeline_blockingScan (ctx : ScanContext) {pipeline : Option ScannerPipeline} (cont : String)
    (ht : ctx.outputTrust = "prompt") (hs : (secretScan cont).1 = cont)
    (h : ∃ e ∈ (pipeline.getD defaultPipeline).scanners, applies ctx e = true ∧ External e) :
    (evaluatePipeline blockingScan cont ctx pipeline).finalAction = .block ∧
      (evaluatePipeline blockingScan cont ctx pipeline).modifiedContent = none := by
  obtain ⟨e, he, ha⟩ := h
  obtain ⟨hsa, her, hb⟩ := scanAll_blockingScan ht hs ⟨e, List.mem_mergeSort.mpr he, ha⟩
  refine ⟨?_, if_neg (not_not.mpr hsa)⟩
  unfold evaluatePipeline
  dsimp only
  rw [her, if_neg (by simp)]
  exact decided_block_iff.mpr hb

def scannedDb (pipeline : Option ScannerPipeline) : Db where
  namespaces := .single { id := 1, accountId := 2, name := .acme, scannerPipeline := pipeline }
  services := .single { id := 3, namespaceId := 1, name := .mail }
  functions := .single { id := 4, serviceId := 3, name := .count }
  versions := .single { id := 5, functionId := 4, code := some "result = None" }

section Instances

variable {pipeline : Option ScannerPipeline} {e : ScannerEntry}

theorem not_enforced_of_output (he : e ∈ (pipeline.getD defaultPipeline).scanners) (hen : e.enabled = true)
    (hex : External e) (hdi : e.direction = .both ∨ e.direction = .output) : ¬Enforced pipeline := by
  intro hef
  have ha : applies ⟨.output, "acme", "mail", "count", "", "prompt"⟩ e = true := by
    rcases hdi with h | h <;> simp [applies, hen, h]
  obtain ⟨hb, hs⟩ := evaluatePipeline_blockingScan ⟨.output, "acme", "mail", "count", "", "prompt"⟩ "null" rfl
    (by decide +kernel) ⟨e, he, ha, hex⟩
  have hns : getNamespace (scannedDb pipeline) (mailHandler "tools") =
      .ok { id := 1, accountId := 2, name := .acme, scannerPipeline := pipeline } := by rfl
  have hd : (dispatchTool plainEnv (mailHandler "tools") "mail.count" [] [] { db := scannedDb pipeline }).1 =
      .ok (.executed { success := true }) := by rfl
  have hp : outputPath (scannedDb pipeline) (mailHandler "tools")
      { id := 1, accountId := 2, name := .acme, scannerPipeline := pipeline } "mail.count" =
      some (.direct "mail" "count" "prompt") := by rfl
  have ht : (dispatchText plainEnv blockingScan (mailHandler "tools") "mail.count" [] [] ""
      { db := scannedDb pipeline }).1 = .ok "null" := by
    rw [dispatchText_fst hd]
    simp only [resultText, hns, hp, Option.map_some, Option.getD_some, OutputPath.text, runOutputPipeline]
    exact congrArg (fun mod => Except.ok (Option.getD mod "null")) hs
  have hc := hef.output blockingScan plainEnv _ "mail.count" [] [] "" { db := scannedDb pipeline } _ _ _ _
    hns rfl hp hd rfl hb ht
  exact absurd hc (by decide)

theorem not_enforced_of_input (he : e ∈ (pipeline.getD defaultPipeline).scanners) (hen : e.enabled = true)
    (hex : External e) (hd : e.direction = .input) : ¬Enforced pipeline := by
  intro hef
  have ha : applies ⟨.input, "acme", "mail", "count", "", "prompt"⟩ e = true := by
    simp [applies, hen, hd]
  obtain ⟨hb, -⟩ := evaluatePipeline_blockingScan ⟨.input, "acme", "mail", "count", "", "prompt"⟩ "\x7b\x7d" rfl
    (by decide +kernel) ⟨e, he, ha, hex⟩
  have hns : getNamespace (scannedDb pipeline) (mailHandler "tools") =
      .ok { id := 1, accountId := 2, name := .acme, scannerPipeline := pipeline } := by rfl
  have hr := hef.input blockingScan plainEnv (mailHandler "tools") "mail.count" [] [] ""
    { db := scannedDb pipeline } _ "mail" "count" hns rfl (by rfl) hb
  cases hr

end Instances

/-- A pipeline is enforced exactly when it has no enabled scanner that could ever block. -/
theorem pipelineEnforced_iff (pipeline : Option ScannerPipeline) :
    Enforced pipeline ↔ ∀ e ∈ (pipeline.getD defaultPipeline).scanners, e.enabled = true → ¬External e := by
  constructor
  · intro hen e he heb hex
    cases hd : e.direction with
    | both => exact not_enforced_of_output he heb hex (.inl hd) hen
    | output => exact not_enforced_of_output he heb hex (.inr hd) hen
    | input => exact not_enforced_of_input he heb hex hd hen
  · intro hbu
    refine ⟨?_, ?_, ?_⟩
    · intro scan env h name args senv eid w ns r path text _ _ _ _ _ hb
      exact absurd hb (not_blocks_of_builtin hbu)
    · rintro scan ns server operationId eid r rfl her hb
      exact response_withheld scan ns server operationId eid r her hb
    · intro scan env h name args senv eid w ns svc fn _ _ _ hb
      exact absurd hb (not_blocks_of_builtin hbu)

/-- A webhook that blocks every output has no effect. -/
theorem blocked_output_returned :
    ¬Enforced (some { scanners := [
      { id := "s-1", type := .webhook, name := "guard", config := { url := "https://guard.internal/scan" } }] }) :=
  not_enforced_of_output List.mem_cons_self rfl (.inl rfl) (.inr rfl)

end McpworksApi.Run.Scanners
