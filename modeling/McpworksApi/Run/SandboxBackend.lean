import McpworksApi.Run.Dispatch
import McpworksApi.Run.OutputSanitizer

/-! `SandboxBackend.execute`, from the files that it writes to the result that it returns. The interpreter is a process
outside, in development mode and in the jail: whatever the user's code does, the backend sees that it ran out of time,
or its exit and the output file it left behind. -/

namespace McpworksApi.Run.SandboxBackend

open Models Py OutputSanitizer

structure Result where
  success : Json := .bool false
  output : Json := .null
  stdout : Json := .null
  stderr : Json := .null
  error : Json := .null
  errorType : Json := .null
  callLog : Json := .arr []

def Result.failure (error errorType : String) : Result := { error := .str error, errorType := .str errorType }

inductive OutputFile
  | missing
  | unreadable
  | malformed
  | parsed (value : Json)

inductive ProcessRun
  | notStarted (e : ApiError)
  | timedOut
  | exited (stdout stderr : Option String) (returncode : ℤ) (output : OutputFile)

def decoded : Option String → Except ApiError Json
  | none => .error (.py .unicodeDecodeError "'utf-8' codec can't decode bytes")
  | some "" => .ok .null
  | some s => .ok (.str s)

def field (fields : Args) (key : String) (default : Json := .null) : Json := (fields.get? key).getD default

def ofFields (fields : Args) (stdout stderr : Json) : Result where
  success := field fields "success" (.bool false)
  output := field fields "result"
  stdout := field fields "stdout" stdout
  stderr := field fields "stderr" stderr
  error := field fields "error"
  errorType := field fields "error_type"
  callLog := field fields "call_log" (.arr [])

def devResult : ProcessRun → Except ApiError Result
  | .notStarted e => .error e
  | .timedOut => .ok (.failure "Execution timed out" "TimeoutError")
  | .exited stdout stderr returncode output =>
    match output with
    | .unreadable => .error (.py .unicodeDecodeError "'utf-8' codec can't decode bytes")
    | .parsed (.obj fields) => do
      let out ← decoded stdout
      let err ← decoded stderr
      pure (ofFields fields out err)
    | .parsed j => .error (.py .attributeError ("'" ++ j.typeName ++ "' object has no attribute 'get'"))
    | .missing | .malformed => do
      let out ← decoded stdout
      let err ← decoded stderr
      pure
        { success := .bool (returncode = 0), stdout := out, stderr := err
          error := if returncode = 0 then .null else .str "No structured output produced"
          errorType := if returncode = 0 then .null else .str "ExecutionError" }

def nsjailResult : ProcessRun → Except ApiError Result
  | .notStarted e => .error e
  | .timedOut => .ok (.failure "Execution timed out" "TimeoutError")
  | .exited stdout stderr _ output =>
    match output with
    | .unreadable => .error (.py .unicodeDecodeError "'utf-8' codec can't decode bytes")
    | .parsed (.obj fields) => .ok (ofFields fields (.str "") (.str ""))
    | .parsed j => .error (.py .attributeError ("'" ++ j.typeName ++ "' object has no attribute 'get'"))
    | .missing | .malformed => do
      let out ← decoded stdout
      let err ← decoded stderr
      pure { Result.failure "No output produced by sandbox" "ExecutionError" with stdout := out, stderr := err }

def baseTier (tier : String) : String := if endsWith tier "-agent" then replace tier "-agent" "" else tier

def scrub (s : String) (envValues : List String) : String :=
  let r := scrubSecrets s envValues
  if 0 < r.2 then r.1 else s

def sanitizeOutput (r : Result) (tier : String) (envValues : List String) : Except ApiError Result := do
  let sized := fun s => scrub (enforceOutputSize s (baseTier tier)) envValues
  let output := match r.output with
    | .str s => .str (sized s)
    | j => j
  let stdout ← match r.stdout with
    | .null => pure .null
    | .str s => pure (.str (sized s))
    | j => .error (.py .attributeError ("'" ++ j.typeName ++ "' object has no attribute 'encode'"))
  let stderr ← match r.stderr with
    | .null => pure .null
    | .str s => pure (.str (scrub s envValues))
    | j => .error (.py .typeError ("expected string or bytes-like object, got '" ++ j.typeName ++ "'"))
  pure { r with output, stdout, stderr }

structure Call where
  devMode : Bool
  language : Language
  code : Option String
  tier : String
  sandboxEnv : List (String × String) := []

def clearedEnv (sandboxEnv : List (String × String)) : List (String × String) :=
  if sandboxEnv ≠ [] then [] else sandboxEnv

def ofRefusal (r : ExecutionResult) : Result :=
  { success := .bool r.success, error := (r.error.map Json.str).getD .null
    errorType := (r.errorType.map Json.str).getD .null }

def finish (devMode : Bool) (tier : String) (sandboxEnv : List (String × String)) (run : ProcessRun) :
    Except ApiError Result := do
  let r ← if devMode then devResult run else nsjailResult run
  sanitizeOutput r tier ((clearedEnv sandboxEnv).map Prod.snd)

def execute (sb : Sandbox) (call : Call) (run : ProcessRun) : Except ApiError Result :=
  match prepare sb call.language call.code with
  | .error refusal => .ok (ofRefusal refusal)
  | .ok _ => finish call.devMode call.tier call.sandboxEnv run

variable {sb : Sandbox} {call : Call}

def textOf : Json → Option String
  | .str s => some s
  | _ => none

theorem refusal_eq {lang : Language} {code : Option String} {r : ExecutionResult}
    (h : prepare sb lang code = .error r) :
    ∃ error errorType, r = { success := false, error := some error, errorType := some errorType } := by
  unfold prepare at h
  dsimp only at h
  split at h
  · exact ⟨_, _, (Except.error.inj h).symm⟩
  · cases lang with
    | python => cases h
    | typescript =>
      dsimp only at h
      split at h
      · cases h
      · exact ⟨_, _, (Except.error.inj h).symm⟩

def Leaks (value : String) (r : Result) : Prop :=
  ∃ s ∈ r.output.strings ++ r.stdout.strings ++ r.stderr.strings ++ r.error.strings, contains s value = true

def Call.secrets (call : Call) : List String :=
  (call.sandboxEnv.map Prod.snd).filter fun v => minEnvValueLength ≤ v.length

def Scrubbed (sb : Sandbox) (call : Call) : Prop :=
  ∀ run r, execute sb call run = .ok r → ∀ v ∈ call.secrets, ¬Leaks v r

def RefusedWithout (sb : Sandbox) (call : Call) (value : String) : Prop :=
  ∃ refusal, prepare sb call.language call.code = .error refusal ∧ contains (refusal.error.getD "") value = false

def failingRun (text : String) : ProcessRun := .exited (some "") (some "") 0 (.parsed (.obj [("error", .str text)]))

theorem finish_failingRun (dev : Bool) (tier : String) (env : List (String × String)) (text : String) :
    ∃ r, finish dev tier env (failingRun text) = .ok r ∧ r.error = .str text := by
  cases dev <;> exact ⟨_, rfl, rfl⟩

theorem leaks_of_error {v text : String} {r : Result} (hr : r.error = .str text) (h : contains text v = true) :
    Leaks v r := by
  refine ⟨text, List.mem_append_right _ ?_, h⟩
  rw [hr]
  exact List.mem_singleton_self text

theorem leaks_ofRefusal_iff {v : String} {ref : ExecutionResult}
    (h : prepare sb call.language call.code = .error ref) :
    Leaks v (ofRefusal ref) ↔ contains (ref.error.getD "") v = true := by
  obtain ⟨error, et, rfl⟩ := refusal_eq h
  refine ⟨?_, leaks_of_error rfl⟩
  rintro ⟨s, hs, hc⟩
  obtain rfl : s = error := by simpa [ofRefusal, Json.strings] using hs
  exact hc

theorem not_scrubbed_of_starts {text v : String} (h : prepare sb call.language call.code = .ok text)
    (hv : v ∈ call.secrets) : ¬Scrubbed sb call := by
  intro hs
  obtain ⟨r, hr, he⟩ := finish_failingRun call.devMode call.tier call.sandboxEnv v
  have hex : execute sb call (failingRun v) = .ok r := by
    rw [execute, h]
    exact hr
  exact hs _ r hex v hv (leaks_of_error he (contains_self v))

/-- The secrets of a call stay out of its results exactly when each of them is missing from the
refusal of a call whose interpreter is not started. -/
theorem scrubbed_iff (sb : Sandbox) (call : Call) : Scrubbed sb call ↔
    ∀ v ∈ call.secrets, RefusedWithout sb call v := by
  constructor
  · intro hs v hv
    cases hp : prepare sb call.language call.code with
    | ok text => exact absurd hs (not_scrubbed_of_starts hp hv)
    | error refusal =>
      refine ⟨refusal, hp, ?_⟩
      have he : execute sb call .timedOut = .ok (ofRefusal refusal) := by rw [execute, hp]
      rw [← Bool.not_eq_true, ← leaks_ofRefusal_iff hp]
      exact hs _ _ he v hv
  · intro hre run r hr v hv
    obtain ⟨refusal, hp, hw⟩ := hre v hv
    rw [execute, hp] at hr
    obtain rfl := Except.ok.inj hr
    rw [leaks_ofRefusal_iff hp, hw]
    exact Bool.false_ne_true

def passwordCall (devMode : Bool) : Call :=
  { devMode, language := .python, code := some "import os", tier := "pro"
    sandboxEnv := [("DB_PASSWORD", "correct horse")] }

def passwordRun : ProcessRun :=
  .exited (some "") (some "") 0 (.parsed (.obj [("success", .bool true), ("result", .str "it is correct horse")]))

theorem mem_strings_of_textOf {j : Json} {s : String} (h : textOf j = some s) : s ∈ j.strings := by
  cases j with
  | str t =>
    obtain rfl := Option.some.inj h
    exact List.mem_singleton_self t
  | _ => cases h

theorem not_scrubbed_of_output (run : ProcessRun) {s v : String} (hv : v ∈ call.secrets) (hs : contains s v = true)
    (ho : ((execute sb call run).toOption.bind fun r => textOf r.output) = some s) : ¬Scrubbed sb call := by
  intro hsc
  cases he : execute sb call run with
  | error e =>
    rw [he] at ho
    cases ho
  | ok r =>
    rw [he] at ho
    have hm : s ∈ r.output.strings := mem_strings_of_textOf ho
    exact hsc run r he v hv ⟨s, by simp [hm], hs⟩

/-- The returned text is handed on with the value in it, in development mode and in the jail. -/
theorem returned_secret_not_scrubbed :
    ¬Scrubbed eagerSandbox (passwordCall true) ∧ ¬Scrubbed eagerSandbox (passwordCall false) := by
  have hc : contains "it is correct horse" "correct horse" = true := by decide
  refine ⟨not_scrubbed_of_output passwordRun ?_ hc ?_,
    not_scrubbed_of_output passwordRun ?_ hc ?_⟩
  all_goals decide +kernel

end McpworksApi.Run.SandboxBackend
