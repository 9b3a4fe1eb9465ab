import McpworksApi.Services.Lookup

/-! The sandbox that runs stored code. The interpreters and the TypeScript compiler are outside the repository, so they
are fields of `Sandbox`, with two laws: a client program can be written that loads any given file of its package, in
Python and in TypeScript. -/

namespace McpworksApi.Run

open Models Py

structure ExecutionResult where
  success : Bool
  output : Json := .null
  stderr : Option String := none
  error : Option String := none
  errorType : Option String := none

structure Program where
  language : Language
  code : String
  input : Json := .obj []
  env : List (String × String) := []
  context : Option (List (String × Json)) := none
  files : List (String × String) := []

def stateContext (state : List (String × Json)) : List (String × Json) := [("state", .obj state)]

def callLogCaptureSnippet : String :=
  "\n\n# --- MCPWorks: capture call log for billing ---\ntry:\n    import sys as _sys, json as _json\n" ++
  "    _log = []\n    try:\n        with open(\"/sandbox/.call_log\") as _clf:\n" ++
  "            _log = [_ln.strip() for _ln in _clf if _ln.strip()]\n    except Exception:\n        try:\n" ++
  "            from functions._registry import _get_call_log as _gcl\n            _log = _gcl()\n" ++
  "        except Exception:\n            pass\n    if _log:\n" ++
  "        _sys.stderr.write(\"\\n__MCPWORKS_CALL_LOG__:\" + _json.dumps(_log) + \"\\n\")\n" ++
  "except Exception:\n    pass\n"

structure Sandbox where
  registered : Backend → Bool
  transpile : String → Except (List String) String
  run : Program → ExecutionResult
  loaded : Program → List String
  /-- Some Python program loads a given file. -/
  loads_python : ∀ env context files path, path ∈ files.map Prod.fst → ∃ code, code ≠ "" ∧
    path ∈ loaded ⟨.python, code ++ callLogCaptureSnippet, .obj [], env, context, files⟩
  /-- Some TypeScript program compiles and loads a given file. -/
  loads_typescript : ∀ env context files path, path ∈ files.map Prod.fst → ∃ code js, code ≠ "" ∧
    transpile code = .ok js ∧ path ∈ loaded ⟨.typescript, js, .obj [], env, context, files⟩

structure CodeFile where
  path : String
  function : Function
  version : FunctionVersion

def CodeFile.text (f : CodeFile) : String := f.version.code.getD ""

/-- A call of `SandboxBackend.execute`: what it was given, the stored functions whose code its
interpreter ran, and what it answered. -/
structure BackendCall where
  language : Language
  code : Option String
  config : Option Json := none
  input : Json := .obj []
  env : List (String × String) := []
  context : Option (List (String × Json)) := none
  ran : List (Function × FunctionVersion) := []
  result : ExecutionResult

inductive ServerRequest
  | mcp (server tool : String)
  | api (server operation : String)
  deriving DecidableEq, Repr

/-- The database, the live entries of the result cache, and a record of what was done: the calls
of the backend, the requests to other servers, the platform tools executed, and the number of answers asked of
a model. -/
structure World where
  db : Db
  cache : String → Option Json := fun _ => none
  calls : List BackendCall := []
  requests : List ServerRequest := []
  platform : List String := []
  asked : ℕ := 0

namespace World

def ran (w : World) : List (Function × FunctionVersion) := w.calls.flatMap (·.ran)

def record (w : World) (c : BackendCall) : World := { w with calls := w.calls ++ [c] }

def request (w : World) (r : ServerRequest) : World := { w with requests := w.requests ++ [r] }

@[simp] theorem ran_record (w : World) (c : BackendCall) : (w.record c).ran = w.ran ++ c.ran := by
  simp [ran, record]

end World

abbrev Api := Session World ApiError

def prepare (sb : Sandbox) (language : Language) (code : Option String) : Except ExecutionResult String :=
  let text := code.getD ""
  if text = "" then
    .error { success := false, error := some "No code provided", errorType := some "ValidationError" }
  else
    match language with
    | .python => .ok text
    | .typescript =>
      match sb.transpile text with
      | .ok js => .ok js
      | .error errors =>
        .error { success := false, error := some ("; ".intercalate errors), errorType := some "TranspileError" }

def loadedCode (sb : Sandbox) (p : Program) (files : List CodeFile) : List (Function × FunctionVersion) :=
  (files.filter fun f => f.path ∈ sb.loaded p ∧ f.text ≠ "").map fun f => (f.function, f.version)

def packageTexts (sb : Sandbox) (language : Language) (files : List CodeFile) : List (String × String) :=
  files.map fun f =>
    (f.path,
      match language, sb.transpile f.text with
      | .typescript, .ok js => js
      | _, _ => f.text)

def startedProgram (sb : Sandbox) (language : Language) (code : Option String) (input : Json)
    (env : List (String × String)) (context : Option (List (String × Json))) (files : List (String × String)) :
    Except ExecutionResult Program :=
  match prepare sb language code with
  | .error r => .error r
  | .ok text => .ok ⟨language, text, input, env, context, files⟩

def answer (sb : Sandbox) : Except ExecutionResult Program → ExecutionResult
  | .error r => r
  | .ok p => sb.run p

def functionCall (sb : Sandbox) (language : Language) (f : Function) (v : FunctionVersion) (input : Json)
    (env : List (String × String)) (context : Option (List (String × Json))) (files : List CodeFile) : BackendCall :=
  let started := startedProgram sb language v.code input env context (files.map fun c => (c.path, c.text))
  { language
    code := v.code
    config := v.config
    input
    env
    context
    ran := match started with
      | .error _ => []
      | .ok p => (f, v) :: loadedCode sb p files
    result := answer sb started }

def executeFunction (sb : Sandbox) (language : Language) (f : Function) (v : FunctionVersion) (input : Json)
    (env : List (String × String) := []) (context : Option (List (String × Json)) := none)
    (files : List CodeFile := []) : Api ExecutionResult := do
  let call := functionCall sb language f v input env context files
  Session.write (·.record call)
  pure call.result

def packageCall (sb : Sandbox) (language : Language) (code : String) (files : List CodeFile)
    (env : List (String × String)) (context : Option (List (String × Json))) : BackendCall :=
  let started := startedProgram sb language (some code) (.obj []) env context (packageTexts sb language files)
  { language
    code := some code
    env
    context
    ran := match started with
      | .error _ => []
      | .ok p => loadedCode sb p files
    result := answer sb started }

def executePackage (sb : Sandbox) (language : Language) (code : String) (files : List CodeFile)
    (env : List (String × String)) (context : Option (List (String × Json))) : Api ExecutionResult := do
  let call := packageCall sb language code files env context
  Session.write (·.record call)
  pure call.result

variable {sb : Sandbox} {language : Language} {f : Function} {v : FunctionVersion} {inp : Json}
  {env : List (String × String)} {ctx : Option (List (String × Json))} {w : World}

def Starts (sb : Sandbox) (language : Language) (v : FunctionVersion) : Prop :=
  ∃ code, prepare sb language v.code = .ok code

variable {files : List CodeFile} {code : String}

theorem executeFunction_apply : executeFunction sb language f v inp env ctx files w =
    (.ok (functionCall sb language f v inp env ctx files).result,
      w.record (functionCall sb language f v inp env ctx files)) := rfl

theorem functionCall_ran_of_starts (h : Starts sb language v) :
    (functionCall sb language f v inp env ctx []).ran = [(f, v)] := by
  obtain ⟨code, hc⟩ := h
  simp only [functionCall, startedProgram, hc]
  rfl

theorem functionCall_ran_of_not_starts (h : ¬ Starts sb language v) :
    (functionCall sb language f v inp env ctx files).ran = [] := by
  rcases hp : prepare sb language v.code with r | code
  · simp only [functionCall, startedProgram, hp]
  · exact absurd ⟨code, hp⟩ h

theorem executeFunction_of_starts (h : Starts sb language v) :
    (executeFunction sb language f v inp env ctx [] w).2.ran = w.ran ++ [(f, v)] := by
  rw [executeFunction_apply, World.ran_record, functionCall_ran_of_starts h]

theorem mem_loadedCode {p : Program} : (f, v) ∈ loadedCode sb p files ↔
      ∃ c ∈ files, c.path ∈ sb.loaded p ∧ c.text ≠ "" ∧ c.function = f ∧ c.version = v := by
  simp [loadedCode, and_assoc]

theorem executePackage_apply : executePackage sb language code files env ctx w =
      (.ok (packageCall sb language code files env ctx).result,
        w.record (packageCall sb language code files env ctx)) := rfl

theorem mem_packageCall_ran (h : (f, v) ∈ (packageCall sb language code files env ctx).ran) :
    ∃ c ∈ files, c.text ≠ "" ∧ c.function = f ∧ c.version = v := by
  rcases hp : prepare sb language (some code) with r | text
  · simp only [packageCall, startedProgram, hp] at h
    cases h
  · simp only [packageCall, startedProgram, hp] at h
    obtain ⟨c, hc, -, ht, hf, hv⟩ := mem_loadedCode.mp h
    exact ⟨c, hc, ht, hf, hv⟩

theorem packageCall_ran {text : String} (h : prepare sb language (some code) = .ok text) :
    (packageCall sb language code files env ctx).ran =
      loadedCode sb ⟨language, text, .obj [], env, ctx, packageTexts sb language files⟩ files := by
  simp only [packageCall, startedProgram, h]

theorem path_mem_packageTexts (sb : Sandbox) (language : Language) {c : CodeFile} (hc : c ∈ files) :
    c.path ∈ (packageTexts sb language files).map Prod.fst := by
  rw [packageTexts, List.map_map]
  exact List.mem_map_of_mem hc

theorem exists_program (sb : Sandbox) (language : Language) {c : CodeFile} (hc : c ∈ files)
    (ht : c.text ≠ "") (env : List (String × String)) (ctx : Option (List (String × Json))) :
    ∃ code, code ≠ "" ∧ (c.function, c.version) ∈
      (packageCall sb language (if language = .python then code ++ callLogCaptureSnippet else code) files env
        ctx).ran := by
  have hpa := path_mem_packageTexts sb language hc
  cases language with
  | python =>
    obtain ⟨code, hne, hl⟩ := sb.loads_python env ctx _ _ hpa
    have hp : prepare sb .python (some (code ++ callLogCaptureSnippet)) = .ok (code ++ callLogCaptureSnippet) := by
      simp [prepare, hne]
    refine ⟨code, hne, ?_⟩
    rw [if_pos rfl, packageCall_ran hp]
    exact mem_loadedCode.mpr ⟨c, hc, hl, ht, rfl, rfl⟩
  | typescript =>
    obtain ⟨code, js, hne, hjs, hl⟩ := sb.loads_typescript env ctx _ _ hpa
    have hp : prepare sb .typescript (some code) = .ok js := by
      simp [prepare, hne, hjs]
    refine ⟨code, hne, ?_⟩
    rw [if_neg (by simp), packageCall_ran hp]
    exact mem_loadedCode.mpr ⟨c, hc, hl, ht, rfl, rfl⟩

abbrev KeepsCalls {α : Type} (m : Api α) : Prop := Session.Keeps World.calls m

theorem KeepsCalls.ran_eq {α : Type} {m : Api α} (h : KeepsCalls m) (w : World) : (m w).2.ran = w.ran := by
  unfold World.ran
  rw [h]

theorem executeFunction_bind_calls {α : Type} {g : ExecutionResult → Api α} (hg : ∀ r, KeepsCalls (g r)) :
    ((executeFunction sb language f v inp env ctx files >>= g) w).2.calls =
      w.calls ++ [functionCall sb language f v inp env ctx files] := by
  rw [Session.bind_of_ok executeFunction_apply]
  exact hg _ _

end McpworksApi.Run
