import McpworksApi.Models.Servers
import McpworksApi.Py.Fnmatch
import McpworksApi.Py.Literal
import McpworksApi.Run.Scanners

/-! The rules of an MCP server (`core/mcp_rules.py`) and the markers they set (`core/trust_boundary.py`). Request rules
change the arguments of a tool or refuse the call; response rules change the text of its answer, one after the other.
-/

namespace McpworksApi.Run.Mcp

open Models Py

structure Raised where
  className : String
  message : String
  deriving DecidableEq, Repr

inductive LoadsError
  | valueError
  | other (e : Raised)

/-- What the rules use of Python: the scanners, `json`, the comparison of a value with its cap, and the equality of two
keys of a dictionary that are no texts. -/
structure RuleEnv where
  scan : Scanners.ScanEnv
  loads : String → Except LoadsError Json
  dumps : Json → Except Raised String
  exceeds : Json → Json → Except ApiError (Option Bool)
  sameKey : Json → Json → Bool

def noPattern (j : Json) : Raised :=
  ⟨"TypeError", "expected str, bytes or os.PathLike object, not " ++ j.typeName⟩

def matchesPattern (toolName : String) : Json → Except Raised Bool
  | .str pattern => .ok (fnmatch toolName pattern)
  | j => .error (noPattern j)

def matchesAny (toolName : String) : List Json → Except Raised Bool
  | [] => .ok false
  | p :: patterns => do
    if ← matchesPattern toolName p then pure true else matchesAny toolName patterns

def matchesTools (toolName : String) : Json → Except Raised Bool
  | .arr patterns => matchesAny toolName patterns
  | j => matchesPattern toolName j

inductive RequestError
  | blocked (message : String)
  | invalid (message : String)
  | raised (e : ApiError)

def ruleId (rule : Args) : String := ((rule.get? "id").getD (.str "unknown")).text

def ruleKey (rule : Args) : Option Json := (rule.get? "key").filter Json.truthy

/-- The arguments of a call. A rule may add one whose key is no text. -/
structure CallArguments where
  texts : Args
  others : List (Json × Json) := []

/-- Looks up a key, which a list or an object cannot be. -/
def CallArguments.get? (env : RuleEnv) (arguments : CallArguments) : Json → Except RequestError (Option Json)
  | .arr _ => .error (.raised (.py .typeError "unhashable type: 'list'"))
  | .obj _ => .error (.raised (.py .typeError "unhashable type: 'dict'"))
  | .str key => .ok (arguments.texts.get? key)
  | key => .ok ((arguments.others.find? (env.sameKey key ·.1)).map (·.2))

def CallArguments.set (env : RuleEnv) (arguments : CallArguments) (key value : Json) :
    Except RequestError CallArguments := do
  match key, ← arguments.get? env key with
  | .str key, _ => pure { arguments with texts := arguments.texts.set key value }
  | _, none => pure { arguments with others := arguments.others ++ [(key, value)] }
  | _, some _ =>
    pure { arguments with
      others := arguments.others.map fun old => if env.sameKey key old.1 then (old.1, value) else old }

def concat : Json → Json → Except RequestError Json
  | .str a, .str b => .ok (.str (a ++ b))
  | _, _ => .error (.raised (.py .typeError "can only concatenate str to str"))

def injectParam (env : RuleEnv) (rule : Args) (arguments : CallArguments) (key : Json) :
    Except RequestError CallArguments :=
  match rule.get? "value", rule.get? "prepend", rule.get? "append" with
  | some value, _, _ => arguments.set env key value
  | none, some text, _ => do
    match ← arguments.get? env key with
    | some old => arguments.set env key (← concat text (.str old.text))
    | none => arguments.set env key text
  | none, none, some text => do
    match ← arguments.get? env key with
    | some old => arguments.set env key (← concat (.str old.text) text)
    | none => pure arguments
  | none, none, none => .ok arguments

def capParam (env : RuleEnv) (rule : Args) (arguments : CallArguments) (key : Json) :
    Except RequestError CallArguments :=
  match (rule.get? "max").getD .null with
  | .null => .ok arguments
  | limit => do
    match ← arguments.get? env key with
    | none => pure arguments
    | some value =>
      match env.exceeds value limit with
      | .error e => .error (.raised e)
      | .ok exceeds => if exceeds = some true then arguments.set env key limit else pure arguments

def applyRequestRule (env : RuleEnv) (toolName : String) (rule : Args) (arguments : CallArguments) :
    Except RequestError CallArguments :=
  match rule.get? "type", ruleKey rule with
  | some (.str "block_tool"), _ =>
    .error (.blocked ("Tool '" ++ toolName ++ "' blocked by namespace rule (rule_id: " ++ ruleId rule ++ ")"))
  | some (.str "inject_param"), some key => injectParam env rule arguments key
  | some (.str "require_param"), some key => do
    if (← arguments.get? env key).isSome then pure arguments
    else
      .error (.invalid
        ("Parameter '" ++ key.text ++ "' required for tool '" ++ toolName ++ "' (rule_id: " ++ ruleId rule ++ ")"))
  | some (.str "cap_param"), some key => capParam env rule arguments key
  | _, _ => .ok arguments

def evaluateRequestRules (env : RuleEnv) (toolName : String) :
    List Args → CallArguments → Except RequestError CallArguments
  | [], arguments => .ok arguments
  | rule :: rules, arguments =>
    match matchesPattern toolName ((rule.get? "tool").getD (.str "*")) with
    | .error e => .error (.raised (.py .typeError e.message))
    | .ok false => evaluateRequestRules env toolName rules arguments
    | .ok true => applyRequestRule env toolName rule arguments >>= evaluateRequestRules env toolName rules

def markInjections (text : String) : List (String × Scanners.Severity) → Except Raised String
  | [] => .ok text
  | _ :: _ => .error ⟨"AttributeError", "'dict' object has no attribute 'position'"⟩

def wrapMcpResponse (text server tool : String) (injectionsFound : ℕ) : String :=
  "[EXTERNAL_DATA source=\"" ++ server ++ "\" tool=\"" ++ tool ++ "\" trust=\"untrusted\" injections_found=" ++
    toString injectionsFound ++ "]\n" ++ text ++ "\n[/EXTERNAL_DATA]"

def htmlTag : Regex := .seq (.char (· = '<')) (.seq (.plus (.char (· ≠ '>'))) (.char (· = '>')))

def stripHtml (text : String) : String := String.ofList (htmlTag.subn [] text.toList).1

def redactField : List String → Json → Json
  | [key], .obj fields => .obj (Args.erase fields key)
  | key :: path, .obj fields =>
    match Args.get? fields key with
    | some inner => .obj (Args.set fields key (redactField path inner))
    | none => .obj fields
  | _, data => data

def splitDots (s : String) : List String := (s.toList.splitOn '.').map String.ofList

def fieldPath : Json → Except Raised String
  | .str path => .ok path
  | j => .error ⟨"AttributeError", "'" ++ j.typeName ++ "' object has no attribute 'split'"⟩

def fieldPaths : Json → Except Raised (List String)
  | .arr items => items.mapM fieldPath
  | .str s => .ok (s.toList.map String.singleton)
  | .obj fields => .ok (fields.map Prod.fst)
  | j => .error ⟨"TypeError", "'" ++ j.typeName ++ "' object is not iterable"⟩

def redactAll (paths : List String) (data : Json) : Json :=
  paths.foldl (fun data path => redactField (splitDots path) data) data

def redactFields (env : RuleEnv) (fields : Json) (output : String) : Except Raised String :=
  if fields.truthy then
    match env.loads output with
    | .error .valueError => .ok output
    | .error (.other e) => .error e
    | .ok data => do env.dumps (redactAll (← fieldPaths fields) data)
  else .ok output

def noSum : Json → Raised
  | .arr _ => ⟨"TypeError", "can only concatenate list (not \"str\") to list"⟩
  | j => ⟨"TypeError", "unsupported operand type(s) for +: '" ++ j.typeName ++ "' and 'str'"⟩

def injectHeader (header : Json) (output : String) : Except Raised String :=
  match header with
  | .str text => .ok (if text = "" then output else text ++ "\n" ++ output)
  | j => if j.truthy then .error (noSum j) else .ok output

def isWrapped (overrides : Json) (toolName : String) : Except Raised Bool :=
  match overrides with
  | .obj fields =>
    match Args.get? fields toolName with
    | some (.str "prompt") => .ok false
    | _ => .ok true
  | j => .error ⟨"AttributeError", "'" ++ j.typeName ++ "' object has no attribute 'get'"⟩

def markFound (strictness : Option Json) (output : String) (found : List (String × Scanners.Severity)) :
    Except Raised String :=
  match strictness with
  | some (.str "flag") | some (.str "block") => markInjections output found
  | _ => .ok output

inductive ResponseType
  | scanInjection
  | wrapTrustBoundary
  | stripHtml
  | injectHeader
  | redactFields
  | other

def responseType (rule : Args) : ResponseType :=
  match rule.get? "type" with
  | some (.str "scan_injection") => .scanInjection
  | some (.str "wrap_trust_boundary") => .wrapTrustBoundary
  | some (.str "strip_html") => .stripHtml
  | some (.str "inject_header") => .injectHeader
  | some (.str "redact_fields") => .redactFields
  | _ => .other

structure Passage where
  injectionsFound : ℕ := 0
  output : String

section Response

variable (env : RuleEnv) (server : NamespaceMcpServer) (toolName : String)

def applyResponseRule (rule : Args) (p : Passage) : Except Raised Passage :=
  match responseType rule with
  | .scanInjection => do
    let found := Scanners.scanText env.scan p.output
    pure ⟨found.length, ← markFound (rule.get? "strictness") p.output found⟩
  | .wrapTrustBoundary => do
    let wrapped ← isWrapped server.toolTrustOverrides toolName
    pure
      (if wrapped then { p with output := wrapMcpResponse p.output server.name toolName p.injectionsFound } else p)
  | .stripHtml => .ok { p with output := stripHtml p.output }
  | .injectHeader => do
    pure { p with output := ← injectHeader ((rule.get? "text").getD (.str "")) p.output }
  | .redactFields => do
    pure { p with output := ← redactFields env ((rule.get? "fields").getD (.arr [])) p.output }
  | .other => .ok p

def toolsOf (rule : Args) : Json := (rule.get? "tools").getD (.str "*")

def evaluateResponseRules : List Args → Passage → Except Raised Passage
  | [], p => .ok p
  | rule :: rules, p => do
    if ← matchesTools toolName (toolsOf rule) then
      evaluateResponseRules rules (← applyResponseRule env server toolName rule p)
    else evaluateResponseRules rules p

end Response

/-! ### Rules that do not raise

For each step of a rule there is a condition on its entries and on the text, and a function that says what becomes
of the text; the step returns exactly under the condition, and then what the function says. -/

theorem bind_eq_ok_iff {α β : Type} {m : Except Raised α} {C : Prop} {a : α} {f : α → Except Raised β} {b : β}
    (h : ∀ a', m = .ok a' ↔ C ∧ a' = a) : (m >>= f) = .ok b ↔ C ∧ f a = .ok b := by
  cases m with
  | error e =>
    refine iff_of_false (fun hb => by cases hb) fun hb => ?_
    have := (h a).mpr ⟨hb.1, rfl⟩
    cases this
  | ok a' =>
    obtain ⟨hC, rfl⟩ := (h a').mp rfl
    exact ⟨fun hb => ⟨hC, hb⟩, fun hb => hb.2⟩

theorem bind_pure_eq_ok_iff {α β : Type} {m : Except Raised α} {C : Prop} {a : α} {f : α → β} {b : β}
    (h : ∀ a', m = .ok a' ↔ C ∧ a' = a) : (m >>= fun a' => pure (f a')) = .ok b ↔ C ∧ b = f a := by
  rw [bind_eq_ok_iff h]
  exact and_congr_right fun _ => ⟨fun hb => (Except.ok.inj hb).symm, fun hb => congrArg _ hb.symm⟩

def PatternsReadable (toolName : String) : List Json → Prop
  | [] => True
  | .str pattern :: patterns => fnmatch toolName pattern = true ∨ PatternsReadable toolName patterns
  | _ :: _ => False

def ToolsReadable (toolName : String) : Json → Prop
  | .arr patterns => PatternsReadable toolName patterns
  | .str _ => True
  | _ => False

def patternHits (toolName : String) : Json → Bool
  | .str pattern => fnmatch toolName pattern
  | _ => false

def toolsHit (toolName : String) : Json → Bool
  | .arr patterns => patterns.any (patternHits toolName)
  | j => patternHits toolName j

variable {toolName output' output : String} {b : Bool}

theorem matchesAny_eq_ok_iff {pats : List Json} : matchesAny toolName pats = .ok b ↔
      PatternsReadable toolName pats ∧ b = pats.any (patternHits toolName) := by
  induction pats with
  | nil => simp [matchesAny, PatternsReadable, eq_comm]
  | cons p pats ih =>
    cases p with
    | str pat =>
      show (if fnmatch toolName pat = true then Except.ok true else matchesAny toolName pats) = .ok b ↔ _
      cases hh : fnmatch toolName pat with
      | true => simp [PatternsReadable, patternHits, hh, eq_comm]
      | false => simp [PatternsReadable, patternHits, hh, ih]
    | _ => exact iff_of_false (fun h => by cases h) fun h => h.1

theorem matchesTools_eq_ok_iff {j : Json} :
    matchesTools toolName j = .ok b ↔ ToolsReadable toolName j ∧ b = toolsHit toolName j := by
  cases j with
  | arr pats => exact matchesAny_eq_ok_iff
  | str pat => simp [matchesTools, matchesPattern, ToolsReadable, toolsHit, patternHits, eq_comm]
  | _ => exact iff_of_false (fun h => by cases h) fun h => h.1

def IsText : Json → Prop
  | .str _ => True
  | _ => False

def HeaderFits (header : Json) : Prop := header.truthy = true → IsText header

def withHeader (header : Json) (output : String) : String :=
  match header with
  | .str text => if text = "" then output else text ++ "\n" ++ output
  | _ => output

theorem injectHeader_eq_ok_iff {hdr : Json} :
    injectHeader hdr output = .ok output' ↔ HeaderFits hdr ∧ output' = withHeader hdr output := by
  cases hdr with
  | str text => exact ⟨fun h => ⟨fun _ => trivial, (Except.ok.inj h).symm⟩, fun h => congrArg _ h.2.symm⟩
  | _ =>
    simp only [injectHeader, HeaderFits, IsText, withHeader]
    split_ifs with ht
    · exact iff_of_false (fun h => by cases h) fun h => h.1 ht
    · simp [ht, eq_comm]

def FieldsReadable : Json → Prop
  | .arr items => ∀ j ∈ items, IsText j
  | .str _ => True
  | .obj _ => True
  | _ => False

def textOf : Json → String
  | .str s => s
  | _ => ""

def pathTexts : Json → List String
  | .arr items => items.map textOf
  | .str s => s.toList.map String.singleton
  | .obj fields => fields.map Prod.fst
  | _ => []

theorem mapM_fieldPath_eq_ok_iff {its : List Json} {ps : List String} :
    its.mapM fieldPath = .ok ps ↔ (∀ j ∈ its, IsText j) ∧ ps = its.map textOf := by
  induction its generalizing ps with
  | nil => simp [pure, Except.pure, eq_comm]
  | cons j its ih =>
    rw [List.mapM_cons]
    cases j with
    | str path =>
      show (its.mapM fieldPath >>= fun rest => pure (path :: rest)) = .ok ps ↔ _
      cases hr : its.mapM fieldPath with
      | error e =>
        refine iff_of_false (fun h => by cases h) fun h => ?_
        have ha : its.mapM fieldPath = .ok (its.map textOf) :=
          ih.mpr ⟨fun j hj => h.1 j (List.mem_cons_of_mem _ hj), rfl⟩
        rw [ha] at hr
        cases hr
      | ok rest =>
        obtain ⟨ht, rfl⟩ := ih.mp hr
        show Except.ok (path :: its.map textOf) = .ok ps ↔ _
        refine ⟨fun h => ⟨List.forall_mem_cons.mpr ⟨trivial, ht⟩, (Except.ok.inj h).symm⟩, fun h => ?_⟩
        exact congrArg _ h.2.symm
    | _ =>
      refine iff_of_false (fun h => by cases h) fun h => ?_
      exact h.1 _ List.mem_cons_self

theorem fieldPaths_eq_ok_iff {fields : Json} {ps : List String} :
    fieldPaths fields = .ok ps ↔ FieldsReadable fields ∧ ps = pathTexts fields := by
  cases fields with
  | arr its => exact mapM_fieldPath_eq_ok_iff
  | str s => simp [fieldPaths, FieldsReadable, pathTexts, eq_comm]
  | obj fields => simp [fieldPaths, FieldsReadable, pathTexts, eq_comm]
  | _ => exact iff_of_false (fun h => by cases h) fun h => h.1

def Parses (env : RuleEnv) (output : String) : Prop := ∀ e, env.loads output ≠ .error (.other e)

def Writes (env : RuleEnv) (data : Json) : Prop := ∃ text, env.dumps data = .ok text

def dumped (env : RuleEnv) (data : Json) : String := (env.dumps data).toOption.getD ""

def FieldsFit (env : RuleEnv) (fields : Json) (output : String) : Prop :=
  fields.truthy = true → Parses env output ∧
    ∀ data, env.loads output = .ok data → FieldsReadable fields ∧ Writes env (redactAll (pathTexts fields) data)

def withoutFields (env : RuleEnv) (fields : Json) (output : String) : String :=
  match fields.truthy, env.loads output with
  | true, .ok data => dumped env (redactAll (pathTexts fields) data)
  | _, _ => output

theorem redactFields_eq_ok_iff {env : RuleEnv} {fs : Json} : redactFields env fs output = .ok output' ↔
      FieldsFit env fs output ∧ output' = withoutFields env fs output := by
  unfold redactFields FieldsFit withoutFields Parses
  cases htr : fs.truthy with
  | false => simp [eq_comm]
  | true =>
    cases hl : env.loads output with
    | error failure =>
      cases failure with
      | valueError => simp [eq_comm]
      | other e =>
        refine iff_of_false (fun h => by cases h) fun h => ?_
        exact (h.1 rfl).1 e rfl
    | ok data =>
      show (fieldPaths fs >>= fun ps => env.dumps (redactAll ps data)) = .ok output' ↔ _
      cases hp : fieldPaths fs with
      | error e =>
        refine iff_of_false (fun h => by cases h) fun h => ?_
        rw [fieldPaths_eq_ok_iff.mpr ⟨((h.1 rfl).2 data rfl).1, rfl⟩] at hp
        cases hp
      | ok ps =>
        obtain ⟨hr, rfl⟩ := fieldPaths_eq_ok_iff.mp hp
        show env.dumps (redactAll (pathTexts fs) data) = .ok output' ↔ _
        constructor
        · intro hd
          refine ⟨fun _ => ⟨fun e h => ?_, fun data' h => ?_⟩, ?_⟩
          · cases h
          · cases h
            exact ⟨hr, output', hd⟩
          · simp [dumped, hd, Except.toOption]
        · rintro ⟨hf, rfl⟩
          obtain ⟨text, ht⟩ := ((hf rfl).2 data rfl).2
          simp [dumped, ht, Except.toOption]

def OverridesFit : Json → Prop
  | .obj _ => True
  | _ => False

def wraps (overrides : Json) (toolName : String) : Bool :=
  match overrides with
  | .obj fields =>
    match Args.get? fields toolName with
    | some (.str "prompt") => false
    | _ => true
  | _ => true

theorem isWrapped_eq_ok_iff {ovs : Json} :
    isWrapped ovs toolName = .ok b ↔ OverridesFit ovs ∧ b = wraps ovs toolName := by
  cases ovs with
  | obj fs =>
    unfold isWrapped wraps OverridesFit
    dsimp only
    split <;> simp [eq_comm]
  | _ => exact iff_of_false (fun h => by cases h) fun h => h.1

def StrictnessFits (env : RuleEnv) (strictness : Option Json) (output : String) : Prop :=
  match strictness with
  | some (.str "flag") | some (.str "block") => Scanners.scanText env.scan output = []
  | _ => True

theorem markFound_eq_ok_iff {env : RuleEnv} {str : Option Json} :
    markFound str output (Scanners.scanText env.scan output) = .ok output' ↔
      StrictnessFits env str output ∧ output' = output := by
  have hm : markInjections output (Scanners.scanText env.scan output) = .ok output' ↔
      Scanners.scanText env.scan output = [] ∧ output' = output := by
    cases Scanners.scanText env.scan output with
    | nil => simp [markInjections, eq_comm]
    | cons found rest => simp [markInjections]
  unfold markFound StrictnessFits
  split
  · exact hm
  · exact hm
  · simp [eq_comm]

section Digestion

variable (env : RuleEnv) (server : NamespaceMcpServer) (toolName : String)

def RuleFits (rule : Args) (output : String) : Prop :=
  match responseType rule with
  | .scanInjection => StrictnessFits env (rule.get? "strictness") output
  | .wrapTrustBoundary => OverridesFit server.toolTrustOverrides
  | .injectHeader => HeaderFits ((rule.get? "text").getD (.str ""))
  | .redactFields => FieldsFit env ((rule.get? "fields").getD (.arr [])) output
  | .stripHtml | .other => True

def ruleEffect (rule : Args) (p : Passage) : Passage :=
  match responseType rule with
  | .scanInjection => { p with injectionsFound := (Scanners.scanText env.scan p.output).length }
  | .wrapTrustBoundary =>
    if wraps server.toolTrustOverrides toolName then
      { p with output := wrapMcpResponse p.output server.name toolName p.injectionsFound }
    else p
  | .stripHtml => { p with output := stripHtml p.output }
  | .injectHeader => { p with output := withHeader ((rule.get? "text").getD (.str "")) p.output }
  | .redactFields =>
    { p with output := withoutFields env ((rule.get? "fields").getD (.arr [])) p.output }
  | .other => p

def RulesFit : List Args → Passage → Prop
  | [], _ => True
  | rule :: rules, p =>
    ToolsReadable toolName (toolsOf rule) ∧
      if toolsHit toolName (toolsOf rule) then
        RuleFits env server rule p.output ∧ RulesFit rules (ruleEffect env server toolName rule p)
      else RulesFit rules p

def rulesEffect : List Args → Passage → Passage
  | [], p => p
  | rule :: rules, p =>
    if toolsHit toolName (toolsOf rule) then rulesEffect rules (ruleEffect env server toolName rule p)
    else rulesEffect rules p

variable {env server toolName}

theorem applyResponseRule_eq_ok_iff {rule : Args} {p q : Passage} :
    applyResponseRule env server toolName rule p = .ok q ↔
      RuleFits env server rule p.output ∧ q = ruleEffect env server toolName rule p := by
  have hp {q' : Passage} : Except.ok q' = (.ok q : Except Raised Passage) ↔ True ∧ q = q' := by
    rw [true_and, Except.ok.injEq, eq_comm]
  unfold applyResponseRule RuleFits ruleEffect
  cases responseType rule with
  | scanInjection => exact bind_pure_eq_ok_iff fun output' => markFound_eq_ok_iff
  | wrapTrustBoundary => exact bind_pure_eq_ok_iff fun wra => isWrapped_eq_ok_iff
  | stripHtml => exact hp
  | injectHeader => exact bind_pure_eq_ok_iff fun output' => injectHeader_eq_ok_iff
  | redactFields => exact bind_pure_eq_ok_iff fun output' => redactFields_eq_ok_iff
  | other => exact hp

theorem evaluateResponseRules_eq_ok_iff {rs : List Args} {p q : Passage} :
    evaluateResponseRules env server toolName rs p = .ok q ↔
      RulesFit env server toolName rs p ∧ q = rulesEffect env server toolName rs p := by
  induction rs generalizing p with
  | nil => exact ⟨fun h => ⟨trivial, (Except.ok.inj h).symm⟩, fun h => congrArg _ h.2.symm⟩
  | cons rule rs ih =>
    unfold evaluateResponseRules RulesFit rulesEffect
    rw [bind_eq_ok_iff fun hit => matchesTools_eq_ok_iff, and_assoc]
    refine and_congr_right fun _ => ?_
    cases toolsHit toolName (toolsOf rule) with
    | false => exact ih
    | true =>
      simp only [if_true]
      rw [bind_eq_ok_iff fun p' => applyResponseRule_eq_ok_iff, ih, and_assoc]

end Digestion

end McpworksApi.Run.Mcp
