import McpworksApi.Models.Namespaces
import McpworksApi.Run.OutputSanitizer

/-! The security scanners (`core/scanners`) and the pipeline that runs them (`core/scanner_pipeline.py`). The builtin
scanners look for injected instructions, redact secrets and mark untrusted output; they pass or flag a text. -/

namespace McpworksApi.Run.Scanners

open Models Py

inductive ScanAction
  | pass
  | flag
  | block
  deriving DecidableEq, Repr

structure ScanContext where
  direction : ScanDirection
  namespaceName : String
  service : String
  function : String
  executionId : String := ""
  outputTrust : String := "prompt"

structure ScanVerdict where
  action : ScanAction
  score : String
  reason : Json
  scannerName : String

def passed (reason scannerName : String) : ScanVerdict := ⟨.pass, "0.0", .str reason, scannerName⟩

inductive HttpFailure
  | timeout
  | other (message : String)

/-- What the scanners use from outside: the answers of webhooks and what Python callables return or raise
(`none` when the import fails; an exception without a text is one whose `__str__` raises in turn), `float()` of
a text, and of the Unicode and base64 tables what the pattern scanner needs. -/
structure ScanEnv where
  post : ScannerEntry → String → ScanContext → Except HttpFailure Json
  callPython : ScannerEntry → String → ScanContext → Option (Except (Option String) Json)
  parseFloat : String → Option String
  nfkc : String → String
  /-- `base64.b64decode(block).decode("utf-8", errors="ignore")`, unless it raises. -/
  decodeBase64 : List Char → Option String
  isPrintable : String → Bool

inductive Severity
  | high
  | medium
  | low
  deriving DecidableEq, Repr

def Severity.score : Severity → ℕ
  | .high => 9
  | .medium => 6
  | .low => 3

section Patterns

open Regex

def words : List String → Regex
  | [] => empty
  | [w] => lit w
  | w :: ws => all [lit w, plus space, words ws]

def anyOf (ws : List String) : Regex := any (ws.map lit)

def plural (w : String) : Regex := all [lit w, opt (lit "s")]

def lineBreak : Regex := alt lineStart (lit "\n")

def base64Char (c : Char) : Bool := isAlnum c || c = '+' || c = '/'

def quoteMark : Regex := one fun c => c = '\'' || c = '"'

def injectionPatterns : List (String × Regex × Severity) :=
  [("instruction_override",
      all
        [anyOf ["ignore", "disregard", "forget", "override", "bypass", "skip"], plus space,
          opt (all [lit "all", plus space]),
          anyOf ["previous", "prior", "above", "earlier", "preceding", "original"], plus space,
          any
            [plural "instruction", plural "prompt", plural "rule", plural "guideline", plural "direction",
              lit "context"]], .high),
    ("role_reassignment",
      any
        [words ["you", "are", "now"], words ["act", "as"],
          all
            [lit "pretend", plus space,
              alt (words ["to", "be"]) (all [lit "you", alt (lit "'re") (all [plus space, lit "are"])])],
          words ["assume", "the", "role"], words ["from", "now", "on", "you", "are"],
          all [words ["switch", "to"], plus space, alt (lit "being") (words ["acting", "as"])]], .high),
    ("system_prompt_injection",
      all
        [lineBreak, star space,
          any
            [all [lit "SYSTEM", star space, lit ":"], lit "[SYSTEM]", all [lit "###", star space, lit "System"],
              lit "<|system|>", lit "<system>", all [words ["System", "prompt"], star space, lit ":"]]], .high),
    ("delimiter_injection",
      all
        [lineBreak, any [atLeast 3 (lit "-"), atLeast 3 (lit "="), lit "```"], star space, lit "\n", star space,
          any
            [all [lit "you", plus space, anyOf ["are", "must", "should", "will", "need"]], lit "ignore",
              lit "override", all [lit "new", plus space, plural "instruction"],
              all [anyOf ["SYSTEM", "ADMIN", "ROOT"], star space, lit ":"]]], .medium),
    ("authority_claim",
      all
        [lineBreak, star space,
          any
            [lit "IMPORTANT", lit "URGENT", lit "CRITICAL", words ["ADMIN", "NOTICE"],
              all [lit "SECURITY", plus space, anyOf ["ALERT", "UPDATE", "NOTICE"]], lit "AUTHORIZED",
              lit "OFFICIAL"], star space, lit ":", star space,
          anyOf ["ignore", "override", "change", "update", "modify", "forward", "send", "delete", "execute"]],
      .medium),
    ("output_manipulation",
      any
        [words ["repeat", "after", "me"], words ["say", "exactly"],
          all [lit "respond", plus space, opt (all [lit "only", plus space]), lit "with"],
          all [lit "output", plus space, alt (lit "only") (lit "exactly")],
          all
            [lit "your", plus space, opt (all [lit "only", plus space]), lit "response", plus space,
              anyOf ["should", "must", "will"], plus space, lit "be"]], .medium),
    ("base64_obfuscation",
      all
        [anyOf ["decode", "base64", "atob"], star space, lit "(", star space, quoteMark,
          atLeast 20 (one base64Char), upTo 2 (lit "="), quoteMark], .low),
    ("indirect_instruction",
      any
        [all [words ["when", "you"], plus space, anyOf ["see", "read", "encounter", "process"],
          plus space, lit "this"],
          all
            [lit "if", plus space,
              alt (lit "this") (all [lit "the", plus space, alt (lit "previous") (lit "above")]), plus space,
              anyOf ["message", "text", "content"], plus space,
              any [plural "contain", plural "include", plural "mention"]],
          all
            [words ["upon", "reading", "this"], star space, opt (lit ","), star space, lit "you", plus space,
              anyOf ["must", "should", "will"]]], .low)]

def base64Block : Regex := all [atLeast 20 (char base64Char), upTo 2 (char (· = '='))]

end Patterns

def zeroWidth (c : Char) : Bool := c.toNat ∈ [0x200b, 0x200c, 0x200d, 0xfeff, 0xad, 0x2060]

def normalizeText (env : ScanEnv) (text : String) : String :=
  let visible := (env.nfkc text).toList.filter fun c => !zeroWidth c
  let blanks := Regex.plus (.char fun c => c = ' ' || c = '\t')
  let result := (blanks.subn [' '] visible).1
  let decoded := ((base64Block.finditer result).filterMap env.decodeBase64).filter fun d =>
    5 < d.length && env.isPrintable d
  if decoded = [] then String.ofList result else String.ofList result ++ "\n" ++ "\n".intercalate decoded

def scanText (env : ScanEnv) (text : String) : List (String × Severity) :=
  if text = "" then []
  else
    let normalized := (normalizeText env text).toList
    (injectionPatterns.flatMap fun p => (p.2.1.finditer normalized).map fun _ => (p.1, p.2.2)).take 50

def patternVerdict (env : ScanEnv) (content : String) : ScanVerdict :=
  match scanText env content with
  | [] => passed "no injection patterns detected" "pattern_scanner"
  | found =>
    let score := (found.map fun m => m.2.score).foldl max 0
    ⟨.flag, "0." ++ toString score,
      .str ("injection patterns detected: " ++ ", ".intercalate (found.map Prod.fst).dedup), "pattern_scanner"⟩

def secretScan (content : String) : String × ScanVerdict :=
  let r := OutputSanitizer.scrubSecrets content []
  if 0 < r.2 then (r.1, ⟨.flag, "0.95", .str (toString r.2 ++ " secret(s) redacted"), "secret_scanner"⟩)
  else (content, passed "no secrets detected" "secret_scanner")

def wrapUntrusted (ctx : ScanContext) (content : String) : String :=
  "[UNTRUSTED_OUTPUT source=\"" ++ ctx.service ++ "." ++ ctx.function ++ "\" trust=\"data\"]\n" ++ content ++
    "\n[/UNTRUSTED_OUTPUT]"

def trustBoundaryScan (ctx : ScanContext) (content : String) : String × ScanVerdict :=
  if ctx.outputTrust = "data" then (wrapUntrusted ctx content,
    passed "trust boundary markers applied" "trust_boundary")
  else (content, passed "trusted output, no wrapping" "trust_boundary")

def actionOf : Option Json → ScanAction
  | some (.str "flag") => .flag
  | some (.str "block") => .block
  | _ => .pass

def floatOf (env : ScanEnv) : Json → Except String String
  | .int n => .ok (toString n ++ ".0")
  | .float text => .ok text
  | .bool b => .ok (if b then "1.0" else "0.0")
  | .str s =>
    match env.parseFloat s with
    | some text => .ok text
    | none => .error ("could not convert string to float: " ++ Py.repr s)
  | j => .error ("float() argument must be a string or a real number, not '" ++ j.typeName ++ "'")

def replyVerdict (env : ScanEnv) (entry : ScannerEntry) (fields : Args) : Except String ScanVerdict := do
  let score ← floatOf env ((fields.get? "score").getD (.float "0.0"))
  pure ⟨actionOf (fields.get? "action"), score, (fields.get? "reason").getD (.str ""), entry.name⟩

def orSkipped (what : String) (entry : ScannerEntry) : Except String ScanVerdict → ScanVerdict
  | .ok verdict => verdict
  | .error message => passed (what ++ " error: " ++ clip 100 message ++ " — skipped") entry.name

def webhookVerdict (env : ScanEnv) (entry : ScannerEntry) : Except HttpFailure Json → ScanVerdict
  | .error .timeout => passed ("webhook timeout (" ++ toString entry.config.timeoutMs ++ "ms) — skipped") entry.name
  | .error (.other message) => orSkipped "webhook" entry (.error message)
  | .ok (.obj fields) => orSkipped "webhook" entry (replyVerdict env entry fields)
  | .ok j => orSkipped "webhook" entry (.error ("'" ++ j.typeName ++ "' object has no attribute 'get'"))

/-- What comes of an entry: no scanner is found for it, the scanner raises, or it gives a verdict. -/
inductive Scan
  | unresolved
  | raised
  | completed (content : String) (verdict : ScanVerdict)

def pythonScan (env : ScanEnv) (entry : ScannerEntry) (content : String) : Option (Except (Option String) Json) → Scan
  | none => .completed content (passed ("scanner unavailable (import failed: " ++
      entry.config.module ++ ")") entry.name)
  | some (.error none) => .raised
  | some (.error (some message)) => .completed content (orSkipped "scanner" entry (.error message))
  | some (.ok (.obj fields)) => .completed content (orSkipped "scanner" entry (replyVerdict env entry fields))
  | some (.ok j) => .completed content (passed ("scanner returned non-dict: " ++ j.typeName) entry.name)

def scanAndTransform (env : ScanEnv) (entry : ScannerEntry) (ctx : ScanContext) (content : String) : Scan :=
  match entry.type with
  | .builtin =>
    match entry.name with
    | "pattern_scanner" => .completed content (patternVerdict env content)
    | "secret_scanner" => .completed (secretScan content).1 (secretScan content).2
    | "trust_boundary" => .completed (trustBoundaryScan ctx content).1 (trustBoundaryScan ctx content).2
    | _ => .unresolved
  | .webhook => .completed content (webhookVerdict env entry (env.post entry content ctx))
  | .python => pythonScan env entry content (env.callPython entry content ctx)
  | .unknown => .unresolved

def defaultPipeline : ScannerPipeline where
  scanners :=
    [{ id := "default-pattern", type := .builtin, name := "pattern_scanner", order := 1 },
      { id := "default-secret", type := .builtin, name := "secret_scanner", order := 2 },
      { id := "default-trust", type := .builtin, name := "trust_boundary", order := 3 }]

def applies (ctx : ScanContext) (entry : ScannerEntry) : Bool :=
  entry.enabled && (entry.direction = .both || entry.direction = ctx.direction)

/-- The content and the verdicts that the scanners leave, and whether every scanner raised (`all_errored`). -/
structure Scanned where
  content : String
  verdicts : List ScanVerdict := []
  allErrored : Bool := true

def scanAll (env : ScanEnv) (ctx : ScanContext) : List ScannerEntry → String → Scanned
  | [], content => { content }
  | entry :: entries, content =>
    if applies ctx entry then
      match scanAndTransform env entry ctx content with
      | .unresolved => scanAll env ctx entries content
      | .raised =>
        let later := scanAll env ctx entries content
        { later with verdicts := passed "scanner error — skipped" entry.name :: later.verdicts }
      | .completed content verdict =>
        if verdict.action = .block then { content, verdicts := [verdict], allErrored := false }
        else
          let later := scanAll env ctx entries content
          { later with verdicts := verdict :: later.verdicts, allErrored := false }
    else scanAll env ctx entries content

def ScanAction.severity : ScanAction → ℕ
  | .pass => 0
  | .flag => 1
  | .block => 2

def deciding : List ScanVerdict → Option ScanVerdict
  | [] => none
  | v :: vs =>
    match deciding vs with
    | none => some v
    | some u => if v.action.severity < u.action.severity then some u else some v

structure PipelineResult where
  finalAction : ScanAction
  finalScore : String
  verdicts : List ScanVerdict
  modifiedContent : Option String

def evaluatePipeline (env : ScanEnv) (content : String) (ctx : ScanContext) (pipeline : Option ScannerPipeline) :
    PipelineResult :=
  let config := pipeline.getD defaultPipeline
  let r := scanAll env ctx (config.scanners.mergeSort (·.order ≤ ·.order)) content
  let errored := r.allErrored && !r.verdicts.isEmpty
  { finalAction :=
      if errored then (if config.failClosed then .block else .pass)
      else ((deciding r.verdicts).map (·.action)).getD .pass
    finalScore :=
      if errored then (if config.failClosed then "1.0" else "0.0")
      else ((deciding r.verdicts).map (·.score)).getD "0.0"
    verdicts := r.verdicts
    modifiedContent := if r.content ≠ content then some r.content else none }

section Verdicts

variable {env : ScanEnv} {ctx : ScanContext} {ents : List ScannerEntry} {entry : ScannerEntry} {cont : String}

def External (entry : ScannerEntry) : Prop := entry.type = .webhook ∨ entry.type = .python

instance (entry : ScannerEntry) : Decidable (External entry) :=
  inferInstanceAs (Decidable (entry.type = .webhook ∨ entry.type = .python))

theorem deciding_ne_none {vs : List ScanVerdict} (h : vs ≠ []) : ∃ v, deciding vs = some v := by
  cases vs with
  | nil => exact absurd rfl h
  | cons u vs =>
    rw [deciding]
    cases deciding vs with
    | none => exact ⟨u, rfl⟩
    | some d => exact ⟨_, (apply_ite some _ _ _).symm⟩

theorem deciding_spec {vs : List ScanVerdict} {v : ScanVerdict} (h : deciding vs = some v) :
    v ∈ vs ∧ ∀ u ∈ vs, u.action.severity ≤ v.action.severity := by
  induction vs generalizing v with
  | nil => cases h
  | cons u vs ih =>
    rw [deciding] at h
    rw [List.forall_mem_cons]
    cases hd : deciding vs with
    | none =>
      obtain rfl : vs = [] := by
        by_contra hne
        obtain ⟨w, hw⟩ := deciding_ne_none hne
        cases hd.symm.trans hw
      rw [hd] at h
      obtain rfl := Option.some.inj h
      simp
    | some d =>
      obtain ⟨hm, hle⟩ := ih hd
      rw [hd] at h
      dsimp only at h
      split at h
      · obtain rfl := Option.some.inj h
        exact ⟨List.mem_cons_of_mem _ hm, by omega, hle⟩
      · obtain rfl := Option.some.inj h
        exact ⟨List.mem_cons_self, le_rfl, fun w hw => (hle w hw).trans (by omega)⟩

theorem deciding_of_block {vs : List ScanVerdict} (h : ∃ v ∈ vs, v.action = .block) :
    ∃ v, deciding vs = some v ∧ v.action = .block := by
  obtain ⟨u, hu, hb⟩ := h
  obtain ⟨v, hv⟩ := deciding_ne_none (List.ne_nil_of_mem hu)
  refine ⟨v, hv, ?_⟩
  have hle := (deciding_spec hv).2 u hu
  rw [hb] at hle
  cases ha : v.action with
  | block => rfl
  | _ => simp [ha, ScanAction.severity] at hle

theorem decided_block_iff {vs : List ScanVerdict} :
    ((deciding vs).map (·.action)).getD .pass = .block ↔ ∃ v ∈ vs, v.action = .block := by
  constructor
  · intro h
    cases hd : deciding vs with
    | none =>
      rw [hd] at h
      cases h
    | some v =>
      rw [hd] at h
      exact ⟨v, (deciding_spec hd).1, h⟩
  · intro h
    obtain ⟨v, hd, hb⟩ := deciding_of_block h
    rw [hd]
    exact hb

theorem patternVerdict_ne_block : (patternVerdict env cont).action ≠ .block := by
  rw [patternVerdict]
  split <;> simp [passed]

theorem secretScan_ne_block : (secretScan cont).2.action ≠ .block := by
  rw [secretScan]
  split <;> simp [passed]

theorem trustBoundaryScan_ne_block : (trustBoundaryScan ctx cont).2.action ≠ .block := by
  rw [trustBoundaryScan]
  split <;> simp [passed]

theorem builtin_cases (env : ScanEnv) (ctx : ScanContext) (cont : String) (he : ¬External entry) :
    scanAndTransform env entry ctx cont = .unresolved ∨
      ∃ text v, scanAndTransform env entry ctx cont = .completed text v ∧ v.action ≠ .block := by
  unfold scanAndTransform
  split
  · split
    · exact .inr ⟨_, _, rfl, patternVerdict_ne_block⟩
    · exact .inr ⟨_, _, rfl, secretScan_ne_block⟩
    · exact .inr ⟨_, _, rfl, trustBoundaryScan_ne_block⟩
    · exact .inl rfl
  · rename_i ht
    exact absurd (.inl ht) he
  · rename_i ht
    exact absurd (.inr ht) he
  · exact .inl rfl

/-- The builtin scanners neither block nor raise. -/
theorem scanAll_builtin (env : ScanEnv) (cont : String) (h : ∀ e ∈ ents, applies ctx e = true → ¬External e) :
    (∀ v ∈ (scanAll env ctx ents cont).verdicts, v.action ≠ .block) ∧
      ((scanAll env ctx ents cont).allErrored = true → (scanAll env ctx ents cont).verdicts = []) := by
  induction ents generalizing cont with
  | nil => exact ⟨nofun, fun _ => rfl⟩
  | cons e ents ih =>
    have hl := fun e' he' => h e' (List.mem_cons_of_mem e he')
    rw [scanAll]
    split
    · rename_i ha
      rcases builtin_cases env ctx cont (h e List.mem_cons_self ha) with hs | ⟨text, v, hs,
        hne⟩ <;> rw [hs] <;> dsimp only
      · exact ih _ hl
      · rw [if_neg hne]
        exact ⟨List.forall_mem_cons.mpr ⟨hne, (ih _ hl).1⟩, nofun⟩
    · exact ih _ hl

theorem not_blocks_of_builtin {pipe : Option ScannerPipeline}
    (h : ∀ e ∈ (pipe.getD defaultPipeline).scanners, e.enabled = true → ¬External e) :
    (evaluatePipeline env cont ctx pipe).finalAction ≠ .block := by
  have hen : ∀ e ∈ (pipe.getD defaultPipeline).scanners.mergeSort (·.order ≤ ·.order), applies ctx e = true →
      ¬External e := by
    intro e he ha
    rw [applies, Bool.and_eq_true] at ha
    exact h e (List.mem_mergeSort.mp he) ha.1
  obtain ⟨hne, her⟩ := scanAll_builtin env cont hen
  unfold evaluatePipeline
  dsimp only
  rw [if_neg (by simpa using her)]
  intro hb
  obtain ⟨v, hv, hvb⟩ := decided_block_iff.mp hb
  exact hne v hv hvb

end Verdicts

end McpworksApi.Run.Scanners
