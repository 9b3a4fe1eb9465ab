import McpworksApi.Py.Json
import McpworksApi.Py.Str

/-! The report of the sandbox runner (`run` and `_write_output` in `deploy/nsjail/execute.py`). After the user's code
the runner writes one document with the result and the captured streams; a document beyond the limit is replaced by a
shorter one. -/

namespace McpworksApi.Sandbox

open Py

def maxStreamChars : ℕ := 64 * 1024

def maxOutputJsonBytes : ℕ := 1024 * 1024

/-- How the user's code ended: with a result, as the tree that `json.dumps(default=str)` writes unless it raises; with an
`Exception`, by its class and its `str()` unless that raises; or with another exception, as `SystemExit`. -/
inductive Ending
  | returned (result : Option Json)
  | raised (errorType : String) (message : Option String)
  | exited

/-- The captured streams are missing if the code closed one of them. -/
structure Execution where
  ending : Ending
  streams : Option (String × String)
  callLog : List String := []

def truncate (text : String) (maxBytes : ℕ) (label : String) : String :=
  if text.length ≤ maxBytes then text
  else clip maxBytes text ++ "\n\n... [" ++ label ++ " truncated at " ++ toString maxBytes ++ " bytes]"

def optionalText (s : Option String) : Json := (s.map Json.str).getD .null

def report (success : Bool) (result : Json) (stdout stderr : String) (error errorType : Option String) : Args :=
  [("success", .bool success), ("result", result), ("stdout", .str stdout), ("stderr", .str stderr),
    ("error", optionalText error), ("error_type", optionalText errorType)]

def full (success : Bool) (result : Json) (stdout stderr : String) (error errorType : Option String)
    (callLog : List String) : Args :=
  report success result stdout stderr error errorType ++ [("call_log", .arr (callLog.map .str))]

def tooLarge (size : ℕ) (stdout stderr : String) : Args :=
  report false .null (truncate stdout maxStreamChars "stdout") (truncate stderr maxStreamChars "stderr")
    (some ("Output too large (" ++ toString size ++ " bytes, limit " ++ toString maxOutputJsonBytes ++ ")"))
    (some "OutputSizeError")

def size (output : Args) : ℕ := (Json.obj output).dumps.length

def writeOutput (success : Bool) (result : Option Json) (stdout stderr : String) (error errorType : Option String)
    (callLog : List String) : Option Args :=
  result.map fun result =>
    let output := full success result stdout stderr error errorType callLog
    if maxOutputJsonBytes < size output then tooLarge (size output) stdout stderr else output

/-- The fields of the document in `output.json`, if there is one. -/
def run (x : Execution) : Option Args := do
  let (success, result, error, errorType) ← match x.ending with
    | .returned result => some (true, result, none, none)
    | .raised errorType message => message.map fun message => (false, some .null, some message, some errorType)
    | .exited => none
  let (stdout, stderr) ← x.streams
  writeOutput success result (truncate stdout maxStreamChars "stdout") (truncate stderr maxStreamChars "stderr") error
    errorType x.callLog

mutual

/-- No `NaN` and no infinity, which `json.dumps` writes but JSON does not have. -/
def finite : Json → Bool
  | .float text => text ∉ ["NaN", "Infinity", "-Infinity"]
  | .arr items => finiteItems items
  | .obj fields => finiteFields fields
  | _ => true

def finiteItems : List Json → Bool
  | [] => true
  | j :: items => finite j && finiteItems items

def finiteFields : List (String × Json) → Bool
  | [] => true
  | (_, j) :: fields => finite j && finiteFields fields

end

/-- A document is left, it is JSON within the limit, and it says success only of code that ended without an exception
and whose result it holds. -/
def Reports (x : Execution) : Prop :=
  ∃ doc, run x = some doc ∧ finiteFields doc = true ∧ size doc ≤ maxOutputJsonBytes ∧
    (Args.get? doc "success" = some (.bool true) →
      ∃ result, x.ending = .returned (some result) ∧ Args.get? doc "result" = some result)

/-- How many characters JSON writes for one: two for a short escape, six for a `\\u` escape, and two of those outside of
the basic plane. -/
def escapedLength (c : Char) : ℕ :=
  if c = '"' ∨ c = '\\' ∨ c = '\n' ∨ c = '\r' ∨ c = '\t' ∨ c.toNat = 8 ∨ c.toNat = 12 then 2
  else if 32 ≤ c.toNat ∧ c.toNat ≤ 126 then 1
  else if c.toNat < 0x10000 then 6
  else 12

def escaped (cs : List Char) : ℕ := (cs.map escapedLength).sum

/-- The escaped length of what is kept of a stream: all of it, or its beginning and a notice of 41 characters. -/
def keptLength (stream : String) : ℕ :=
  if stream.length ≤ maxStreamChars then escaped stream.toList
  else escaped (stream.toList.take maxStreamChars) + 41

/-- The length of the first document without the streams and the call log, for an ending that can be written. -/
def Ending.length? : Ending → Option ℕ
  | returned result => result.map fun result => 106 + result.dumps.length
  | raised errorType message => message.map fun message => 107 + escaped message.toList + escaped errorType.toList
  | exited => none

/-- The result holds no `NaN` and no infinity. -/
def Ending.Finite : Ending → Prop
  | returned (some result) => finite result = true
  | _ => True

/-- The first document is JSON of at most the allowed length, or it is longer and the two streams leave room for the
148 characters of the replacement and for the length that it names. -/
def Fits (ending : Ending) (streams length : ℕ) : Prop :=
  if length ≤ maxOutputJsonBytes then ending.Finite
  else 148 + (toString length).length + streams ≤ maxOutputJsonBytes

theorem length_escapeChar (c : Char) : (escapeChar c).length = escapedLength c := by
  unfold escapeChar escapedLength
  dsimp only
  split_ifs <;> first | rfl | tauto

theorem length_dumpsString (s : String) : (dumpsString s).length = 2 + escaped s.toList := by
  unfold dumpsString escaped
  rw [String.length_ofList, List.length_append, List.length_cons, List.length_flatMap, List.length_singleton,
    funext length_escapeChar]
  omega

theorem escaped_append (cs ds : List Char) : escaped (cs ++ ds) = escaped cs + escaped ds := by
  unfold escaped
  rw [List.map_append, List.sum_append]

theorem length_notice {label : String} (h : label = "stdout" ∨ label = "stderr") :
    escaped ("\n\n... [" ++ label ++ " truncated at " ++ toString maxStreamChars ++ " bytes]").toList = 41 := by
  rcases h with rfl | rfl <;> decide +kernel

theorem escaped_truncate (stream : String) {label : String} (h : label = "stdout" ∨ label = "stderr") :
    escaped (truncate stream maxStreamChars label).toList = keptLength stream := by
  unfold truncate keptLength
  split
  · rfl
  · have hn := length_notice h
    simp only [clip, String.toList_append, String.toList_ofList, escaped_append] at hn ⊢
    omega

/-- The replacement truncates streams that have been truncated before, and changes nothing. -/
theorem truncate_truncate (stream label : String) :
    truncate (truncate stream maxStreamChars label) maxStreamChars label = truncate stream maxStreamChars label := by
  by_cases h : stream.length ≤ maxStreamChars
  · have ht : truncate stream maxStreamChars label = stream := if_pos h
    rw [ht, ht]
  · have hl : stream.toList.length = stream.length := String.length_toList
    have ht : ∀ text : String, ¬ text.length ≤ maxStreamChars → truncate text maxStreamChars label =
        clip maxStreamChars text ++ ("\n\n... [" ++ label ++ " truncated at " ++
          toString maxStreamChars ++ " bytes]") := by
      intro text hn
      rw [truncate, if_neg hn]
      simp only [String.append_assoc]
    have hc : (clip maxStreamChars stream).length = maxStreamChars := by
      rw [clip, String.length_ofList, List.length_take]
      omega
    have hp : 0 < ("\n\n... [" ++ label ++ " truncated at " ++ toString maxStreamChars ++ " bytes]").length := by
      simp only [String.length_append]
      have : "\n\n... [".length = 7 := by decide
      omega
    have hcl : ∀ notice : String, clip maxStreamChars (clip maxStreamChars stream ++ notice) =
      clip maxStreamChars stream := by
      intro notice
      rw [clip, String.toList_append, List.take_append_of_le_length (by rw [String.length_toList, hc]), clip,
        String.toList_ofList, List.take_take, min_self]
    rw [ht stream h, ht _ (by rw [String.length_append, hc]; omega), hcl]

theorem length_intercalate (s : String) (l : List String) :
    (", ".intercalate (s :: l)).length = s.length + (l.map fun s => 2 + s.length).sum := by
  induction l generalizing s with
  | nil => simp
  | cons t l ih =>
    have hc : ", ".length = 2 := by decide
    rw [String.intercalate_cons_cons, String.length_append, String.length_append, ih, hc,
      List.map_cons, List.sum_cons]
    omega

theorem size_report (success : Bool) (result : Json) (stdout stderr : String) (error errorType : Option String)
    (rest : Args) :
    size (report success result stdout stderr error errorType ++ rest) =
      80 + (Json.bool success).dumps.length + result.dumps.length + escaped stdout.toList + escaped stderr.toList +
        (optionalText error).dumps.length + (optionalText errorType).dumps.length +
        ((dumpsFields rest).map fun field => 2 + field.length).sum := by
  have hk : ∀ key : String, ∀ j : Json, (dumpsString key ++ ": " ++ j.dumps).length =
      4 + escaped key.toList + j.dumps.length := by
    intro key j
    rw [String.length_append, String.length_append, length_dumpsString]
    change 2 + _ + 2 + _ = _
    omega
  have hs : ∀ s : String, (Json.str s).dumps.length = 2 + escaped s.toList := length_dumpsString
  have ho : ∀ fields : Args, size fields = ("\x7b" ++ ", ".intercalate (dumpsFields fields) ++ "\x7d").length := by
    intro fields
    rw [size, Json.dumps]
  rw [ho]
  simp only [report, List.cons_append, List.nil_append, dumpsFields, String.length_append,
    length_intercalate, List.map_cons,
    List.sum_cons, hs, hk]
  have hf : escaped "success".toList = 7 ∧ escaped "result".toList = 6 ∧ escaped "stdout".toList = 6 ∧
      escaped "stderr".toList = 6 ∧ escaped "error".toList = 5 ∧ escaped "error_type".toList = 10 := by decide
  obtain ⟨h₁, h₂, h₃, h₄, h₅, h₆⟩ := hf
  have hb : "\x7b".length = 1 ∧ "\x7d".length = 1 := by decide
  rw [h₁, h₂, h₃, h₄, h₅, h₆, hb.1, hb.2]
  omega

theorem size_full (success : Bool) (result : Json) (stdout stderr : String) (error errorType : Option String)
    (callLog : List String) : size (full success result stdout stderr error errorType callLog) =
      94 + (Json.bool success).dumps.length + result.dumps.length + escaped stdout.toList + escaped stderr.toList +
        (optionalText error).dumps.length + (optionalText errorType).dumps.length +
        (Json.arr (callLog.map .str)).dumps.length := by
  have hc : escaped "call_log".toList = 8 := by decide
  have hs : ": ".length = 2 := by decide
  rw [full, size_report, dumpsFields, dumpsFields, List.map_singleton, List.sum_singleton, String.length_append,
    String.length_append, length_dumpsString, hc, hs]
  omega

theorem escaped_toString (n : ℕ) : escaped (toString n).toList = (toString n).length := by
  have hd : ∀ c ∈ (toString n).toList, escapedLength c = 1 := by
    intro c hc
    have hc : c ∈ (Nat.repr n).toList := hc
    rw [Nat.toList_repr] at hc
    have hd := Nat.isDigit_of_mem_toDigits (by decide) (by decide) hc
    have hr : 48 ≤ c.toNat ∧ c.toNat ≤ 57 := by
      rw [Char.isDigit, Bool.and_eq_true, decide_eq_true_iff, decide_eq_true_iff] at hd
      exact ⟨UInt32.le_iff_toNat_le.mp hd.1, UInt32.le_iff_toNat_le.mp hd.2⟩
    unfold escapedLength
    rw [if_neg, if_pos (by omega)]
    rintro (h | h | h | h | h | h | h) <;> first | omega | (subst h; revert hr; decide)
  rw [escaped, List.map_congr_left hd, List.map_const', List.sum_replicate, smul_eq_mul, mul_one,
    String.length_toList]

theorem size_tooLarge (n : ℕ) (stdout stderr : String) :
    size (tooLarge n (truncate stdout maxStreamChars "stdout") (truncate stderr maxStreamChars "stderr")) =
      148 + (toString n).length + (keptLength stdout + keptLength stderr) := by
  have hr := size_report false .null (truncate stdout maxStreamChars "stdout")
    (truncate stderr maxStreamChars "stderr")
    (some ("Output too large (" ++ toString n ++ " bytes, limit " ++ toString maxOutputJsonBytes ++ ")"))
    (some "OutputSizeError") []
  have hs : ∀ s : String, (optionalText (some s)).dumps.length = 2 + escaped s.toList := length_dumpsString
  have hm : escaped "Output too large (".toList = 18 ∧
      escaped (" bytes, limit " ++ toString maxOutputJsonBytes ++ ")").toList = 22 ∧
      escaped "OutputSizeError".toList = 15 := by decide +kernel
  have hb : (Json.bool false).dumps.length = 5 ∧ Json.null.dumps.length = 4 := by decide +kernel
  rw [List.append_nil, hs, hs, String.append_assoc, String.append_assoc, String.append_assoc, String.toList_append,
    String.toList_append, escaped_append, escaped_append, escaped_toString, escaped_truncate _ (.inl rfl),
    escaped_truncate _ (.inr rfl), hb.1, hb.2, hm.2.2] at hr
  rw [String.append_assoc] at hm
  rw [hm.1, hm.2.1] at hr
  rw [tooLarge, truncate_truncate, truncate_truncate]
  simp only [String.append_assoc]
  rw [hr]
  change 80 + 5 + 4 + _ + _ + _ + _ + 0 = _
  omega

/-- The document that `run` writes first, and how long it is. -/
theorem run_eq (x : Execution) {stdout stderr : String} (hx : x.streams = some (stdout, stderr)) :
    (x.ending.length? = none ∧ run x = none) ∨ ∃ doc n, x.ending.length? = some n ∧
      size doc = n + (keptLength stdout + keptLength stderr) + (Json.arr (x.callLog.map .str)).dumps.length ∧
      (finiteFields doc = true ↔ x.ending.Finite) ∧
      (Args.get? doc "success" = some (.bool true) →
        ∃ result, x.ending = .returned (some result) ∧ Args.get? doc "result" = some result) ∧
      run x = some (if maxOutputJsonBytes < size doc then
        tooLarge (size doc) (truncate stdout maxStreamChars "stdout") (truncate stderr maxStreamChars "stderr")
        else doc) := by
  have hb : (Json.bool false).dumps.length = 5 ∧ (Json.bool true).dumps.length = 4 ∧ Json.null.dumps.length = 4 := by
    decide +kernel
  have hs : ∀ s : String, (optionalText (some s)).dumps.length = 2 + escaped s.toList := length_dumpsString
  have hn : (optionalText none).dumps.length = 4 := hb.2.2
  have hlog : ∀ log : List String, finiteItems (log.map .str) = true := by
    intro log
    induction log with
    | nil => rfl
    | cons s log ih => exact ih
  obtain ⟨ending, streams, log⟩ := x
  cases hx
  rcases ending with (_ | result) | ⟨type, _ | message⟩ | _
  · exact .inl ⟨rfl, rfl⟩
  · refine .inr ⟨full true result _ _ none none log, _, rfl, ?_, ?_, fun _ => ⟨result, rfl, rfl⟩, rfl⟩
    · rw [size_full, escaped_truncate _ (.inl rfl), escaped_truncate _ (.inr rfl), hb.2.1, hn]
      dsimp only
      omega
    · simp only [full, report, List.cons_append, List.nil_append, finiteFields, finite, optionalText,
        Option.map_none, Option.getD_none, hlog, Bool.true_and, Bool.and_true, Ending.Finite]
  · exact .inl ⟨rfl, rfl⟩
  · refine .inr ⟨full false .null _ _ (some message) (some type) log, _, rfl, ?_, ?_, nofun, rfl⟩
    · rw [size_full, escaped_truncate _ (.inl rfl), escaped_truncate _ (.inr rfl), hb.1, hb.2.2, hs, hs]
      dsimp only
      omega
    · simp only [full, report, List.cons_append, List.nil_append, finiteFields, finite, optionalText,
        Option.map_some, Option.getD_some, hlog, Bool.and_true, Ending.Finite]
  · exact .inl ⟨rfl, rfl⟩

/-- The runner reports exactly when both streams are open, the result or the exception can be written, and what is
written is short enough when it is escaped. -/
theorem reports_iff (x : Execution) : Reports x ↔ ∃ stdout stderr n, x.streams = some (stdout, stderr) ∧
    x.ending.length? = some n ∧ Fits x.ending (keptLength stdout + keptLength stderr)
      (n + (keptLength stdout + keptLength stderr) + (Json.arr (x.callLog.map .str)).dumps.length) := by
  unfold Reports
  rcases hx : x.streams with _ | ⟨stdout, stderr⟩
  · have hr : run x = none := by
      unfold run
      rw [hx]
      rcases x.ending with (_ | result) | ⟨type, _ | message⟩ | _ <;> rfl
    simp [hr]
  rcases run_eq x hx with ⟨hn, hr⟩ | ⟨doc, n, hn, hs, hf, ho, hr⟩
  · simp [hr, hn]
  have hl : Reports x ↔ Fits x.ending (keptLength stdout + keptLength stderr) (size doc) := by
    unfold Reports Fits
    simp only [hr, Option.some.injEq, exists_eq_left']
    by_cases hd : maxOutputJsonBytes < size doc
    · rw [if_pos hd, if_neg (Nat.not_le.mpr hd), size_tooLarge]
      exact ⟨fun h => h.2.1, fun h => ⟨rfl, h, nofun⟩⟩
    · rw [if_neg hd, if_pos (Nat.not_lt.mp hd), ← hf]
      exact ⟨fun h => h.1, fun h => ⟨h, Nat.not_lt.mp hd, ho⟩⟩
  rw [hs] at hl
  refine hl.trans ⟨fun h => ⟨stdout, stderr, n, rfl, hn, h⟩, ?_⟩
  rintro ⟨_, _, m, hst, hm, h⟩
  cases hst
  rw [hn] at hm
  cases hm
  exact h

/-- `sys.exit()` leaves no document. -/
theorem exited_unreported : ¬Reports { ending := .exited, streams := some ("", "") } := by
  rintro ⟨doc, hr, -⟩
  cases hr

end McpworksApi.Sandbox
