import McpworksApi.Py.Json
import McpworksApi.Py.Regex

/-! The path expressions of procedure steps (`services/jsonpath.py`): names and indices after `$.`,
looked up one after the other. Whatever stands between two segments is skipped; only the
validator looks at it. An index that `int` refuses raises `ValueError`, which no caller expects. -/

namespace McpworksApi.Services.JsonPath

open Py

def decimalZeros : List ℕ :=
  [0x30, 0x660, 0x6F0, 0x7C0, 0x966, 0x9E6, 0xA66, 0xAE6, 0xB66, 0xBE6, 0xC66, 0xCE6, 0xD66, 0xDE6,
    0xE50, 0xED0, 0xF20,
    0x1040, 0x1090, 0x17E0, 0x1810, 0x1946, 0x19D0, 0x1A80, 0x1A90, 0x1B50, 0x1BB0, 0x1C40, 0x1C50,
      0xA620, 0xA8D0, 0xA900,
    0xA9D0, 0xA9F0, 0xAA50, 0xABF0, 0xFF10, 0x104A0, 0x10D30, 0x11066, 0x110F0, 0x11136, 0x111D0, 0x112F0, 0x11450,
    0x114D0, 0x11650, 0x116C0, 0x11730, 0x118E0, 0x11950, 0x11C50, 0x11D50, 0x11DA0, 0x16A60,
      0x16AC0, 0x16B50, 0x1D7CE,
    0x1D7D8, 0x1D7E2, 0x1D7EC, 0x1D7F6, 0x1E140, 0x1E2F0, 0x1E950, 0x1FBF0]

def decimal (c : Char) : Option ℕ :=
  (decimalZeros.find? fun z => z ≤ c.toNat ∧ c.toNat < z + 10).map (c.toNat - ·)

def isNameStart (c : Char) : Bool := c.isAlpha || c = '_'

def isNameChar (c : Char) : Bool := c.isAlpha || c.isDigit || c = '_' || c = '-'

def namePattern : Regex := .seq (.char isNameStart) (.star (.char isNameChar))

def segmentPattern : Regex :=
  .alt namePattern
    (.all [.char (· = '['), .plus (.char fun c => (decimal c).isSome), .char (· = ']')])

inductive Segment
  | field (name : String)
  | index (i : ℕ)
  deriving DecidableEq

def toSegment : List Char → Segment
  | '[' :: s => .index (s.foldl (fun n c => (decimal c).elim n (10 * n + ·)) 0)
  | s => .field (String.ofList s)

inductive PathError
  | jsonPath (message : String)
  | valueError
  deriving DecidableEq

/-- `int` reads at most 4300 digits; the token has two brackets more. -/
def tooLong (token : List Char) : Bool := token.head? = some '[' && 4302 < token.length

def access (expression : String) : Segment → Json → Except String Json
  | .field name, .obj fields =>
    match Args.get? fields name with
    | some value => .ok value
    | none => .error ("Key '" ++ name ++ "' not found (at '" ++ expression ++ "')")
  | .field name, current =>
    .error ("Cannot access '" ++ name ++ "' on " ++ current.typeName ++ " (at '" ++ expression ++ "')")
  | .index i, .arr items =>
    match items[i]? with
    | some value => .ok value
    | none => .error ("Index [" ++ toString i ++ "] out of range (length " ++ toString items.length ++ ") (at '" ++
        expression ++ "')")
  | .index i, current =>
    .error ("Cannot index [" ++ toString i ++ "] on " ++ current.typeName ++ " (at '" ++ expression ++ "')")

def follow (expression : String) : List (List Char) → Json → Except PathError Json
  | [], current => .ok current
  | token :: rest, current =>
    if tooLong token then .error .valueError
    else match access expression (toSegment token) current with
      | .ok value => follow expression rest value
      | .error message => .error (.jsonPath message)

def resolve (expression : String) (context : Args) : Except PathError Json :=
  if startsWith expression "$." then
    let path := expression.toList.drop 2
    if path = [] then .error (.jsonPath "Empty path after '$.'")
    else follow expression (segmentPattern.finditer path) (.obj context)
  else .error (.jsonPath ("Expression must start with '$.' — got: " ++ expression))

def validateExpression : Json → Except String String
  | .str expression =>
    if startsWith expression "$." then
      let path := expression.toList.drop 2
      let cleaned := (segmentPattern.subn [] path).1.filter (· ≠ '.')
      if path = [] then .error "Empty path after '$.'"
      else if cleaned = [] then .ok expression
      else .error ("Invalid characters in path: '" ++ String.ofList cleaned ++ "'")
    else .error "Expression must start with '$.'"
  | _ => .error "Expression must be a string"

/-- The values that could be resolved, and a message for each of the others. -/
def resolveAll (mapping : List (String × String)) (context : Args) : Except PathError (Args × List String) :=
  mapping.foldlM (fun out m =>
    match resolve m.2 context with
    | .ok value => .ok (out.1.set m.1 value, out.2)
    | .error (.jsonPath e) => .ok (out.1, out.2 ++ [m.1 ++ ": " ++ e])
    | .error e => .error e) ([], [])

def resolveInputMapping (mapping : List (String × String)) (context : Args) : Except PathError (Args × List String) :=
  resolveAll mapping context

def applyOutputMapping (mapping : List (String × String)) : Json → Except PathError (Args × List String)
  | .obj fields => resolveAll mapping fields
  | result => .ok ([], ["Cannot apply output_mapping to " ++ result.typeName ++ " result"])

theorem rest_name {name tail : List Char} {c : Char} (p : Option Char) (hc : isNameStart c = true)
    (hn : ∀ d ∈ name, isNameChar d = true) (ht : tail.head?.all (!isNameChar ·) = true) :
    segmentPattern.rest p (c :: name ++ tail) = some tail := by
  have hg := Regex.greedy_char (k := fun _ s' => some s') (name ++ tail).length (some c) le_rfl
    fun _ => congrArg some (Regex.dropWhile_word hn ht)
  rw [segmentPattern, Regex.rest, Regex.run, namePattern, Regex.run, List.cons_append, Regex.run,
    if_pos hc, Regex.run, hg]
  rfl

theorem toSegment_of_ne {c : Char} {s : List Char} (hc : c ≠ '[') :
    toSegment (c :: s) = .field (String.ofList (c :: s)) := by
  rw [toSegment]
  rintro t ⟨⟩
  exact hc rfl

theorem finditer_of_name {name tail : List Char} {c : Char} (hc : isNameStart c = true)
    (hn : ∀ d ∈ name, isNameChar d = true) (ht : tail.head?.all (!isNameChar ·) = true) :
    ∃ later, segmentPattern.finditer (c :: name ++ tail) = (c :: name) :: later := by
  rw [Regex.finditer, List.cons_append, List.length_cons, ← List.cons_append,
    Regex.pieces_of_rest _ (rest_name none hc hn ht), List.filterMap_cons]
  exact ⟨_, rfl⟩

theorem resolve_of_missing {name tail : List Char} {c : Char} {ctx : Args} (hc : isNameStart c = true)
    (hb : c ≠ '[') (hn : ∀ d ∈ name, isNameChar d = true) (ht : tail.head?.all (!isNameChar ·) = true)
    (hm : ctx.get? (String.ofList (c :: name)) = none) :
    resolve (String.ofList ('$' :: '.' :: c :: name ++ tail)) ctx =
      .error (.jsonPath ("Key '" ++ String.ofList (c :: name) ++ "' not found (at '" ++
        String.ofList ('$' :: '.' :: c :: name ++ tail) ++ "')")) := by
  obtain ⟨ls, hs⟩ := finditer_of_name hc hn ht
  have hst : startsWith (String.ofList ('$' :: '.' :: c :: name ++ tail)) "$." = true := by
    simp [startsWith, List.isPrefixOf]
  rw [resolve, if_pos hst, String.toList_ofList]
  simp only [List.cons_append, List.drop_succ_cons, List.drop_zero]
  have hl : tooLong (c :: name) = false := by simp [tooLong, hb]
  rw [if_neg (List.cons_ne_nil _ _), ← List.cons_append, hs, follow, hl, if_neg Bool.false_ne_true,
    toSegment_of_ne hb,
    access, hm]

end McpworksApi.Services.JsonPath
