import McpworksApi.Py.Json
import McpworksApi.Py.Str

/-! Python source text that is put together from data: which names may stand where a name is needed,
when a text stays inside of the docstring it is put into, and `repr` of plain values. -/

namespace McpworksApi.Py

def keywords : List String :=
  ["False", "None", "True", "and", "as", "assert", "async", "await", "break", "class", "continue",
    "def", "del", "elif",
    "else", "except", "finally", "for", "from", "global", "if", "import", "in", "is", "lambda",
      "nonlocal", "not", "or",
    "pass", "raise", "return", "try", "while", "with", "yield"]

def isIdentifier (s : String) : Bool :=
  match s.toList with
  | [] => false
  | c :: _ => !c.isDigit && s.toList.all (fun c => c.isAlphanum || c = '_') && decide (s ∉ keywords)

/-- A name that a `def`, a parameter or an import may bind; `__debug__` is the one that Python keeps to itself. -/
def isBindable (s : String) : Bool := isIdentifier s && s ≠ "__debug__"

/-- The first three quotes after the text in a triple-quoted literal are those that end it: a backslash
takes the character after it along. -/
def closesAtEnd : List Char → Bool
  | [] => true
  | ['\\'] => false
  | '\\' :: _ :: rest => closesAtEnd rest
  | '"' :: rest => !(['"', '"'].isPrefixOf (rest ++ ['"', '"'])) && closesAtEnd rest
  | _ :: rest => closesAtEnd rest

inductive EscapeState
  | plain
  | escaped
  | hex (digits value : ℕ)
  | openName
  | name (chars : List Char)

def hexValue (c : Char) : Option ℕ :=
  if '0' ≤ c ∧ c ≤ '9' then some (c.toNat - '0'.toNat)
  else if 'a' ≤ c ∧ c ≤ 'f' then some (c.toNat - 'a'.toNat + 10)
  else if 'A' ≤ c ∧ c ≤ 'F' then some (c.toNat - 'A'.toNat + 10)
  else none

def escapesComplete (charName : String → Bool) : EscapeState → List Char → Bool
  | .plain, [] => true
  | _, [] => false
  | .plain, '\\' :: rest => escapesComplete charName .escaped rest
  | .plain, c :: rest => c.toNat ≠ 0 && escapesComplete charName .plain rest
  | .escaped, 'x' :: rest => escapesComplete charName (.hex 2 0) rest
  | .escaped, 'u' :: rest => escapesComplete charName (.hex 4 0) rest
  | .escaped, 'U' :: rest => escapesComplete charName (.hex 8 0) rest
  | .escaped, 'N' :: rest => escapesComplete charName .openName rest
  | .escaped, _ :: rest => escapesComplete charName .plain rest
  | .hex digits value, c :: rest =>
    match hexValue c with
    | none => false
    | some d =>
      if digits ≤ 1 then decide (16 * value + d < 0x110000) && escapesComplete charName .plain rest
      else escapesComplete charName (.hex (digits - 1) (16 * value + d)) rest
  | .openName, c :: rest => c = '\x7b' && escapesComplete charName (.name []) rest
  | .name chars, c :: rest =>
    if c = '\x7d' then charName (String.ofList chars.reverse) && escapesComplete charName .plain rest
    else escapesComplete charName (.name (c :: chars)) rest

def fitsDocstring (charName : String → Bool) (text : String) : Bool :=
  closesAtEnd text.toList && escapesComplete charName .plain text.toList

mutual

def Json.repr : Json → String
  | .null => "None"
  | .bool b => if b then "True" else "False"
  | .int n => toString n
  | .float text => text
  | .str s => Py.repr s
  | .arr items => "[" ++ ", ".intercalate (reprItems items) ++ "]"
  | .obj fields => "\x7b" ++ ", ".intercalate (reprFields fields) ++ "\x7d"

def reprItems : List Json → List String
  | [] => []
  | j :: items => j.repr :: reprItems items

def reprFields : List (String × Json) → List String
  | [] => []
  | (key, j) :: fields => (Py.repr key ++ ": " ++ j.repr) :: reprFields fields

end

def Json.text : Json → String
  | .str s => s
  | j => j.repr

end McpworksApi.Py
