import Mathlib.Tactic

/-! JSON values and the argument objects of tool calls. -/

namespace McpworksApi.Py

inductive Json
  | null
  | bool (b : Bool)
  | int (n : ℤ)
  | float (text : String)
  | str (s : String)
  | arr (items : List Json)
  | obj (fields : List (String × Json))

def Json.truthy : Json → Bool
  | .null | .bool false | .int 0 | .str "" | .arr [] | .obj [] => false
  | .float text => text ≠ "0.0" ∧ text ≠ "-0.0"
  | _ => true

def Json.typeName : Json → String
  | .null => "NoneType"
  | .bool _ => "bool"
  | .int _ => "int"
  | .float _ => "float"
  | .str _ => "str"
  | .arr _ => "list"
  | .obj _ => "dict"

def Json.orElse (j default : Json) : Json := if j.truthy then j else default

theorem Json.truthy_str {s : String} : (Json.str s).truthy = true ↔ s ≠ "" := by
  unfold truthy
  split <;> simp_all

mutual

def Json.sorted : Json → Json
  | .arr items => .arr (sortedItems items)
  | .obj fields => .obj ((sortedFields fields).mergeSort (·.1 ≤ ·.1))
  | j => j

def sortedItems : List Json → List Json
  | [] => []
  | j :: items => j.sorted :: sortedItems items

def sortedFields : List (String × Json) → List (String × Json)
  | [] => []
  | (key, j) :: fields => (key, j.sorted) :: sortedFields fields

end

mutual

def Json.strings : Json → List String
  | .str s => [s]
  | .arr items => stringsOfItems items
  | .obj fields => stringsOfFields fields
  | _ => []

def stringsOfItems : List Json → List String
  | [] => []
  | j :: items => j.strings ++ stringsOfItems items

def stringsOfFields : List (String × Json) → List String
  | [] => []
  | (key, j) :: fields => key :: j.strings ++ stringsOfFields fields

end

def hexEscape (n : ℕ) : List Char :=
  ['\\', 'u', Nat.digitChar (n / 4096 % 16), Nat.digitChar (n / 256 % 16), Nat.digitChar (n / 16 % 16),
    Nat.digitChar (n % 16)]

def escapeChar (c : Char) : List Char :=
  let n := c.toNat
  if c = '"' ∨ c = '\\' then ['\\', c]
  else if c = '\n' then ['\\', 'n']
  else if c = '\r' then ['\\', 'r']
  else if c = '\t' then ['\\', 't']
  else if n = 8 then ['\\', 'b']
  else if n = 12 then ['\\', 'f']
  else if 32 ≤ n ∧ n ≤ 126 then [c]
  else if n < 0x10000 then hexEscape n
  else hexEscape (0xd800 + (n - 0x10000) / 0x400) ++ hexEscape (0xdc00 + (n - 0x10000) % 0x400)

def dumpsString (s : String) : String := String.ofList ('"' :: s.toList.flatMap escapeChar ++ ['"'])

mutual

def Json.dumps : Json → String
  | .null => "null"
  | .bool b => if b then "true" else "false"
  | .int n => toString n
  | .float text => text
  | .str s => dumpsString s
  | .arr items => "[" ++ ", ".intercalate (dumpsItems items) ++ "]"
  | .obj fields => "\x7b" ++ ", ".intercalate (dumpsFields fields) ++ "\x7d"

def dumpsItems : List Json → List String
  | [] => []
  | j :: items => j.dumps :: dumpsItems items

def dumpsFields : List (String × Json) → List String
  | [] => []
  | (key, j) :: fields => (dumpsString key ++ ": " ++ j.dumps) :: dumpsFields fields

end

abbrev Args := List (String × Json)

def setItem {α : Type} (d : List (String × α)) (key : String) (value : α) : List (String × α) :=
  if d.any (·.1 = key) then d.map fun e => if e.1 = key then (key, value) else e else d ++ [(key, value)]

namespace Args

def get? (a : Args) (key : String) : Option Json := (a.find? (·.1 = key)).map (·.2)

def set (a : Args) (key : String) (value : Json) : Args := setItem a key value

def erase (a : Args) (key : String) : Args := a.filter (·.1 ≠ key)

theorem get?_set_self (a : Args) (key : String) (value : Json) : (a.set key value).get? key = some value := by
  have hfind : (a.set key value).find? (fun e => decide (e.1 = key)) = some (key, value) := by
    unfold set setItem
    split
    · rename_i hany
      induction a with
      | nil => cases hany
      | cons e a ih =>
        by_cases he : e.1 = key
        · simp [he]
        · simp only [List.any_cons, he, decide_false, Bool.false_or] at hany
          rw [List.map_cons, if_neg he, List.find?_cons_of_neg (by simpa using he)]
          exact ih hany
    · rename_i hany
      rw [List.find?_append, List.find?_eq_none.mpr fun e he hkey => hany (List.any_eq_true.mpr ⟨e, he, hkey⟩)]
      simp
  rw [get?, hfind]
  rfl

theorem get?_set_of_ne {a : Args} {key key' : String} (value : Json) (h : key' ≠ key) :
    (a.set key value).get? key' = a.get? key' := by
  have hmap : ∀ l : Args, (l.map fun e => if e.1 = key then (key, value) else e).find?
    (fun e => decide (e.1 = key')) =
      l.find? (fun e => decide (e.1 = key')) := by
    intro l
    induction l with
    | nil => rfl
    | cons e l ih =>
      by_cases he : e.1 = key
      · have hne : e.1 ≠ key' := fun h' => h (h'.symm.trans he)
        rw [List.map_cons, if_pos he, List.find?_cons_of_neg (by simpa using h.symm),
          List.find?_cons_of_neg (by simpa using hne), ih]
      · rw [List.map_cons, if_neg he, List.find?_cons, List.find?_cons, ih]
  unfold Args.set setItem Args.get?
  split
  · rw [hmap]
  · rw [List.find?_append, List.find?_cons_of_neg (by simpa using h.symm), List.find?_nil, Option.or_none]

end Args

end McpworksApi.Py
