import McpworksApi.Models.Errors
import McpworksApi.Py.Json

/-! YAML documents and text files. The YAML library is outside the repository; what is assumed of it is that plain data
comes back from its dump, and that a dump has no carriage returns in it, which it writes as escapes. -/

namespace McpworksApi.Py

open Models

structure Yaml where
  load : String → Except YamlError Json
  dump : Json → String
  load_dump : ∀ j, load (dump j) = .ok j
  newlines : ∀ j, '\r' ∉ (dump j).toList

def readNewlines : List Char → List Char
  | [] => []
  | '\r' :: '\n' :: text => '\n' :: readNewlines text
  | c :: text => (if c = '\r' then '\n' else c) :: readNewlines text

def textMode (s : String) : String := String.ofList (readNewlines s.toList)

/-! ### A terse notation

Data in a prefix notation, which has the properties asked of YAML. -/

namespace Terse

def writeChar (c : Char) : List Char := if c = '\r' then ['r'] else ['c', c]

def writeText (s : String) : List Char := s.toList.flatMap writeChar ++ ['e']

def writeNat (n : ℕ) : List Char := List.replicate n '1' ++ ['e']

mutual

def write : Json → List Char
  | .null => ['n']
  | .bool true => ['t']
  | .bool false => ['f']
  | .int (.ofNat n) => 'p' :: writeNat n
  | .int (.negSucc n) => 'm' :: writeNat n
  | .float s => 'd' :: writeText s
  | .str s => 's' :: writeText s
  | .arr items => 'a' :: writeItems items
  | .obj fields => 'o' :: writeFields fields

def writeItems : List Json → List Char
  | [] => ['e']
  | j :: items => 'x' :: (write j ++ writeItems items)

def writeFields : List (String × Json) → List Char
  | [] => ['e']
  | (key, j) :: fields => 'x' :: (writeText key ++ (write j ++ writeFields fields))

end

def readChars : List Char → Option (List Char × List Char)
  | 'r' :: rest => (readChars rest).map fun p => ('\r' :: p.1, p.2)
  | 'c' :: c :: rest => (readChars rest).map fun p => (c :: p.1, p.2)
  | 'e' :: rest => some ([], rest)
  | _ => none

def readText (l : List Char) : Option (String × List Char) := (readChars l).map fun p => (String.ofList p.1, p.2)

def readNat : List Char → Option (ℕ × List Char)
  | '1' :: rest => (readNat rest).map fun p => (p.1 + 1, p.2)
  | 'e' :: rest => some (0, rest)
  | _ => none

mutual

def read : ℕ → List Char → Option (Json × List Char)
  | _ + 1, 'n' :: rest => some (.null, rest)
  | _ + 1, 't' :: rest => some (.bool true, rest)
  | _ + 1, 'f' :: rest => some (.bool false, rest)
  | _ + 1, 'p' :: rest => (readNat rest).map fun p => (.int (.ofNat p.1), p.2)
  | _ + 1, 'm' :: rest => (readNat rest).map fun p => (.int (.negSucc p.1), p.2)
  | _ + 1, 'd' :: rest => (readText rest).map fun p => (.float p.1, p.2)
  | _ + 1, 's' :: rest => (readText rest).map fun p => (.str p.1, p.2)
  | fuel + 1, 'a' :: rest => (readItems fuel rest).map fun p => (.arr p.1, p.2)
  | fuel + 1, 'o' :: rest => (readFields fuel rest).map fun p => (.obj p.1, p.2)
  | _, _ => none

def readItems : ℕ → List Char → Option (List Json × List Char)
  | _ + 1, 'e' :: rest => some ([], rest)
  | fuel + 1, 'x' :: rest =>
    (read fuel rest).bind fun p => (readItems fuel p.2).map fun q => (p.1 :: q.1, q.2)
  | _, _ => none

def readFields : ℕ → List Char → Option (List (String × Json) × List Char)
  | _ + 1, 'e' :: rest => some ([], rest)
  | fuel + 1, 'x' :: rest =>
    (readText rest).bind fun k => (read fuel k.2).bind fun p =>
      (readFields fuel p.2).map fun q => ((k.1, p.1) :: q.1, q.2)
  | _, _ => none

end

theorem readChars_flatMap (chars rest : List Char) :
    readChars (chars.flatMap writeChar ++ 'e' :: rest) = some (chars, rest) := by
  induction chars with
  | nil => rfl
  | cons c chars ih =>
    by_cases hc : c = '\r'
    · subst hc
      simp [writeChar, readChars, ih]
    · simp [writeChar, hc, readChars, ih]

theorem readText_writeText (s : String) (rest : List Char) : readText (writeText s ++ rest) = some (s, rest) := by
  rw [writeText, List.append_assoc, List.singleton_append, readText, readChars_flatMap]
  simp

theorem readNat_writeNat (n : ℕ) (rest : List Char) : readNat (writeNat n ++ rest) = some (n, rest) := by
  rw [writeNat, List.append_assoc, List.singleton_append]
  induction n with
  | zero => rfl
  | succ n ih => simp [List.replicate_succ, readNat, ih]

mutual

theorem read_write (j : Json) (rest : List Char) (fuel : ℕ) (h : (write j).length ≤ fuel) :
    read fuel (write j ++ rest) = some (j, rest) := by
  obtain ⟨fuel, rfl⟩ : ∃ n, fuel = n + 1 := by
    refine Nat.exists_eq_succ_of_ne_zero fun hz => ?_
    subst hz
    cases j with
    | bool b => cases b <;> simp [write] at h
    | int n => cases n <;> simp [write] at h
    | null | float | str | arr | obj => simp [write] at h
  match j with
  | .null => rfl
  | .bool true => rfl
  | .bool false => rfl
  | .int (.ofNat n) => simp [write, read, readNat_writeNat]
  | .int (.negSucc n) => simp [write, read, readNat_writeNat]
  | .float s => simp [write, read, readText_writeText]
  | .str s => simp [write, read, readText_writeText]
  | .arr its =>
    have hit := readItems_write its rest fuel (by simpa [write] using h)
    simp [write, read, hit]
  | .obj fs =>
    have hf := readFields_write fs rest fuel (by simpa [write] using h)
    simp [write, read, hf]

theorem readItems_write (its : List Json) (rest : List Char) (fuel : ℕ) (h : (writeItems its).length ≤ fuel) :
    readItems fuel (writeItems its ++ rest) = some (its, rest) := by
  obtain ⟨fuel, rfl⟩ : ∃ n, fuel = n + 1 := by
    refine Nat.exists_eq_succ_of_ne_zero fun hz => ?_
    subst hz
    cases its <;> simp [writeItems] at h
  match its with
  | [] => rfl
  | j :: its =>
    simp only [writeItems, List.length_cons, List.length_append] at h
    have hj := read_write j (writeItems its ++ rest) fuel (by omega)
    have hit := readItems_write its rest fuel (by omega)
    simp [writeItems, readItems, hj, hit]

theorem readFields_write (fs : List (String × Json)) (rest : List Char) (fuel : ℕ)
    (h : (writeFields fs).length ≤ fuel) :
    readFields fuel (writeFields fs ++ rest) = some (fs, rest) := by
  obtain ⟨fuel, rfl⟩ : ∃ n, fuel = n + 1 := by
    refine Nat.exists_eq_succ_of_ne_zero fun hz => ?_
    subst hz
    cases fs <;> simp [writeFields] at h
  match fs with
  | [] => rfl
  | (key, j) :: fs =>
    simp only [writeFields, List.length_cons, List.length_append] at h
    have hj := read_write j (writeFields fs ++ rest) fuel (by omega)
    have hf := readFields_write fs rest fuel (by omega)
    simp [writeFields, readFields, readText_writeText, hj, hf]

end

theorem return_not_mem_writeText (s : String) : '\r' ∉ writeText s := by
  simp only [writeText, List.mem_append, List.mem_flatMap, not_or, not_exists, not_and]
  refine ⟨fun c _ hm => ?_, by decide⟩
  unfold writeChar at hm
  split at hm
  · simp at hm
  · rename_i hc
    simp [Ne.symm hc] at hm

theorem return_not_mem_writeNat (n : ℕ) : '\r' ∉ writeNat n := by
  simp [writeNat]

mutual

theorem return_not_mem_write (j : Json) : '\r' ∉ write j := by
  match j with
  | .null => decide
  | .bool true => decide
  | .bool false => decide
  | .int (.ofNat n) => simp [write, return_not_mem_writeNat]
  | .int (.negSucc n) => simp [write, return_not_mem_writeNat]
  | .float s => simp [write, return_not_mem_writeText]
  | .str s => simp [write, return_not_mem_writeText]
  | .arr its => simp [write, return_not_mem_writeItems its]
  | .obj fs => simp [write, return_not_mem_writeFields fs]

theorem return_not_mem_writeItems (items : List Json) : '\r' ∉ writeItems items := by
  match items with
  | [] => decide
  | j :: items => simp [writeItems, return_not_mem_write j, return_not_mem_writeItems items]

theorem return_not_mem_writeFields (fields : List (String × Json)) : '\r' ∉ writeFields fields := by
  match fields with
  | [] => decide
  | (key, j) :: fields =>
    simp [writeFields, return_not_mem_writeText, return_not_mem_write j, return_not_mem_writeFields fields]

end

end Terse

def terseYaml : Yaml where
  load s :=
    match Terse.read s.toList.length s.toList with
    | some (j, []) => .ok j
    | _ => .error (.invalid "not in the terse notation")
  dump j := String.ofList (Terse.write j)
  load_dump j := by
    have hread := Terse.read_write j [] (Terse.write j).length le_rfl
    rw [List.append_nil] at hread
    simp [hread]
  newlines j := by
    rw [String.toList_ofList]
    exact Terse.return_not_mem_write j

end McpworksApi.Py
