import McpworksApi.Py.Str

/-! Names of namespaces, services and functions. The column's `CHECK` constraint is the regular expression
`^[a-z0-9]([a-z0-9_-]{0,61}[a-z0-9])?$` (without the underscore for namespaces), so a stored name is a `Name` and
carries the fact that it matches. -/

namespace McpworksApi.Models

open McpworksApi.Py

def alnumChars : List Char := "abcdefghijklmnopqrstuvwxyz0123456789".toList

inductive NameKind
  | dns
  | slug
  deriving DecidableEq, Repr

def NameKind.chars : NameKind → List Char
  | .dns => '-' :: alnumChars
  | .slug => '_' :: '-' :: alnumChars

def nameFormat (k : NameKind) (s : List Char) : Bool :=
  match s.head?, s.getLast? with
  | some a, some b =>
    decide (a ∈ alnumChars) && decide (b ∈ alnumChars) && s.all (fun c => decide (c ∈ k.chars)) &&
      decide (s.length ≤ 63)
  | _, _ => false

structure Name (k : NameKind) where
  val : String
  format : nameFormat k val.toList = true

namespace Name

variable {k : NameKind}

instance : DecidableEq (Name k) := fun a b =>
  decidable_of_iff (a.val = b.val) (by cases a; cases b; simp)

theorem ext {a b : Name k} (h : a.val = b.val) : a = b := by
  cases a
  cases b
  cases h
  rfl

theorem mem_chars (n : Name k) {c : Char} (hc : c ∈ n.val.toList) : c ∈ k.chars := by
  have h := n.format
  unfold nameFormat at h
  split at h
  · simp only [Bool.and_eq_true, List.all_eq_true, decide_eq_true_eq] at h
    exact h.1.2 c hc
  · cases h

theorem length_le (n : Name k) : n.val.toList.length ≤ 63 := by
  have h := n.format
  unfold nameFormat at h
  split at h
  · simp only [Bool.and_eq_true, decide_eq_true_eq] at h
    exact h.2
  · cases h

theorem val_ne_empty (n : Name k) : n.val ≠ "" := by
  intro he
  have h := n.format
  rw [he] at h
  cases h

theorem lowerChar_chars : ∀ c ∈ k.chars, lowerChar c = [c] := by
  have ha : k.chars.all (fun c => lowerChar c = [c]) = true := by cases k <;> decide
  intro c hc
  simpa using List.all_eq_true.mp ha c hc

@[simp] theorem lower_val (n : Name k) : lower n.val = n.val :=
  lower_eq_self fun _ hc => lowerChar_chars _ (n.mem_chars hc)

theorem dot_not_mem (n : Name k) : '.' ∉ n.val.toList := by
  intro h
  have := n.mem_chars h
  revert this
  cases k <;> decide

theorem getLast_ne_underscore (n : Name k) : n.val.toList.getLast? ≠ some '_' := by
  intro hl
  have h := n.format
  unfold nameFormat at h
  split at h
  · rename_i hb
    obtain rfl := Option.some.inj (hb.symm.trans hl)
    simp only [Bool.and_eq_true, decide_eq_true_eq] at h
    exact absurd h.1.1.2 (by decide)
  · cases h

/-! Names of the instances in other modules. -/

def acme : Name .dns := ⟨"acme", by decide⟩

def mail : Name .slug := ⟨"mail", by decide⟩

def send : Name .slug := ⟨"send", by decide⟩

def count : Name .slug := ⟨"count", by decide⟩

def inbox : Name .slug := ⟨"inbox", by decide⟩

end Name

def validateName (k : NameKind) (what s : String) : Except String Unit :=
  if s = "" then .error (what ++ " name cannot be empty")
  else if 63 < s.length then .error (what ++ " name must be 63 characters or less")
  else if nameFormat k s.toList || (s.toList.getLast? = some '\n' && nameFormat k s.toList.dropLast) then .ok ()
  else
    match k with
    | .dns => .error (what ++ " name must be lowercase alphanumeric with hyphens, " ++
        "starting and ending with alphanumeric character")
    | .slug => .error (what ++ " name must be lowercase alphanumeric with hyphens/underscores, " ++
        "starting and ending with alphanumeric character")

end McpworksApi.Models
