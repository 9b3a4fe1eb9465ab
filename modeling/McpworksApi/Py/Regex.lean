import McpworksApi.Py.Str

/-! Regular expressions as Python's `re` matches them, without groups and look-around. The matcher backtracks:
alternatives are tried from left to right, a repetition takes as much as it can or, if it is lazy, as little, and the
first way to go on that succeeds is the match. -/

namespace McpworksApi.Py

inductive Regex
  | empty
  | char (accepts : Char → Bool)
  | seq (a b : Regex)
  | alt (a b : Regex)
  | star (a : Regex)
  | lazyStar (a : Regex)
  | lineStart

namespace Regex

section Run

variable {α : Type}

abbrev Cont (α : Type) := Option Char → List Char → Option α

def greedy (body : Option Char → List Char → Cont α → Option α) (k : Cont α) : ℕ → Cont α
  | 0, p, s => k p s
  | n + 1, p, s =>
    (body p s fun p' s' => if s'.length < s.length then greedy body k n p' s' else none).or (k p s)

def reluctant (body : Option Char → List Char → Cont α → Option α) (k : Cont α) : ℕ → Cont α
  | 0, p, s => k p s
  | n + 1, p, s =>
    (k p s).or (body p s fun p' s' => if s'.length < s.length then reluctant body k n p' s' else none)

def run : Regex → Option Char → List Char → Cont α → Option α
  | empty, p, s, k => k p s
  | char _, _, [], _ => none
  | char accepts, _, c :: s, k => if accepts c then k (some c) s else none
  | seq a b, p, s, k => run a p s fun p' s' => run b p' s' k
  | alt a b, p, s, k => (run a p s k).or (run b p s k)
  | star a, p, s, k => greedy (run a) k s.length p s
  | lazyStar a, p, s, k => reluctant (run a) k s.length p s
  | lineStart, p, s, k => if p = none ∨ p = some '\n' then k p s else none

end Run

def rest (r : Regex) (p : Option Char) (s : List Char) : Option (List Char) := r.run p s fun _ s' => some s'

def pieces (r : Regex) : ℕ → Option Char → List Char → List (Char ⊕ List Char)
  | 0, _, _ => []
  | _ + 1, _, [] => []
  | n + 1, p, c :: s =>
    match r.rest p (c :: s) with
    | some s' =>
      let found := (c :: s).take ((c :: s).length - s'.length)
      .inr found :: pieces r n (found.getLast?.or p) s'
    | none => .inl c :: pieces r n (some c) s

def finditer (r : Regex) (s : List Char) : List (List Char) :=
  (pieces r s.length none s).filterMap Sum.getRight?

def subn (r : Regex) (replacement s : List Char) : List Char × ℕ :=
  let ps := pieces r s.length none s
  (ps.flatMap (Sum.elim (fun c => [c]) fun _ => replacement), (ps.filterMap Sum.getRight?).length)

def foldCase (c : Char) : Char :=
  if c.toNat = 0x130 ∨ c.toNat = 0x131 then 'i'
  else if c.toNat = 0x17f then 's'
  else if c.toNat = 0x212a then 'k'
  else if c.isUpper then c.toLower
  else c

def anyCase (accepts : Char → Bool) (c : Char) : Bool := accepts (foldCase c) || accepts (foldCase c).toUpper

def one (accepts : Char → Bool) : Regex := char (anyCase accepts)

def lit (s : String) : Regex := s.toList.foldr (fun c r => seq (one (· = c)) r) empty

def all : List Regex → Regex
  | [] => empty
  | [r] => r
  | r :: rs => seq r (all rs)

def any : List Regex → Regex
  | [] => char fun _ => false
  | [r] => r
  | r :: rs => alt r (any rs)

def opt (r : Regex) : Regex := alt r empty

def times : ℕ → Regex → Regex
  | 0, _ => empty
  | n + 1, r => seq r (times n r)

def atLeast (n : ℕ) (r : Regex) : Regex := seq (times n r) (star r)

def upTo : ℕ → Regex → Regex
  | 0, _ => empty
  | n + 1, r => opt (seq r (upTo n r))

def plus (r : Regex) : Regex := atLeast 1 r

def space : Regex := char isSpace

def isAlnum (c : Char) : Bool := c.isAlpha || c.isDigit

theorem greedy_char {α : Type} {acc : Char → Bool} {k : Cont α} {x : α} {s : List Char} (n : ℕ)
    (p : Option Char) (hn : s.length ≤ n) (hk : ∀ q, k q (s.dropWhile acc) = some x) :
    greedy (run (.char acc)) k n p s = some x := by
  induction s generalizing n p with
  | nil => cases n <;> exact hk p
  | cons c s ih =>
    obtain ⟨n, rfl⟩ : ∃ m, n = m + 1 := ⟨n - 1, by simp at hn; omega⟩
    rw [greedy, run]
    by_cases hc : acc c = true
    · rw [List.dropWhile_cons_of_pos hc] at hk
      rw [if_pos hc, if_pos (by simp), ih n (some c) (by simpa using hn) hk]
      rfl
    · rw [List.dropWhile_cons_of_neg hc] at hk
      rw [if_neg hc]
      exact hk p

theorem dropWhile_word {accepts : Char → Bool} {word tail : List Char} (hw : ∀ c ∈ word, accepts c = true)
    (ht : tail.head?.all (!accepts ·) = true) : (word ++ tail).dropWhile accepts = tail := by
  rw [List.dropWhile_append_of_pos hw]
  cases tail with
  | nil => rfl
  | cons d tail => exact List.dropWhile_cons_of_neg (by simpa using ht)

theorem pieces_of_rest {r : Regex} {p : Option Char} {c : Char} {word tail : List Char} (n : ℕ)
    (h : r.rest p (c :: word ++ tail) = some tail) :
    r.pieces (n + 1) p (c :: word ++ tail) =
      .inr (c :: word) :: r.pieces n ((c :: word).getLast?.or p) tail := by
  have hl : (c :: (word ++ tail)).length - tail.length = (c :: word).length := by
    simp only [List.length_cons, List.length_append]
    omega
  rw [List.cons_append] at h ⊢
  rw [pieces, h]
  dsimp only
  rw [hl, ← List.cons_append, List.take_left]

end Regex

end McpworksApi.Py
