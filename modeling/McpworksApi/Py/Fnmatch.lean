import Mathlib.Tactic

/-! Shell patterns, as `fnmatch.fnmatch` reads them on a POSIX system: `*`, `?`, `[seq]` and `[!seq]`, everything else
literally, and a `[` without its `]` literally too. -/

namespace McpworksApi.Py.Fnmatch

inductive Piece
  | char (c : Char)
  | hyphen
  deriving DecidableEq, Repr

def takeClass (l : List Char) : Option (List Char × List Char) :=
  let (bang, l) := if l.head? = some '!' then (['!'], l.tail) else ([], l)
  let (close, l) := if l.head? = some ']' then ([']'], l.tail) else ([], l)
  match l.dropWhile (· ≠ ']') with
  | [] => none
  | _ :: rest => some (bang ++ close ++ l.takeWhile (· ≠ ']'), rest)

/-- Cut at the hyphens that form ranges; the first one is looked for from `skip` on, and each
next one after the range's upper end. -/
def chunks : ℕ → ℕ → List Char → List (List Char)
  | 0, _, l => [l]
  | fuel + 1, skip, l =>
    match (l.drop skip).findIdx? (· = '-') with
    | none => [l]
    | some j => l.take (skip + j) :: chunks fuel 2 (l.drop (skip + j + 1))

def closeChunks : List (List Char) → List (List Char)
  | [c, []] => [c ++ ['-']]
  | c :: cs => c :: closeChunks cs
  | [] => []

def dropEmptyRanges : List (List Char) → List (List Char)
  | [] => []
  | c :: cs =>
    match dropEmptyRanges cs with
    | [] => [c]
    | d :: ds =>
      match c.getLast?, d.head? with
      | some hi, some lo => if lo < hi then (c.dropLast ++ d.tail) :: ds else c :: d :: ds
      | _, _ => c :: d :: ds

def joinChunks : List (List Char) → List Piece
  | [] => []
  | [c] => c.map .char
  | c :: cs => c.map .char ++ .hyphen :: joinChunks cs

def pieces (l : List Char) : List Piece :=
  if '-' ∈ l then
    joinChunks (dropEmptyRanges (closeChunks (chunks l.length (if l.head? = some '!' then 2 else 1) l)))
  else l.map .char

def ranges : List Piece → List (Char × Char)
  | .char a :: .hyphen :: .char b :: l => (a, b) :: ranges l
  | .char a :: l => (a, a) :: ranges l
  | .hyphen :: l => ('-', '-') :: ranges l
  | [] => []

inductive Token
  | star
  | any
  | char (c : Char)
  | cls (negated : Bool) (ranges : List (Char × Char))
  deriving DecidableEq, Repr

def classToken (l : List Char) : Token :=
  match pieces l with
  | .char '!' :: l => .cls true (ranges l)
  | l => .cls false (ranges l)

def tokens : ℕ → List Char → List Token
  | 0, _ => []
  | _ + 1, [] => []
  | fuel + 1, '*' :: l => .star :: tokens fuel l
  | fuel + 1, '?' :: l => .any :: tokens fuel l
  | fuel + 1, '[' :: l =>
    match takeClass l with
    | none => .char '[' :: tokens fuel l
    | some (inside, rest) => classToken inside :: tokens fuel rest
  | fuel + 1, c :: l => .char c :: tokens fuel l

def Token.accepts : Token → Char → Bool
  | star, _ => false
  | any, _ => true
  | char c, d => c = d
  | cls negated rs, d => rs.any (fun r => r.1 ≤ d ∧ d ≤ r.2) != negated

def matchTokens : List Token → List Char → Bool
  | [], l => l.isEmpty
  | .star :: ts, l => l.tails.any (matchTokens ts)
  | _ :: _, [] => false
  | t :: ts, c :: l => t.accepts c && matchTokens ts l

end Fnmatch

def fnmatch (name pattern : String) : Bool :=
  Fnmatch.matchTokens (Fnmatch.tokens pattern.length pattern.toList) name.toList

example : (["api", "apis", "a-i", "aqi", "azi", "a]i"].map (fnmatch · "a[]n-q-]i*")) =
    [true, true, true, true, false, true] := by decide

end McpworksApi.Py
