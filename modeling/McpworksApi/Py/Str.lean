import Mathlib.Tactic

/-! The `str` operations the modelled code uses, on code points. `lower` is the Unicode lower-casing of `str.lower`
without its word-final sigma rule; the others are the ASCII independent operations `startswith`, `in` and `split(sep,
1)`. -/

namespace McpworksApi.Py

/-- Runs `(first, last, step, offset)` of the code points above ASCII that have a
one-character lower case, in increasing order. -/
def lowerRuns : List (ℕ × ℕ × ℕ × ℤ) :=
  [(0xC0, 0xD6, 1, 32), (0xD8, 0xDE, 1, 32), (0x100, 0x12E, 2, 1), (0x132, 0x136, 2, 1),
    (0x139, 0x147, 2, 1), (0x14A, 0x176, 2, 1), (0x178, 0x178, 1, -121), (0x179, 0x17D, 2, 1),
    (0x181, 0x181, 1, 210), (0x182, 0x184, 2, 1), (0x186, 0x186, 1, 206), (0x187, 0x187, 1, 1),
    (0x189, 0x18A, 1, 205), (0x18B, 0x18B, 1, 1), (0x18E, 0x18E, 1, 79), (0x18F, 0x18F, 1, 202),
    (0x190, 0x190, 1, 203), (0x191, 0x191, 1, 1), (0x193, 0x193, 1, 205), (0x194, 0x194, 1, 207),
    (0x196, 0x196, 1, 211), (0x197, 0x197, 1, 209), (0x198, 0x198, 1, 1), (0x19C, 0x19C, 1, 211),
    (0x19D, 0x19D, 1, 213), (0x19F, 0x19F, 1, 214), (0x1A0, 0x1A4, 2, 1), (0x1A6, 0x1A6, 1, 218),
    (0x1A7, 0x1A7, 1, 1), (0x1A9, 0x1A9, 1, 218), (0x1AC, 0x1AC, 1, 1), (0x1AE, 0x1AE, 1, 218),
    (0x1AF, 0x1AF, 1, 1), (0x1B1, 0x1B2, 1, 217), (0x1B3, 0x1B5, 2, 1), (0x1B7, 0x1B7, 1, 219),
    (0x1B8, 0x1B8, 1, 1), (0x1BC, 0x1BC, 1, 1), (0x1C4, 0x1C4, 1, 2), (0x1C5, 0x1C5, 1, 1),
    (0x1C7, 0x1C7, 1, 2), (0x1C8, 0x1C8, 1, 1), (0x1CA, 0x1CA, 1, 2), (0x1CB, 0x1DB, 2, 1),
    (0x1DE, 0x1EE, 2, 1), (0x1F1, 0x1F1, 1, 2), (0x1F2, 0x1F4, 2, 1), (0x1F6, 0x1F6, 1, -97),
    (0x1F7, 0x1F7, 1, -56), (0x1F8, 0x21E, 2, 1), (0x220, 0x220, 1, -130), (0x222, 0x232, 2, 1),
    (0x23A, 0x23A, 1, 10795), (0x23B, 0x23B, 1, 1), (0x23D, 0x23D, 1, -163),
    (0x23E, 0x23E, 1, 10792), (0x241, 0x241, 1, 1), (0x243, 0x243, 1, -195), (0x244, 0x244, 1, 69),
    (0x245, 0x245, 1, 71), (0x246, 0x24E, 2, 1), (0x370, 0x372, 2, 1), (0x376, 0x376, 1, 1),
    (0x37F, 0x37F, 1, 116), (0x386, 0x386, 1, 38), (0x388, 0x38A, 1, 37), (0x38C, 0x38C, 1, 64),
    (0x38E, 0x38F, 1, 63), (0x391, 0x3A1, 1, 32), (0x3A3, 0x3AB, 1, 32), (0x3CF, 0x3CF, 1, 8),
    (0x3D8, 0x3EE, 2, 1), (0x3F4, 0x3F4, 1, -60), (0x3F7, 0x3F7, 1, 1), (0x3F9, 0x3F9, 1, -7),
    (0x3FA, 0x3FA, 1, 1), (0x3FD, 0x3FF, 1, -130), (0x400, 0x40F, 1, 80), (0x410, 0x42F, 1, 32),
    (0x460, 0x480, 2, 1), (0x48A, 0x4BE, 2, 1), (0x4C0, 0x4C0, 1, 15), (0x4C1, 0x4CD, 2, 1),
    (0x4D0, 0x52E, 2, 1), (0x531, 0x556, 1, 48), (0x10A0, 0x10C5, 1, 7264),
    (0x10C7, 0x10C7, 1, 7264), (0x10CD, 0x10CD, 1, 7264), (0x13A0, 0x13EF, 1, 38864),
    (0x13F0, 0x13F5, 1, 8), (0x1C90, 0x1CBA, 1, -3008), (0x1CBD, 0x1CBF, 1, -3008),
    (0x1E00, 0x1E94, 2, 1), (0x1E9E, 0x1E9E, 1, -7615), (0x1EA0, 0x1EFE, 2, 1),
    (0x1F08, 0x1F0F, 1, -8), (0x1F18, 0x1F1D, 1, -8), (0x1F28, 0x1F2F, 1, -8),
    (0x1F38, 0x1F3F, 1, -8), (0x1F48, 0x1F4D, 1, -8), (0x1F59, 0x1F5F, 2, -8),
    (0x1F68, 0x1F6F, 1, -8), (0x1F88, 0x1F8F, 1, -8), (0x1F98, 0x1F9F, 1, -8),
    (0x1FA8, 0x1FAF, 1, -8), (0x1FB8, 0x1FB9, 1, -8), (0x1FBA, 0x1FBB, 1, -74),
    (0x1FBC, 0x1FBC, 1, -9), (0x1FC8, 0x1FCB, 1, -86), (0x1FCC, 0x1FCC, 1, -9),
    (0x1FD8, 0x1FD9, 1, -8), (0x1FDA, 0x1FDB, 1, -100), (0x1FE8, 0x1FE9, 1, -8),
    (0x1FEA, 0x1FEB, 1, -112), (0x1FEC, 0x1FEC, 1, -7), (0x1FF8, 0x1FF9, 1, -128),
    (0x1FFA, 0x1FFB, 1, -126), (0x1FFC, 0x1FFC, 1, -9), (0x2126, 0x2126, 1, -7517),
    (0x212A, 0x212A, 1, -8383), (0x212B, 0x212B, 1, -8262), (0x2132, 0x2132, 1, 28),
    (0x2160, 0x216F, 1, 16), (0x2183, 0x2183, 1, 1), (0x24B6, 0x24CF, 1, 26),
    (0x2C00, 0x2C2F, 1, 48), (0x2C60, 0x2C60, 1, 1), (0x2C62, 0x2C62, 1, -10743),
    (0x2C63, 0x2C63, 1, -3814), (0x2C64, 0x2C64, 1, -10727), (0x2C67, 0x2C6B, 2, 1),
    (0x2C6D, 0x2C6D, 1, -10780), (0x2C6E, 0x2C6E, 1, -10749), (0x2C6F, 0x2C6F, 1, -10783),
    (0x2C70, 0x2C70, 1, -10782), (0x2C72, 0x2C72, 1, 1), (0x2C75, 0x2C75, 1, 1),
    (0x2C7E, 0x2C7F, 1, -10815), (0x2C80, 0x2CE2, 2, 1), (0x2CEB, 0x2CED, 2, 1),
    (0x2CF2, 0x2CF2, 1, 1), (0xA640, 0xA66C, 2, 1), (0xA680, 0xA69A, 2, 1), (0xA722, 0xA72E, 2, 1),
    (0xA732, 0xA76E, 2, 1), (0xA779, 0xA77B, 2, 1), (0xA77D, 0xA77D, 1, -35332),
    (0xA77E, 0xA786, 2, 1), (0xA78B, 0xA78B, 1, 1), (0xA78D, 0xA78D, 1, -42280),
    (0xA790, 0xA792, 2, 1), (0xA796, 0xA7A8, 2, 1), (0xA7AA, 0xA7AA, 1, -42308),
    (0xA7AB, 0xA7AB, 1, -42319), (0xA7AC, 0xA7AC, 1, -42315), (0xA7AD, 0xA7AD, 1, -42305),
    (0xA7AE, 0xA7AE, 1, -42308), (0xA7B0, 0xA7B0, 1, -42258), (0xA7B1, 0xA7B1, 1, -42282),
    (0xA7B2, 0xA7B2, 1, -42261), (0xA7B3, 0xA7B3, 1, 928), (0xA7B4, 0xA7C2, 2, 1),
    (0xA7C4, 0xA7C4, 1, -48), (0xA7C5, 0xA7C5, 1, -42307), (0xA7C6, 0xA7C6, 1, -35384),
    (0xA7C7, 0xA7C9, 2, 1), (0xA7D0, 0xA7D0, 1, 1), (0xA7D6, 0xA7D8, 2, 1), (0xA7F5, 0xA7F5, 1, 1),
    (0xFF21, 0xFF3A, 1, 32), (0x10400, 0x10427, 1, 40), (0x104B0, 0x104D3, 1, 40),
    (0x10570, 0x1057A, 1, 39), (0x1057C, 0x1058A, 1, 39), (0x1058C, 0x10592, 1, 39),
    (0x10594, 0x10595, 1, 39), (0x10C80, 0x10CB2, 1, 64), (0x118A0, 0x118BF, 1, 32),
    (0x16E40, 0x16E5F, 1, 32), (0x1E900, 0x1E921, 1, 34)]

def lowerChar (c : Char) : List Char :=
  if c.toNat < 128 then [c.toLower]
  else if c.toNat = 0x130 then ['i', Char.ofNat 0x307]
  else
    match lowerRuns.find? fun r => r.1 ≤ c.toNat ∧ c.toNat ≤ r.2.1 ∧ (c.toNat - r.1) % r.2.2.1 = 0 with
    | some r => [Char.ofNat (c.toNat + r.2.2.2).toNat]
    | none => [c]

def lower (s : String) : String := String.ofList (s.toList.flatMap lowerChar)

variable {s : String} {l a b sep : List Char}

theorem lower_eq_self (h : ∀ c ∈ s.toList, lowerChar c = [c]) : lower s = s := by
  have hf : s.toList.flatMap lowerChar = s.toList := by
    rw [List.flatMap_congr h]
    simp
  rw [lower, hf, String.ofList_toList]

def clip (n : ℕ) (s : String) : String := String.ofList (s.toList.take n)

def sliceTo {α : Type} (limit : ℤ) (l : List α) : List α :=
  if 0 ≤ limit then l.take limit.toNat else l.take (l.length - (-limit).toNat)

def given (s : Option String) : Bool := s.any (· ≠ "")

def startsWith (s p : String) : Bool := p.toList.isPrefixOf s.toList

def contains (s sub : String) : Bool := s.toList.tails.any fun t => sub.toList.isPrefixOf t

def replaceChars (old new : List Char) : ℕ → List Char → List Char
  | 0, s => s
  | _ + 1, [] => []
  | n + 1, c :: s =>
    if old.isPrefixOf (c :: s) then new ++ replaceChars old new n ((c :: s).drop old.length)
    else c :: replaceChars old new n s

def replace (s old new : String) : String :=
  String.ofList (replaceChars old.toList new.toList s.toList.length s.toList)

def endsWith (s p : String) : Bool := p.toList.isSuffixOf s.toList

def isSpace (c : Char) : Bool :=
  let n := c.toNat
  (9 ≤ n ∧ n ≤ 13) ∨ (28 ≤ n ∧ n ≤ 32) ∨ n = 133 ∨ n = 160 ∨ n = 5760 ∨ (8192 ≤ n ∧ n ≤ 8202) ∨ n = 8232 ∨ n = 8233 ∨
    n = 8239 ∨ n = 8287 ∨ n = 12288

def strip (s : String) : String :=
  String.ofList (((s.toList.dropWhile isSpace).reverse.dropWhile isSpace).reverse)

def dotsToUnderscores (s : String) : String :=
  String.ofList (s.toList.flatMap fun c => if c = '.' then ['_', '_'] else [c])

def reprChar (quote c : Char) : List Char :=
  if c = quote ∨ c = '\\' then ['\\', c]
  else if c = '\n' then ['\\', 'n']
  else if c = '\r' then ['\\', 'r']
  else if c = '\t' then ['\\', 't']
  else if c.toNat < 32 ∨ c.toNat = 127 then
    ['\\', 'x', Nat.digitChar (c.toNat / 16), Nat.digitChar (c.toNat % 16)]
  else [c]

def repr (s : String) : String :=
  let quote := if '\'' ∈ s.toList ∧ '"' ∉ s.toList then '"' else '\''
  String.ofList (quote :: s.toList.flatMap (reprChar quote) ++ [quote])

def reprList (items : List String) : String := "[" ++ ", ".intercalate (items.map repr) ++ "]"

def splitFirst (sep : List Char) : List Char → Option (List Char × List Char)
  | [] => none
  | c :: l =>
    if sep.isPrefixOf (c :: l) then some ([], (c :: l).drop sep.length)
    else (splitFirst sep l).map fun p => (c :: p.1, p.2)

def splitOnce (sep s : String) : Option (String × String) :=
  (splitFirst sep.toList s.toList).map fun p => (String.ofList p.1, String.ofList p.2)

theorem splitFirst_singleton {c : Char} : splitFirst [c] l = some (a, b) ↔ l = a ++ c :: b ∧ c ∉ a := by
  induction l generalizing a with
  | nil => simp [splitFirst]
  | cons d l ih =>
    by_cases hd : c = d
    · subst hd
      cases a with
      | nil => simp [splitFirst, List.isPrefixOf]
      | cons e a => simp +contextual [splitFirst, List.isPrefixOf]
    · have hd' : (c == d) = false := by simpa using hd
      cases a with
      | nil => simp [splitFirst, List.isPrefixOf, hd', Ne.symm hd]
      | cons e a =>
        simp only [splitFirst, List.isPrefixOf, hd', Bool.false_and, Bool.false_eq_true, if_false,
          Option.map_eq_some_iff, Prod.exists, Prod.mk.injEq, List.cons.injEq, List.cons_append, List.mem_cons,
          not_or]
        constructor
        · rintro ⟨x, y, hxy, ⟨rfl, rfl⟩, rfl⟩
          obtain ⟨rfl, hx⟩ := ih.mp hxy
          exact ⟨⟨rfl, rfl⟩, hd, hx⟩
        · rintro ⟨⟨rfl, rfl⟩, -, hx⟩
          exact ⟨a, b, ih.mpr ⟨rfl, hx⟩, ⟨rfl, rfl⟩, rfl⟩

theorem contains_eq_true {sub : String} : contains s sub = true ↔ sub.toList <:+: s.toList := by
  simp only [contains, List.any_eq_true, List.mem_tails, List.isPrefixOf_iff_prefix, List.infix_iff_prefix_suffix]
  constructor
  · rintro ⟨t, hs, hp⟩
    exact ⟨t, hp, hs⟩
  · rintro ⟨t, hp, hs⟩
    exact ⟨t, hs, hp⟩

theorem contains_self (s : String) : contains s s = true := contains_eq_true.mpr List.infix_rfl

theorem splitOnce_dot {a b : String} : splitOnce "." s = some (a, b) ↔ s = a ++ "." ++ b ∧ '.' ∉ a.toList := by
  have hd : ".".toList = ['.'] := rfl
  simp only [splitOnce, hd, Option.map_eq_some_iff, Prod.exists, Prod.mk.injEq]
  constructor
  · rintro ⟨x, y, hxy, rfl, rfl⟩
    obtain ⟨hs, hx⟩ := splitFirst_singleton.mp hxy
    refine ⟨String.toList_injective ?_, by simpa using hx⟩
    simp [hs]
  · rintro ⟨rfl, ha⟩
    exact ⟨a.toList, b.toList, splitFirst_singleton.mpr ⟨by simp, ha⟩, by simp, by simp⟩

theorem eq_append_of_splitFirst (h : splitFirst sep l = some (a, b)) : l = a ++ sep ++ b := by
  induction l generalizing a with
  | nil => cases h
  | cons c l ih =>
    rw [splitFirst] at h
    split at h
    · rename_i hs
      obtain ⟨rfl, rfl⟩ := Prod.mk.inj (Option.some.inj h)
      exact List.prefix_iff_eq_append.mp (List.isPrefixOf_iff_prefix.mp hs) |>.symm
    · obtain ⟨⟨x, y⟩, hxy, heq⟩ := Option.map_eq_some_iff.mp h
      obtain ⟨rfl, rfl⟩ := Prod.mk.inj heq
      rw [ih hxy]
      rfl

theorem not_infix_of_splitFirst (hs : sep ≠ []) (h : splitFirst sep l = some (a, b)) : ¬ sep <:+: a := by
  induction l generalizing a with
  | nil => cases h
  | cons c l ih =>
    rw [splitFirst] at h
    split at h
    · obtain ⟨rfl, -⟩ := Prod.mk.inj (Option.some.inj h)
      intro hn
      exact hs (List.infix_nil.mp hn)
    · rename_i hh
      obtain ⟨⟨x, y⟩, hxy, heq⟩ := Option.map_eq_some_iff.mp h
      obtain ⟨rfl, rfl⟩ := Prod.mk.inj heq
      intro hin
      rcases List.infix_cons_iff.mp hin with hp | hin
      · refine hh (List.isPrefixOf_iff_prefix.mpr (hp.trans ?_))
        rw [eq_append_of_splitFirst hxy]
        exact ⟨sep ++ y, by simp⟩
      · exact ih hxy hin

theorem exists_splitFirst (hs : sep ≠ []) (h : sep <:+: l) : ∃ p, splitFirst sep l = some p := by
  induction l with
  | nil => exact absurd (List.infix_nil.mp h) hs
  | cons c l ih =>
    rw [splitFirst]
    split
    · exact ⟨_, rfl⟩
    · rename_i hh
      rcases List.infix_cons_iff.mp h with hpr | hin
      · exact absurd (List.isPrefixOf_iff_prefix.mpr hpr) hh
      · obtain ⟨p, hp⟩ := ih hin
        exact ⟨_, by rw [hp]; rfl⟩

theorem splitFirst_underscores (h : ¬ ['_', '_'] <:+: a ++ ['_']) :
    splitFirst ['_', '_'] (a ++ '_' :: '_' :: b) = some (a, b) := by
  induction a with
  | nil => rfl
  | cons c a ih =>
    have hh : ¬ ['_', '_'].isPrefixOf (c :: (a ++ '_' :: '_' :: b)) = true := by
      intro hp
      refine h (List.IsPrefix.isInfix ?_)
      obtain ⟨t, ht⟩ := List.isPrefixOf_iff_prefix.mp hp
      cases a with
      | nil => exact ⟨[], by simpa using (List.cons.inj ht).1⟩
      | cons d a =>
        obtain ⟨rfl, hta⟩ := List.cons.inj ht
        obtain ⟨rfl, -⟩ := List.cons.inj hta
        exact ⟨a ++ ['_'], rfl⟩
    rw [List.cons_append, splitFirst, if_neg hh, ih fun hin => h (hin.trans (List.suffix_cons c _).isInfix)]
    rfl

theorem eq_append_of_splitOnce {sep a b : String} (h : splitOnce sep s = some (a, b)) : s = a ++ sep ++ b := by
  obtain ⟨⟨x, y⟩, hxy, heq⟩ := Option.map_eq_some_iff.mp h
  obtain ⟨rfl, rfl⟩ := Prod.mk.inj heq
  refine String.toList_injective ?_
  simp [eq_append_of_splitFirst hxy]

theorem exists_splitOnce {sep : String} (hs : sep.toList ≠ []) (h : contains s sep = true) :
    ∃ p, splitOnce sep s = some p := by
  obtain ⟨p, hp⟩ := exists_splitFirst hs (contains_eq_true.mp h)
  exact ⟨_, by rw [splitOnce, hp]; rfl⟩

theorem not_contains_of_splitOnce {sep a b : String} (hs : sep.toList ≠ []) (h : splitOnce sep s = some (a, b)) :
    contains a sep = false := by
  obtain ⟨⟨x, y⟩, hxy, heq⟩ := Option.map_eq_some_iff.mp h
  obtain ⟨rfl, rfl⟩ := Prod.mk.inj heq
  rw [Bool.eq_false_iff, ne_eq, contains_eq_true, String.toList_ofList]
  exact not_infix_of_splitFirst hs hxy

theorem splitOnce_underscores {a b : String} (ha : contains a "__" = false) (hl : a.toList.getLast? ≠ some '_') :
    splitOnce "__" (a ++ "__" ++ b) = some (a, b) := by
  have hs : ¬ ['_', '_'] <:+: a.toList ++ ['_'] := by
    intro hin
    rcases List.infix_concat_iff.mp hin with hsu | hin
    · refine hl ?_
      obtain ⟨t, ht⟩ := hsu
      have hit : t ++ ['_'] = a.toList := List.append_cancel_right (by simpa using ht)
      rw [← hit]
      simp
    · rw [Bool.eq_false_iff, ne_eq, contains_eq_true] at ha
      exact ha hin
  have hsp := splitFirst_underscores (b := b.toList) hs
  have hc : (a ++ "__" ++ b).toList = a.toList ++ '_' :: '_' :: b.toList := by
    simp [String.toList_append]
  rw [splitOnce, hc]
  exact Option.map_eq_some_iff.mpr ⟨_, hsp, by simp⟩

theorem toString_injective : Function.Injective (toString : ℕ → String) := by
  intro m n h
  simp only [Nat.toString_eq_repr] at h
  have hd : Nat.toDigits 10 m = Nat.toDigits 10 n := by rw [← Nat.toList_repr, ← Nat.toList_repr, h]
  rw [← Nat.ofDigitChars_toDigits (b := 10) (n := m) (by decide) (by decide), hd,
    Nat.ofDigitChars_toDigits (by decide) (by decide)]

end McpworksApi.Py
