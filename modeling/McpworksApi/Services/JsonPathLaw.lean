import McpworksApi.Services.JsonPath

/-! What the path expressions of procedure steps mean. The tokens of a written path are its segments, so it is resolved
segment by segment, up to the numerals that Python's `int` refuses to read; and the expressions on which the validator,
the grammar and the resolver agree. -/

namespace McpworksApi.Services.JsonPath

open Py

def Segment.Named : Segment → Prop
  | .field name => ∃ c l, name.toList = c :: l ∧ isNameStart c = true ∧ ∀ d ∈ l, isNameChar d = true
  | .index _ => True

def Segment.token : Segment → List Char
  | .field name => name.toList
  | .index i => '[' :: ((toString i).toList ++ [']'])

def Segment.text : Segment → List Char
  | .field name => '.' :: name.toList
  | .index i => '[' :: ((toString i).toList ++ [']'])

def render (segs : List Segment) : String := String.ofList ('$' :: segs.flatMap Segment.text)

def WellFormed (expression : String) : Prop :=
  ∃ segs : List Segment, segs ≠ [] ∧ (∀ s ∈ segs, s.Named) ∧ expression = render segs

/-- Only dots stand outside the segments. -/
def DotsOnly (path : List Char) : Prop := ∀ c, .inl c ∈ segmentPattern.pieces path.length none path → c = '.'

section Tokens

variable {seg : Segment} {segs : List Segment} {name : String} {i : ℕ} {c : Char}

theorem toList_toString (i : ℕ) : (toString i).toList = Nat.toDigits 10 i := Nat.toList_repr

theorem decimal_digit (h : c ∈ (toString i).toList) : decimal c = some (c.toNat - '0'.toNat) := by
  rw [toList_toString] at h
  have hc := Nat.isDigit_of_mem_toDigits (by decide) (by decide) h
  simp only [Char.isDigit, ge_iff_le, Bool.and_eq_true, decide_eq_true_eq, UInt32.le_iff_toNat_le] at hc
  have hz : decimalZeros.find? (fun z => z ≤ c.toNat ∧ c.toNat < z + 10) = some 48 :=
    List.find?_cons_of_pos (by simpa using ⟨hc.1, Nat.lt_succ_of_le hc.2⟩)
  rw [decimal, hz]
  rfl

theorem rest_index (p : Option Char) (i : ℕ) (tail : List Char) :
    segmentPattern.rest p ((Segment.index i).token ++ tail) = some tail := by
  obtain ⟨d, ds, hi⟩ := List.exists_cons_of_ne_nil
    (show (toString i).toList ≠ [] from toList_toString i ▸ Nat.toDigits_ne_nil)
  have hv : ∀ c ∈ d :: ds, (decimal c).isSome = true := fun c hc => by
    rw [decimal_digit (hi ▸ hc)]
    rfl
  obtain ⟨hd, hs⟩ := List.forall_mem_cons.mp hv
  have hw : (ds ++ ']' :: tail).dropWhile (fun c => (decimal c).isSome) = ']' :: tail := Regex.dropWhile_word hs rfl
  have hg := Regex.greedy_char (k := fun p s => Regex.run (.char (· = ']')) p s fun _ s' => some s')
    (ds ++ ']' :: tail).length (some d) le_rfl fun q => by rw [hw]; rfl
  simp only [Segment.token, hi, List.cons_append, List.append_assoc, List.nil_append, segmentPattern, Regex.rest,
    Regex.run, Regex.all, Regex.plus, Regex.atLeast, Regex.times, namePattern, if_pos hd]
  rw [hg]
  rfl

theorem head_flatMap_text (segs : List Segment) : (segs.flatMap Segment.text).head?.all (!isNameChar ·) = true := by
  cases segs with
  | nil => rfl
  | cons s segs => cases s <;> rfl

theorem pieces_token {tail : List Char} (n : ℕ) (p : Option Char) (hs : seg.Named)
    (ht : tail.head?.all (!isNameChar ·) = true) :
    ∃ q, segmentPattern.pieces (n + 1) p (seg.token ++ tail) = .inr seg.token :: segmentPattern.pieces n q tail := by
  cases seg with
  | field name =>
    obtain ⟨c, l, hl, hc, hn⟩ := hs
    rw [Segment.token, hl]
    exact ⟨_, Regex.pieces_of_rest n (rest_name p hc hn ht)⟩
  | index i => exact ⟨_, Regex.pieces_of_rest n (rest_index p i tail)⟩

def Segment.pieces : Segment → List (Char ⊕ List Char)
  | .field name => [.inl '.', .inr name.toList]
  | .index i => [.inr (Segment.index i).token]

theorem pieces_text {n : ℕ} (p : Option Char) (hv : ∀ s ∈ segs, s.Named)
    (hn : (segs.flatMap Segment.text).length ≤ n) :
    segmentPattern.pieces n p (segs.flatMap Segment.text) = segs.flatMap Segment.pieces := by
  induction segs generalizing n p with
  | nil => cases n <;> rfl
  | cons s segs ih =>
    obtain ⟨hs, hr⟩ := List.forall_mem_cons.mp hv
    rw [List.flatMap_cons, List.length_append] at hn
    rw [List.flatMap_cons, List.flatMap_cons]
    cases s with
    | field name =>
      obtain ⟨c, l, hl, -⟩ := id hs
      have hl : (Segment.field name).text.length = l.length + 2 := by rw [Segment.text, hl]; rfl
      obtain ⟨n, rfl⟩ : ∃ m, n = m + 2 := ⟨n - 2, by omega⟩
      obtain ⟨q, hp⟩ := pieces_token n (some '.') hs (head_flatMap_text segs)
      have hd : segmentPattern.rest p ('.' :: (name.toList ++ segs.flatMap Segment.text)) = none := rfl
      rw [ih (n := n) q hr (by omega)] at hp
      rw [Segment.text, List.cons_append, Regex.pieces, hd]
      exact congrArg (.inl '.' :: ·) hp
    | index i =>
      have hl : (Segment.index i).text.length = (toString i).toList.length + 2 := by simp [Segment.text]
      obtain ⟨n, rfl⟩ : ∃ m, n = m + 1 := ⟨n - 1, by omega⟩
      obtain ⟨q, hp⟩ := pieces_token n p hs (head_flatMap_text segs)
      rw [ih (n := n) q hr (by omega)] at hp
      exact hp

/-- A path that starts with a name, without the dot before it. -/
theorem pieces_path (hs : (Segment.field name).Named) (hv : ∀ s ∈ segs, s.Named) :
    segmentPattern.pieces (name.toList ++ segs.flatMap Segment.text).length none
      (name.toList ++ segs.flatMap Segment.text) = .inr name.toList :: segs.flatMap Segment.pieces := by
  obtain ⟨c, l, hl, -⟩ := id hs
  obtain ⟨q, hp⟩ := pieces_token (l ++ segs.flatMap Segment.text).length none hs (head_flatMap_text segs)
  rw [pieces_text q hv (by simp)] at hp
  have hn : (name.toList ++ segs.flatMap Segment.text).length = (l ++ segs.flatMap Segment.text).length + 1 := by
    rw [hl]
    rfl
  rw [hn]
  exact hp

theorem finditer_path (hs : (Segment.field name).Named) (hv : ∀ s ∈ segs, s.Named) :
    segmentPattern.finditer (name.toList ++ segs.flatMap Segment.text) =
      (Segment.field name :: segs).map Segment.token := by
  rw [Regex.finditer, pieces_path hs hv, List.map_cons]
  refine congrArg (name.toList :: ·) ?_
  clear hv
  induction segs with
  | nil => rfl
  | cons s segs ih =>
    rw [List.flatMap_cons, List.filterMap_append, ih]
    cases s <;> rfl

theorem dotsOnly_path (hs : (Segment.field name).Named) (hv : ∀ s ∈ segs, s.Named) :
    DotsOnly (name.toList ++ segs.flatMap Segment.text) := by
  intro c hc
  rw [pieces_path hs hv] at hc
  obtain ⟨s, _, hs⟩ : ∃ s ∈ segs, .inl c ∈ s.pieces := by simpa using hc
  cases s with
  | field name => simpa [Segment.pieces] using hs
  | index i => simp [Segment.pieces] at hs

theorem ne_bracket (h : isNameStart c = true) : c ≠ '[' := by
  rintro rfl
  exact absurd h (by decide)

theorem toSegment_token (hs : seg.Named) : toSegment seg.token = seg := by
  cases seg with
  | field name =>
    obtain ⟨c, l, hl, hc, -⟩ := hs
    rw [Segment.token, hl, toSegment_of_ne (ne_bracket hc), ← hl, String.ofList_toList]
  | index i =>
    have hb : decimal ']' = none := by decide
    have hf : (toString i).toList.foldl (fun n c => (decimal c).elim n (10 * n + ·)) 0 =
        Nat.ofDigitChars 10 (toString i).toList 0 := by
      refine List.foldl_ext _ _ _ fun n c hc => ?_
      rw [decimal_digit hc]
      rfl
    rw [Segment.token, toSegment, List.foldl_append, hf, toList_toString, Nat.ofDigitChars_ten_toDigits,
      List.foldl_cons, hb]
    rfl

theorem tooLong_token (hs : seg.Named) :
    tooLong seg.token = true ↔ ∃ i, seg = .index i ∧ 4300 < (toString i).length := by
  cases seg with
  | field name =>
    obtain ⟨c, l, hl, hc, -⟩ := hs
    simp [tooLong, Segment.token, hl, ne_bracket hc]
  | index i =>
    have hl : (Segment.index i).token.length = (toString i).length + 2 := by
      rw [Segment.token, List.length_cons, List.length_append, String.length_toList]
      rfl
    rw [tooLong, hl]
    simp [Segment.token, Nat.lt_iff_add_one_le]

end Tokens

/-- Following the segments through the data, one after the other. -/
def at? : List Segment → Json → Option Json
  | [], current => some current
  | .field name :: rest, .obj fields => (Args.get? fields name).bind (at? rest)
  | .index i :: rest, .arr items => items[i]?.bind (at? rest)
  | _, _ => none

/-- Every index that is reached has at most 4300 digits. -/
def Readable : List Segment → Json → Prop
  | [], _ => True
  | segment :: rest, current =>
    (∀ i, segment = .index i → (toString i).length ≤ 4300) ∧ ∀ v, at? [segment] current = some v → Readable rest v

theorem at?_cons (seg : Segment) (ls : List Segment) (cur : Json) :
    at? (seg :: ls) cur = (at? [seg] cur).bind (at? ls) := by
  cases seg <;> cases cur <;> simp only [at?, Option.bind_none]
  all_goals
    rw [Option.bind_assoc]
    rfl

theorem access_eq_ok_iff {ex : String} {seg : Segment} {cur v : Json} :
    access ex seg cur = .ok v ↔ at? [seg] cur = some v := by
  cases seg <;> cases cur <;> simp only [access, at?, reduceCtorEq]
  all_goals
    split
    all_goals
      rename_i h
      simp [h]

/-- The answer is the value, and JSONPathError is raised if and only if there is none. -/
def Agrees (answer : Except PathError Json) (value : Option Json) : Prop :=
  (∀ v, value = some v → answer = .ok v) ∧ ((∃ m, answer = .error (.jsonPath m)) ↔ value = none)

theorem follow_agrees_iff (ex : String) {segs : List Segment} (current : Json)
    (h : ∀ s ∈ segs, s.Named) :
    Agrees (follow ex (segs.map Segment.token) current) (at? segs current) ↔
      Readable segs current := by
  induction segs generalizing current with
  | nil => simp [Agrees, follow, at?, Readable]
  | cons se ls ih =>
    obtain ⟨hs, hl⟩ := List.forall_mem_cons.mp h
    rw [List.map_cons, follow, toSegment_token hs, at?_cons, Readable]
    by_cases ht : tooLong se.token = true
    · obtain ⟨i, rfl, hi⟩ := (tooLong_token hs).mp ht
      rw [if_pos ht]
      refine iff_of_false (fun ha => ?_) fun hr => absurd (hr.1 i rfl) (by omega)
      rcases hv : (at? [Segment.index i] current).bind (at? ls) with _ | v
      · obtain ⟨m, hm⟩ := ha.2.mpr hv
        cases hm
      · cases ha.1 v hv
    · have hi : ∀ i, se = .index i → (toString i).length ≤ 4300 := fun i hi =>
        not_lt.mp fun hn => ht ((tooLong_token hs).mpr ⟨i, hi, hn⟩)
      rw [if_neg ht]
      rcases hf : access ex se current with m | v
      · have hn : at? [se] current = none := by
          rcases ha : at? [se] current with _ | v
          · rfl
          · rw [access_eq_ok_iff.mpr ha] at hf
            cases hf
        simpa [hn, Agrees] using hi
      · have hv := access_eq_ok_iff.mp hf
        rw [hv, Option.bind_some]
        refine (ih v hl).trans ⟨fun hr => ⟨hi, fun w hw => Option.some.inj hw ▸ hr⟩, fun hr => hr.2 v rfl⟩

theorem startsWith_dollar (l : List Char) : startsWith (String.ofList ('$' :: l)) "$." = (l.head? == some '.') := by
  cases l with
  | nil => rfl
  | cons c l => simp [startsWith, List.isPrefixOf, eq_comm]

theorem resolve_eq {ex : String} {ctx : Args} (hs : startsWith ex "$." = true)
    (hp : ex.toList.drop 2 ≠ []) : resolve ex ctx =
      follow ex (segmentPattern.finditer (ex.toList.drop 2)) (.obj ctx) := by
  rw [resolve, if_pos hs]
  exact if_neg hp

theorem render_path (name : String) (segs : List Segment) :
    (render (.field name :: segs)).toList.drop 2 = name.toList ++ segs.flatMap Segment.text := by
  rw [render, String.toList_ofList]
  rfl

theorem Segment.Named.path_ne_nil {name : String} (h : (Segment.field name).Named) (l : List Char) :
    name.toList ++ l ≠ [] := by
  obtain ⟨c, t, hn, -⟩ := h
  simp [hn]

theorem resolve_render {name : String} {ls : List Segment} (ctx : Args)
    (h : ∀ s ∈ Segment.field name :: ls, s.Named) :
    resolve (render (.field name :: ls)) ctx = follow (render (.field name :: ls))
      ((Segment.field name :: ls).map Segment.token) (.obj ctx) := by
  obtain ⟨hn, hl⟩ := List.forall_mem_cons.mp h
  rw [resolve_eq (by rw [render, startsWith_dollar]; rfl) (render_path name ls ▸ hn.path_ne_nil _),
    render_path, finditer_path hn hl]

/-- A written path that starts with a name is resolved by following its segments exactly when every index that is
reached is one that `int` reads. -/
theorem resolve_rendered_iff {name : String} {later : List Segment} (context : Args)
    (h : ∀ s ∈ Segment.field name :: later, s.Named) :
    Agrees (resolve (render (.field name :: later)) context) (at? (.field name :: later) (.obj context)) ↔
      Readable (.field name :: later) (.obj context) := by
  rw [resolve_render context h]
  exact follow_agrees_iff _ _ h

theorem plain_path_resolved : Agrees (resolve (render [.field "a"]) [("a", .null)]) (some .null) :=
  (resolve_rendered_iff _ (List.forall_mem_singleton.mpr ⟨'a', [], rfl, rfl, by simp⟩)).mpr
    ⟨by simp, fun _ _ => trivial⟩

/-- Ten to the power 4300 has a digit too many: ValueError, where there is no such item. -/
theorem long_index_not_resolved :
    ¬Agrees (resolve (render [.field "a", .index (10 ^ 4300)]) [("a", .arr [])])
      (at? [.field "a", .index (10 ^ 4300)] (.obj [("a", .arr [])])) := by
  have hn : ∀ s ∈ [Segment.field "a", .index (10 ^ 4300)], s.Named :=
    List.forall_mem_cons.mpr ⟨⟨'a', [], rfl, rfl, by simp⟩, List.forall_mem_singleton.mpr trivial⟩
  rw [resolve_render _ hn, follow_agrees_iff _ _ hn]
  intro hr
  have hl := (hr.2 (.arr []) rfl).1 _ rfl
  exact absurd ((Nat.length_repr_le_iff (by decide)).mp hl) (lt_irrefl _)

/-- The validator accepts the well-formed expressions, and what it rejects never resolves. -/
def ValidatedAsResolved (expression : String) : Prop :=
  (validateExpression (.str expression) = .ok expression ↔ WellFormed expression) ∧
    (validateExpression (.str expression) ≠ .ok expression →
      ∀ context, ∃ m, resolve expression context = .error (.jsonPath m))

/-- The first token is an index that `int` reads. -/
def IndexFirst (tokens : List (List Char)) : Prop := ∃ t ∈ tokens.head?, t.head? = some '[' ∧ tooLong t = false

def Unambiguous (expression : String) : Prop :=
  let path := expression.toList.drop 2
  if startsWith expression "$." then
    path = [] ∨ WellFormed expression ∨ ¬DotsOnly path ∧ IndexFirst (segmentPattern.finditer path)
  else ¬WellFormed expression

theorem validateExpression_eq_ok_iff {ex : String} :
    validateExpression (.str ex) = .ok ex ↔
      startsWith ex "$." = true ∧ ex.toList.drop 2 ≠ [] ∧ DotsOnly (ex.toList.drop 2) := by
  have hc : (segmentPattern.subn [] (ex.toList.drop 2)).1.filter (· ≠ '.') = [] ↔
      DotsOnly (ex.toList.drop 2) := by
    simp [Regex.subn, DotsOnly, List.filter_eq_nil_iff]
  simp only [validateExpression, hc]
  split_ifs <;> simp_all

theorem WellFormed.path {ex : String} (h : WellFormed ex) (hs : startsWith ex "$." = true) :
    ex.toList.drop 2 ≠ [] ∧ DotsOnly (ex.toList.drop 2) := by
  obtain ⟨segs, hn, hv, rfl⟩ := h
  obtain ⟨seg, segs, rfl⟩ := List.exists_cons_of_ne_nil hn
  obtain ⟨hf, hl⟩ := List.forall_mem_cons.mp hv
  cases seg with
  | field name =>
    rw [render_path]
    exact ⟨hf.path_ne_nil _, dotsOnly_path hf hl⟩
  | index i =>
    rw [render, startsWith_dollar] at hs
    exact absurd hs (by simp [Segment.text])

/-- Data that the segments fit. -/
def fits : List Segment → Json
  | [] => .null
  | .field name :: rest => .obj [(name, fits rest)]
  | .index i :: rest => .arr (List.replicate (i + 1) (fits rest))

theorem follow_fits (ex : String) (ts : List (List Char)) (m : String) :
    follow ex ts (fits (ts.map toSegment)) ≠ .error (.jsonPath m) := by
  induction ts with
  | nil => simp [follow]
  | cons t ts ih =>
    have hf : access ex (toSegment t) (fits ((t :: ts).map toSegment)) = .ok (fits (ts.map toSegment)) := by
      rw [List.map_cons]
      cases toSegment t <;> simp [access, fits, Args.get?]
    rw [follow, hf]
    split
    · simp
    · exact ih

theorem toSegment_eq_index_iff {t : List Char} : (∃ i, toSegment t = .index i) ↔ t.head? = some '[' := by
  cases t with
  | nil => simp [toSegment]
  | cons c t =>
    by_cases hc : c = '['
    · subst hc
      exact iff_of_true ⟨_, rfl⟩ rfl
    · simp [toSegment_of_ne hc, hc]

theorem follow_raises_iff {ex : String} {tokens : List (List Char)} :
    (∀ context, ∃ m, follow ex tokens (.obj context) = .error (.jsonPath m)) ↔ IndexFirst tokens := by
  cases tokens with
  | nil =>
    refine iff_of_false (fun h => ?_) (by simp [IndexFirst])
    obtain ⟨m, hm⟩ := h []
    cases hm
  | cons t tokens =>
    simp only [IndexFirst, List.head?_cons, Option.mem_some_iff, exists_eq_left']
    by_cases ht : tooLong t = true
    · simp [follow, ht]
    · rw [Bool.not_eq_true] at ht
      rcases hg : toSegment t with name | i
      · refine iff_of_false (fun h => ?_) fun h => by simp [← toSegment_eq_index_iff, hg] at h
        obtain ⟨m, hm⟩ := h [(name, fits (tokens.map toSegment))]
        have hf := follow_fits ex (t :: tokens) m
        rw [List.map_cons, hg] at hf
        exact hf hm
      · refine iff_of_true (fun context => ?_) ⟨toSegment_eq_index_iff.mp ⟨i, hg⟩, ht⟩
        rw [follow, ht, hg]
        exact ⟨_, rfl⟩

/-- The validator, the grammar and the resolver agree on an expression exactly when it is unambiguous. -/
theorem validated_as_resolved_iff (expression : String) : ValidatedAsResolved expression ↔
    Unambiguous expression := by
  simp only [ValidatedAsResolved, Unambiguous, ne_eq, validateExpression_eq_ok_iff]
  by_cases hs : startsWith expression "$." = true
  · have hw := fun h : WellFormed expression => h.path hs
    by_cases hp : expression.toList.drop 2 = []
    · have hr : ∀ context, ∃ m, resolve expression context = .error (.jsonPath m) := by
        intro context
        rw [resolve, if_pos hs]
        exact ⟨_, if_pos hp⟩
      simp_all
    · simp only [resolve_eq hs hp, follow_raises_iff]
      simp only [if_pos hs]
      tauto
  · have hr : ∀ context, ∃ m, resolve expression context = .error (.jsonPath m) := by
      intro context
      rw [resolve]
      exact ⟨_, if_neg hs⟩
    simp [hs, hr]

/-- `!` is rejected, but skipped. -/
theorem skipped_character_resolved : ¬ValidatedAsResolved "$.a!b" := by
  intro h
  obtain ⟨m, hm⟩ := h.2 (by decide +kernel) [("a", .obj [("b", .null)])]
  have hr : resolve "$.a!b" [("a", .obj [("b", .null)])] = .ok .null := rfl
  rw [hr] at hm
  cases hm

end McpworksApi.Services.JsonPath
