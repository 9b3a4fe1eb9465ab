import McpworksApi.Session.Wp

/-! Trees of files and directories without links. Every entry lies in a directory, and a path leads to one entry at
most. The calls of the operating system that change a tree are given with what each path leads to afterwards; which
paths it refuses to create is left open. -/

namespace McpworksApi.FileTree

open Session (Wp)

inductive Entry (γ : Type)
  | dir
  | file (contents : γ)

/-- The entries under their paths; the root is a directory and is not listed. -/
structure Tree (ν γ : Type) where
  entries : List (List ν × Entry γ)
  nodup : (entries.map Prod.fst).Nodup
  closed : ∀ x ∈ entries, x.1 ≠ [] ∧ (x.1.dropLast = [] ∨ (x.1.dropLast, .dir) ∈ entries)

/-- Strictly inside the directory. -/
def Below {ν : Type} (d p : List ν) : Prop := d <+: p ∧ p ≠ d

variable {ν γ : Type} [DecidableEq ν]

instance (d p : List ν) : Decidable (Below d p) := inferInstanceAs (Decidable (_ ∧ _))

omit [DecidableEq ν] in
theorem below_append {d r : List ν} : Below d (d ++ r) ↔ r ≠ [] := by
  simp [Below]

omit [DecidableEq ν] in
theorem Below.exists_append {d p : List ν} (h : Below d p) : ∃ r, r ≠ [] ∧ p = d ++ r := by
  obtain ⟨⟨r, rfl⟩, hne⟩ := h
  exact ⟨r, by simpa using hne, rfl⟩

omit [DecidableEq ν] in
theorem not_prefix_of_ne {base p : List ν} {m n : ν} (hne : m ≠ n) (hm : base ++ [m] <+: p) :
    ¬ base ++ [n] <+: p := by
  intro hn
  obtain ⟨r, rfl⟩ := hm
  rw [List.append_assoc, List.prefix_append_right_inj] at hn
  simp only [List.singleton_append, List.cons_prefix_cons] at hn
  exact hne hn.1.symm

namespace Tree

variable {t t' : Tree ν γ} {p q d a b : List ν} {e : Entry γ} {c : γ}

/-! ### Looking up -/

def empty : Tree ν γ := ⟨[], List.nodup_nil, by simp⟩

/-- What stands at the path. -/
def find? (t : Tree ν γ) (p : List ν) : Option (Entry γ) :=
  if p = [] then some .dir else (t.entries.find? (·.1 = p)).map Prod.snd

def isDir (t : Tree ν γ) (p : List ν) : Bool :=
  match t.find? p with
  | some .dir => true
  | _ => false

/-- The content of the file at the path. -/
def fileAt? (t : Tree ν γ) (p : List ν) : Option γ :=
  match t.find? p with
  | some (.file c) => some c
  | _ => none

theorem find?_eq_some (hp : p ≠ []) : t.find? p = some e ↔ (p, e) ∈ t.entries := by
  unfold find?
  rw [if_neg hp, Option.map_eq_some_iff]
  constructor
  · rintro ⟨x, hx, rfl⟩
    have hk : x.1 = p := by simpa using List.find?_some hx
    rw [← hk]
    exact List.mem_of_find?_eq_some hx
  · intro hm
    cases hf : t.entries.find? (·.1 = p) with
    | none =>
      have := List.find?_eq_none.mp hf _ hm
      simp at this
    | some x =>
      have hk : x.1 = p := by simpa using List.find?_some hf
      have hx := List.mem_of_find?_eq_some hf
      have heq : x = (p, e) := List.inj_on_of_nodup_map t.nodup hx hm hk
      exact ⟨x, rfl, by rw [heq]⟩

theorem isDir_iff : t.isDir p = true ↔ t.find? p = some .dir := by
  unfold isDir
  split
  · simp_all
  · rename_i hne
    simp only [Bool.false_eq_true, false_iff]
    exact hne

theorem fileAt?_eq_some : t.fileAt? p = some c ↔ t.find? p = some (.file c) := by
  unfold fileAt?
  split
  · rename_i heq
    simp [heq]
  · rename_i hne
    simp only [reduceCtorEq, false_iff]
    exact hne c

theorem find?_eq_none : t.find? p = none ↔ t.isDir p = false ∧ t.fileAt? p = none := by
  unfold isDir fileAt?
  rcases t.find? p with _ | _ | c <;> simp

theorem fileAt?_eq_none_of_isDir (h : t.isDir p = true) : t.fileAt? p = none := by
  unfold fileAt?
  rw [isDir_iff.mp h]

theorem find?_nil (t : Tree ν γ) : t.find? [] = some .dir := by
  unfold find?
  simp

theorem ne_nil_of_find?_eq_none (h : t.find? p = none) : p ≠ [] := by
  rintro rfl
  rw [find?_nil] at h
  cases h

theorem fileAt?_congr (h : t'.find? p = t.find? q) : t'.fileAt? p = t.fileAt? q := by
  unfold fileAt?
  rw [h]

theorem isDir_congr (h : t'.find? p = t.find? q) : t'.isDir p = t.isDir q := by
  unfold isDir
  rw [h]

theorem isDir_of_mem_entries (hp : p = [] ∨ (p, .dir) ∈ t.entries) : t.find? p = some .dir := by
  by_cases hn : p = []
  · rw [hn, find?_nil]
  · exact (find?_eq_some hn).mpr (hp.resolve_left hn)

theorem mem_entries_of_isDir (h : t.isDir p = true) : p = [] ∨ (p, .dir) ∈ t.entries := by
  by_cases hn : p = []
  · exact .inl hn
  · exact .inr ((find?_eq_some hn).mp (isDir_iff.mp h))

theorem find?_eq_none_of_isPrefix (h : t.find? p = none) (hpq : p <+: q) : t.find? q = none := by
  obtain ⟨r, rfl⟩ := hpq
  induction r using List.reverseRecOn with
  | nil => rwa [List.append_nil]
  | append_singleton r name ih =>
    rw [← List.append_assoc]
    cases hf : t.find? (p ++ r ++ [name]) with
    | none => rfl
    | some e =>
      have hm := (find?_eq_some (by simp)).mp hf
      have hp := (t.closed _ hm).2
      rw [List.dropLast_concat] at hp
      rw [isDir_of_mem_entries hp] at ih
      cases ih

theorem isDir_dropLast (h : t.isDir p = true) : t.isDir p.dropLast = true := by
  by_cases hn : p = []
  · rw [hn] at h ⊢
    exact h
  · have hm := (find?_eq_some hn).mp (isDir_iff.mp h)
    exact isDir_iff.mpr (isDir_of_mem_entries (t.closed _ hm).2)

theorem isDir_of_isPrefix (h : t.isDir p = true) (hqp : q <+: p) : t.isDir q = true := by
  obtain ⟨r, rfl⟩ := hqp
  induction r using List.reverseRecOn with
  | nil => rwa [List.append_nil] at h
  | append_singleton r name ih =>
    apply ih
    have hp := isDir_dropLast h
    rwa [← List.append_assoc, List.dropLast_concat] at hp

/-! ### Adding, overwriting, removing -/

/-- A new entry in a directory. -/
def add (t : Tree ν γ) (p : List ν) (e : Entry γ) (hnew : t.find? p = none) (hparent : t.isDir p.dropLast = true) :
    Tree ν γ where
  entries := t.entries ++ [(p, e)]
  nodup := by
    have habsent : p ∉ t.entries.map Prod.fst := by
      intro hmem
      obtain ⟨x, hx, rfl⟩ := List.mem_map.mp hmem
      rw [(find?_eq_some (ne_nil_of_find?_eq_none hnew)).mpr hx] at hnew
      cases hnew
    rw [List.map_append, List.nodup_append]
    refine ⟨t.nodup, List.nodup_singleton _, ?_⟩
    rintro q hq q' hq' rfl
    obtain rfl : q = p := by simpa using hq'
    exact habsent hq
  closed := by
    intro x hx
    rcases List.mem_append.mp hx with hx | hx
    · exact ⟨(t.closed x hx).1, (t.closed x hx).2.imp_right (List.mem_append_left _)⟩
    · rw [List.mem_singleton.mp hx]
      exact ⟨ne_nil_of_find?_eq_none hnew, (mem_entries_of_isDir hparent).imp_right (List.mem_append_left _)⟩

theorem find?_add (hn : t.find? p = none) (hpa : t.isDir p.dropLast = true) (q : List ν) :
    (t.add p e hn hpa).find? q = if q = p then some e else t.find? q := by
  have hp := ne_nil_of_find?_eq_none hn
  by_cases hq : q = []
  · rw [hq, find?_nil, find?_nil, if_neg (Ne.symm hp)]
  apply Option.ext
  intro e'
  rw [find?_eq_some hq]
  simp only [add, List.mem_append, List.mem_singleton, Prod.mk.injEq]
  rw [← find?_eq_some hq]
  by_cases hqp : q = p
  · subst hqp
    rw [hn]
    simp [eq_comm]
  · simp [hqp]

/-- The file at the path with other content. -/
def setFile (t : Tree ν γ) (p : List ν) (c : γ) (hfile : (t.fileAt? p).isSome) : Tree ν γ where
  entries := t.entries.map fun x => if x.1 = p then (p, .file c) else x
  nodup := by
    have hkeys : (t.entries.map fun x => if x.1 = p then (p, Entry.file c) else x).map Prod.fst =
        t.entries.map Prod.fst := by
      rw [List.map_map]
      refine List.map_congr_left fun x _ => ?_
      simp only [Function.comp_apply]
      split
      · rename_i heq
        exact heq.symm
      · rfl
    rw [hkeys]
    exact t.nodup
  closed := by
    intro y hy
    obtain ⟨x, hx, rfl⟩ := List.mem_map.mp hy
    have hkey : (if x.1 = p then (p, Entry.file c) else x).1 = x.1 := by
      split
      · rename_i heq
        exact heq.symm
      · rfl
    rw [hkey]
    refine ⟨(t.closed x hx).1, (t.closed x hx).2.imp_right fun hdir => ?_⟩
    refine List.mem_map.mpr ⟨_, hdir, if_neg fun heq => ?_⟩
    -- the parent is a directory, and the path leads to a file
    obtain ⟨c', hc'⟩ := Option.isSome_iff_exists.mp hfile
    have hparent := isDir_of_mem_entries (.inr hdir)
    simp only at heq
    rw [heq, fileAt?_eq_some.mp hc'] at hparent
    cases hparent

theorem find?_setFile (hfi : (t.fileAt? p).isSome) (q : List ν) :
    (t.setFile p c hfi).find? q = if q = p then some (.file c) else t.find? q := by
  obtain ⟨c', hc'⟩ := Option.isSome_iff_exists.mp hfi
  have hf := fileAt?_eq_some.mp hc'
  have hp : p ≠ [] := by
    rintro rfl
    rw [find?_nil] at hf
    cases hf
  by_cases hq : q = []
  · rw [hq, find?_nil, find?_nil, if_neg (Ne.symm hp)]
  apply Option.ext
  intro e'
  rw [find?_eq_some hq]
  simp only [setFile, List.mem_map]
  have hm := (find?_eq_some hp).mp hf
  by_cases hqp : q = p
  · subst hqp
    rw [if_pos rfl]
    constructor
    · rintro ⟨x, -, heq⟩
      split at heq
      · cases heq
        rfl
      · rename_i hne
        exact absurd (congrArg Prod.fst heq) hne
    · intro heq
      cases heq
      exact ⟨_, hm, if_pos rfl⟩
  · rw [if_neg hqp, find?_eq_some hq]
    constructor
    · rintro ⟨x, hx, heq⟩
      split at heq
      · exact absurd (congrArg Prod.fst heq).symm hqp
      · rwa [← heq]
    · intro hx
      exact ⟨_, hx, if_neg hqp⟩

/-- Without the entry and all that lies below it. -/
def remove (t : Tree ν γ) (d : List ν) : Tree ν γ where
  entries := t.entries.filter fun x => ¬ d <+: x.1
  nodup := (List.filter_sublist.map _).nodup t.nodup
  closed := by
    intro x hx
    obtain ⟨hmem, hkept⟩ := List.mem_filter.mp hx
    refine ⟨(t.closed x hmem).1, (t.closed x hmem).2.imp_right fun hdir => List.mem_filter.mpr ⟨hdir, ?_⟩⟩
    simp only [decide_not, Bool.not_eq_eq_eq_not, Bool.not_true, decide_eq_false_iff_not] at hkept ⊢
    exact fun hpre => hkept (hpre.trans <| List.dropLast_prefix _)

theorem find?_remove (hd : d ≠ []) (q : List ν) : (t.remove d).find? q = if d <+: q then none else t.find? q := by
  by_cases hq : q = []
  · rw [hq, find?_nil, find?_nil, if_neg (by simpa using hd)]
  apply Option.ext
  intro e'
  rw [find?_eq_some hq]
  simp only [remove, List.mem_filter, decide_not, Bool.not_eq_eq_eq_not, Bool.not_true, decide_eq_false_iff_not]
  rw [← find?_eq_some hq]
  by_cases hp : d <+: q <;> simp [hp]

/-! ### Moving a subtree -/

/-- The path after `a` was renamed to `b`. -/
def moved (a b p : List ν) : List ν := if a <+: p then b ++ p.drop a.length else p

theorem moved_append (a b r : List ν) : moved a b (a ++ r) = b ++ r := by
  simp [moved]

theorem moved_of_not_isPrefix (h : ¬ a <+: p) : moved a b p = p := if_neg h

/-- The tree after `a` was renamed to `b`. -/
def move (t : Tree ν γ) (a b : List ν) (ha : a ≠ []) (hb : t.find? b = none) (hparent : t.isDir b.dropLast = true)
    (hab : ¬ a <+: b) : Tree ν γ where
  entries := t.entries.map fun x => (moved a b x.1, x.2)
  nodup := by
    rw [List.map_map, show (Prod.fst ∘ fun x : List ν × Entry γ => (moved a b x.1, x.2)) =
      moved a b ∘ Prod.fst from rfl,
      ← List.map_map]
    refine List.Nodup.map_on ?_ t.nodup
    have hfree : ∀ q ∈ t.entries.map Prod.fst, ¬ b <+: q := by
      intro q hq hbq
      obtain ⟨x, hx, rfl⟩ := List.mem_map.mp hq
      have := (find?_eq_some (t.closed x hx).1).mpr hx
      rw [find?_eq_none_of_isPrefix hb hbq] at this
      cases this
    intro q hq q' hq' heq
    by_cases haq : a <+: q <;> by_cases haq' : a <+: q'
    · obtain ⟨r, rfl⟩ := haq
      obtain ⟨r', rfl⟩ := haq'
      rw [moved_append, moved_append] at heq
      rw [List.append_cancel_left heq]
    · obtain ⟨r, rfl⟩ := haq
      rw [moved_append, moved_of_not_isPrefix haq'] at heq
      exact absurd ⟨r, heq⟩ (hfree q' hq')
    · obtain ⟨r', rfl⟩ := haq'
      rw [moved_append, moved_of_not_isPrefix haq] at heq
      exact absurd ⟨r', heq.symm⟩ (hfree q hq)
    · rwa [moved_of_not_isPrefix haq, moved_of_not_isPrefix haq'] at heq
  closed := by
    intro y hy
    obtain ⟨x, hx, rfl⟩ := List.mem_map.mp hy
    have hbnil := ne_nil_of_find?_eq_none hb
    -- directories that do not move stay
    have hstays : ∀ q, ¬ a <+: q → q = [] ∨ (q, .dir) ∈ t.entries →
        q = [] ∨ (q, .dir) ∈ t.entries.map fun x => (moved a b x.1, x.2) := by
      intro q haq hq
      refine hq.imp_right fun hmem => List.mem_map.mpr ⟨_, hmem, ?_⟩
      rw [moved_of_not_isPrefix haq]
    by_cases hax : a <+: x.1
    · obtain ⟨r, hr⟩ := hax
      rw [← hr]
      dsimp only
      rw [moved_append]
      refine ⟨by simp [hbnil], ?_⟩
      induction r using List.reverseRecOn with
      | nil =>
        rw [List.append_nil]
        exact hstays _ (fun hpre => hab (hpre.trans <| List.dropLast_prefix _)) (mem_entries_of_isDir hparent)
      | append_singleton r name _ =>
        rw [← List.append_assoc, List.dropLast_concat]
        have hdir := (t.closed x hx).2
        rw [← hr, ← List.append_assoc, List.dropLast_concat] at hdir
        have hmem := hdir.resolve_left (by simp [ha])
        exact .inr (List.mem_map.mpr ⟨_, hmem, by rw [moved_append]⟩)
    · dsimp only
      rw [moved_of_not_isPrefix hax]
      refine ⟨(t.closed x hx).1, hstays _ (fun hpre => hax (hpre.trans <| List.dropLast_prefix _)) (t.closed x hx).2⟩

theorem find?_move (ha : a ≠ []) (hb : t.find? b = none) (hp : t.isDir b.dropLast = true) (hab : ¬ a <+: b)
    (q : List ν) :
    (t.move a b ha hb hp hab).find? q =
      if b <+: q then t.find? (a ++ q.drop b.length) else if a <+: q then none else t.find? q := by
  have hbn := ne_nil_of_find?_eq_none hb
  by_cases hq : q = []
  · subst hq
    rw [find?_nil, find?_nil, if_neg (by simpa using hbn), if_neg (by simpa using ha)]
  apply Option.ext
  intro e'
  rw [find?_eq_some hq]
  simp only [move, List.mem_map, Prod.mk.injEq]
  by_cases hbq : b <+: q
  · obtain ⟨r, rfl⟩ := hbq
    rw [if_pos (List.prefix_append b r), List.drop_left, find?_eq_some (by simp [ha])]
    constructor
    · rintro ⟨x, hx, hm, rfl⟩
      by_cases hax : a <+: x.1
      · obtain ⟨s, hs⟩ := hax
        rw [← hs, moved_append] at hm
        rwa [← List.append_cancel_left hm, hs]
      · rw [moved_of_not_isPrefix hax] at hm
        have := (find?_eq_some (t.closed x hx).1).mpr hx
        rw [hm, find?_eq_none_of_isPrefix hb (List.prefix_append b r)] at this
        cases this
    · intro hme
      exact ⟨_, hme, moved_append a b r, rfl⟩
  · rw [if_neg hbq]
    constructor
    · rintro ⟨x, hx, hm, rfl⟩
      by_cases hax : a <+: x.1
      · obtain ⟨s, hs⟩ := hax
        rw [← hs, moved_append] at hm
        exact absurd ⟨s, hm⟩ hbq
      · rw [moved_of_not_isPrefix hax] at hm
        rw [← hm, if_neg hax]
        exact (find?_eq_some (t.closed x hx).1).mpr hx
    · intro hf
      split at hf
      · cases hf
      · rename_i haq
        exact ⟨_, (find?_eq_some hq).mp hf, moved_of_not_isPrefix haq, rfl⟩

/-! ### Files and their weight -/

/-- The files below a directory, at any depth. -/
def filesBelow (t : Tree ν γ) (d : List ν) : List (List ν × γ) :=
  t.entries.filterMap fun x =>
    match x.2 with
    | .dir => none
    | .file c => if Below d x.1 then some (x.1, c) else none

/-- The weight of all files below a directory. -/
def total (weight : γ → ℕ) (d : List ν) (t : Tree ν γ) : ℕ := ((t.filesBelow d).map fun x => weight x.2).sum

theorem mem_filesBelow : (p, c) ∈ t.filesBelow d ↔ Below d p ∧ t.fileAt? p = some c := by
  unfold filesBelow
  rw [List.mem_filterMap]
  constructor
  · rintro ⟨x, hx, heq⟩
    split at heq
    · cases heq
    · rename_i c' hf
      split at heq
      · rename_i hb
        cases heq
        refine ⟨hb, fileAt?_eq_some.mpr ((find?_eq_some (t.closed x hx).1).mpr ?_)⟩
        rw [← hf]
        exact hx
      · cases heq
  · rintro ⟨hb, hf⟩
    have hp : p ≠ [] := by
      rintro rfl
      exact hb.2 (List.prefix_nil.mp hb.1).symm
    exact ⟨_, (find?_eq_some hp).mp (fileAt?_eq_some.mp hf), by simp [hb]⟩

theorem nodup_filesBelow (t : Tree ν γ) (d : List ν) : ((t.filesBelow d).map Prod.fst).Nodup := by
  have hs : ((t.filesBelow d).map Prod.fst).Sublist (t.entries.map Prod.fst) := by
    unfold filesBelow
    induction t.entries with
    | nil => exact List.Sublist.slnil
    | cons x xs ih =>
      rw [List.filterMap_cons, List.map_cons]
      split
      · exact ih.cons _
      · rename_i y heq
        have hk : y.1 = x.1 := by
          split at heq
          · cases heq
          · split at heq
            · cases heq
              rfl
            · cases heq
        rw [List.map_cons, hk]
        exact ih.cons_cons _
  exact hs.nodup t.nodup

theorem total_move (wt : γ → ℕ) (h : ∀ r, r ≠ [] → t'.fileAt? (b ++ r) = t.fileAt? (a ++ r)) :
    total wt b t' = total wt a t := by
  have hb : ∀ {d p : List ν} {c : γ} {t : Tree ν γ}, (p, c) ∈ t.filesBelow d ↔
      ∃ r, r ≠ [] ∧ p = d ++ r ∧ t.fileAt? (d ++ r) = some c := by
    intro d p c t
    rw [mem_filesBelow]
    constructor
    · rintro ⟨hb, hf⟩
      obtain ⟨r, hr, rfl⟩ := hb.exists_append
      exact ⟨r, hr, rfl, hf⟩
    · rintro ⟨r, hr, rfl, hf⟩
      exact ⟨below_append.mpr hr, hf⟩
  unfold total
  have hpe : (t'.filesBelow b).Perm ((t.filesBelow a).map fun x => (b ++ x.1.drop a.length, x.2)) := by
    refine (List.perm_ext_iff_of_nodup (List.Nodup.of_map _ (nodup_filesBelow t' b)) ?_).mpr ?_
    · refine List.Nodup.map_on ?_ (List.Nodup.of_map _ (nodup_filesBelow t a))
      rintro ⟨p, c⟩ hp ⟨q, c'⟩ hq heq
      obtain ⟨r, -, rfl, -⟩ := hb.mp hp
      obtain ⟨s, -, rfl, -⟩ := hb.mp hq
      simp only [List.drop_left, Prod.mk.injEq, List.append_cancel_left_eq] at heq
      rw [heq.1, heq.2]
    · rintro ⟨p, c⟩
      rw [hb, List.mem_map]
      constructor
      · rintro ⟨r, hr, rfl, hf⟩
        exact ⟨(a ++ r, c), hb.mpr ⟨r, hr, rfl, (h r hr) ▸ hf⟩, by simp⟩
      · rintro ⟨⟨q, c'⟩, hm, heq⟩
        obtain ⟨r, hr, rfl, hf⟩ := hb.mp hm
        simp only [List.drop_left, Prod.mk.injEq] at heq
        obtain ⟨rfl, rfl⟩ := heq
        exact ⟨r, hr, rfl, (h r hr).trans hf⟩
  rw [(hpe.map _).sum_eq, List.map_map]
  rfl

theorem total_congr (wt : γ → ℕ) (h : ∀ p, Below d p → t'.fileAt? p = t.fileAt? p) :
    total wt d t' = total wt d t :=
  total_move wt fun r hr => h (d ++ r) (below_append.mpr hr)

theorem total_eq_zero (wt : γ → ℕ) (h : ∀ p, Below d p → t.fileAt? p = none) : total wt d t = 0 := by
  have hn : t.filesBelow d = [] := by
    rw [List.eq_nil_iff_forall_not_mem]
    rintro ⟨p, c⟩ hm
    obtain ⟨hb, hf⟩ := mem_filesBelow.mp hm
    rw [h p hb] at hf
    cases hf
  unfold total
  rw [hn]
  rfl

theorem total_le_of_write (wt : γ → ℕ) (h : ∀ q, Below d q → t'.fileAt? q = if q = p then some c else t.fileAt? q) :
    total wt d t' ≤ total wt d t + wt c := by
  have hs : (t'.filesBelow d).Subperm ((p, c) :: t.filesBelow d) := by
    refine List.subperm_of_subset (List.Nodup.of_map _ (nodup_filesBelow t' d)) ?_
    rintro ⟨q, c'⟩ hm
    obtain ⟨hb, hf⟩ := mem_filesBelow.mp hm
    rw [h q hb] at hf
    split at hf
    · rename_i hqp
      cases hf
      rw [hqp]
      exact List.mem_cons_self
    · exact List.mem_cons_of_mem _ (mem_filesBelow.mpr ⟨hb, hf⟩)
  obtain ⟨l, hl, hsu⟩ := hs
  unfold total
  calc ((t'.filesBelow d).map fun x => wt x.2).sum
      = (l.map fun x => wt x.2).sum := (hl.symm.map _).sum_eq
    _ ≤ (((p, c) :: t.filesBelow d).map fun x => wt x.2).sum := (hsu.map _).sum_le_sum fun _ _ => Nat.zero_le _
    _ = ((t.filesBelow d).map fun x => wt x.2).sum + wt c := by
      rw [List.map_cons, List.sum_cons, Nat.add_comm]

end Tree

/-! ### System calls -/

/-- Why a call fails. -/
inductive Fault
  | fileExists
  | notFound
  | notADirectory
  | isADirectory
  | refused
  deriving DecidableEq, Repr

section Calls

open FileTree.Tree

variable (refuses : List ν → Bool)

def makeDir (p : List ν) : Session (Tree ν γ) Fault Unit := fun t =>
  if hnew : t.find? p = none then
    if refuses p then (.error .refused, t)
    else if hparent : t.isDir p.dropLast = true then (.ok (), t.add p .dir hnew hparent)
    else (.error .notFound, t)
  else (.error .fileExists, t)

/-- `makeDirs` on the reversed path, from the parents down. -/
def makeDirsRev : List ν → Session (Tree ν γ) Fault Unit
  | [] => pure ()
  | name :: parents => do
    match ← Session.query (·.find? (name :: parents).reverse) with
    | some .dir => pure ()
    | some (.file _) => Session.raise .fileExists
    | none => do
      Session.fetch fun t => if (t.fileAt? parents.reverse).isSome then .error .notADirectory else .ok ()
      makeDirsRev parents
      makeDir refuses (name :: parents).reverse

def makeDirs (p : List ν) : Session (Tree ν γ) Fault Unit := makeDirsRev refuses p.reverse

def writeBytes (p : List ν) (c : γ) : Session (Tree ν γ) Fault Unit := fun t =>
  if refuses p then (.error .refused, t)
  else if t.isDir p then (.error .isADirectory, t)
  else if hfile : (t.fileAt? p).isSome then (.ok (), t.setFile p c hfile)
  else if h : t.find? p = none ∧ t.isDir p.dropLast = true then (.ok (), t.add p (.file c) h.1 h.2)
  else (.error .notFound, t)

def removeTree (d : List ν) : Session (Tree ν γ) Fault Unit := fun t =>
  if d ≠ [] ∧ t.isDir d = true then (.ok (), t.remove d) else (.error .notADirectory, t)

def renameDir (a b : List ν) : Session (Tree ν γ) Fault Unit := fun t =>
  if h : (a ≠ [] ∧ t.isDir a = true) ∧ t.find? b = none ∧ t.isDir b.dropLast = true ∧ ¬ a <+: b then
    (.ok (), t.move a b h.1.1 h.2.1 h.2.2.1 h.2.2.2)
  else (.error .notFound, t)

variable {refuses} {t t' t'' : Tree ν γ} {p q path d a b : List ν} {c : γ}

/-- `t'` differs from `t` by directories on the way to `path` only. -/
structure Grown (path : List ν) (t t' : Tree ν γ) : Prop where
  file : ∀ q, t'.fileAt? q = t.fileAt? q
  kept : ∀ q, t.isDir q = true → t'.isDir q = true
  new : ∀ q, t'.isDir q = true → t.isDir q = true ∨ q <+: path

theorem Grown.refl (path : List ν) (t : Tree ν γ) : Grown path t t := ⟨fun _ => rfl, fun _ h => h, fun _ h => .inl h⟩

theorem Grown.trans (h : Grown path t t') (h' : Grown path t' t'') : Grown path t t'' := by
  refine ⟨fun q => (h'.file q).trans (h.file q), fun q hq => h'.kept q (h.kept q hq), fun q hq => ?_⟩
  rcases h'.new q hq with hq | hq
  · exact h.new q hq
  · exact .inr hq

theorem Grown.mono (h : Grown p t t') (hp : p <+: path) : Grown path t t' :=
  ⟨h.file, h.kept, fun q hq => (h.new q hq).imp_right fun hqp => hqp.trans hp⟩

theorem Grown.isDir_eq_false (h : Grown path t t') (hq : t.isDir q = false) (hl : path.length < q.length) :
    t'.isDir q = false := by
  rw [Bool.eq_false_iff]
  intro hd
  rcases h.new q hd with hd | hp
  · rw [hq] at hd
    cases hd
  · exact hl.not_ge hp.length_le

theorem grown_add (hn : t.find? p = none) (hp : t.isDir p.dropLast = true) :
    Grown p t (t.add p .dir hn hp) := by
  have hf := find?_add (e := .dir) hn hp
  refine ⟨fun q => ?_, fun q hq => ?_, fun q hq => ?_⟩
  · by_cases hqp : q = p
    · subst hqp
      rw [(find?_eq_none.mp hn).2]
      unfold fileAt?
      rw [hf, if_pos rfl]
    · exact fileAt?_congr (by rw [hf, if_neg hqp])
  · have hqp : q ≠ p := by
      rintro rfl
      rw [(find?_eq_none.mp hn).1] at hq
      cases hq
    rw [isDir_congr (t := t) (q := q) (by rw [hf, if_neg hqp])]
    exact hq
  · by_cases hqp : q = p
    · exact .inr (hqp ▸ List.prefix_refl _)
    · rw [isDir_congr (t := t) (q := q) (by rw [hf, if_neg hqp])] at hq
      exact .inl hq

theorem makeDir_wp (p : List ν) (t : Tree ν γ) :
    Wp (makeDir refuses p) (fun _ t' => Grown p t t' ∧ t'.isDir p = true)
      (fun _ t' => t' = t ∧ (t.find? p ≠ none ∨ refuses p = true ∨ t.isDir p.dropLast ≠ true)) t := by
  unfold Wp makeDir
  split_ifs with hn hr hp
  · exact ⟨rfl, .inr (.inl hr)⟩
  · refine ⟨grown_add hn hp, isDir_iff.mpr ?_⟩
    rw [find?_add, if_pos rfl]
  · exact ⟨rfl, .inr (.inr hp)⟩
  · exact ⟨rfl, .inl hn⟩

/-- No file and no refused name stands on the way to the path. -/
def Clear (refuses : List ν → Bool) (t : Tree ν γ) (p : List ν) : Prop :=
  ∀ q, q <+: p → t.fileAt? q = none ∧ refuses q = false

theorem makeDirsRev_wp (rev : List ν) (t : Tree ν γ) :
    Wp (makeDirsRev refuses rev) (fun _ t' => Grown rev.reverse t t' ∧ t'.isDir rev.reverse = true)
      (fun _ t' => Grown rev.reverse t t' ∧ t'.isDir rev.reverse = false ∧ ¬ Clear refuses t rev.reverse) t := by
  induction rev generalizing t with
  | nil => exact Wp.pure ⟨.refl _ _, isDir_iff.mpr (find?_nil t)⟩
  | cons name pars ih =>
    apply Wp.query_bind
    cases hf : t.find? (name :: pars).reverse with
    | some e =>
      cases e with
      | dir => exact Wp.pure ⟨.refl _ _, isDir_iff.mpr hf⟩
      | file c =>
        refine Wp.raise ⟨.refl _ _, by rw [isDir, hf], fun hc => ?_⟩
        cases (fileAt?_eq_some.mpr hf).symm.trans (hc _ (List.prefix_refl _)).1
    | none =>
      have hn := find?_eq_none.mp hf
      have hp : pars.reverse <+: (name :: pars).reverse := by
        rw [List.reverse_cons]
        exact List.prefix_append _ _
      -- only directories on the way to the parent are new
      have hs : ∀ {t₁}, Grown pars.reverse t t₁ → t₁.isDir (name :: pars).reverse = false :=
        fun h₁ => h₁.isDir_eq_false hn.1 (by simp)
      refine Wp.fetch_bind (fun _ he => ⟨.refl _ _, hn.1, fun hc => ?_⟩) fun _ _ => ?_
      · rw [(hc _ hp).1] at he
        cases he
      apply Wp.bind
      refine (ih t).mono (fun _ t₁ h₁ => ?_) fun _ t₁ h₁ =>
        ⟨h₁.1.mono hp, hs h₁.1, fun hc => h₁.2.2 fun q hq => hc q (hq.trans hp)⟩
      have hg := h₁.1.mono hp
      refine (makeDir_wp _ t₁).mono (fun _ t₂ h₂ => ⟨hg.trans h₂.1, h₂.2⟩) fun _ t₂ h₂ => ?_
      rw [h₂.1]
      refine ⟨hg, hs h₁.1, fun hc => ?_⟩
      rcases h₂.2 with hne | hr | hd
      · exact hne (find?_eq_none.mpr ⟨hs h₁.1, (hg.file _).trans hn.2⟩)
      · exact Bool.false_ne_true ((hc _ (List.prefix_refl _)).2.symm.trans hr)
      · rw [List.reverse_cons, List.dropLast_concat] at hd
        exact hd h₁.2

theorem makeDirs_wp (p : List ν) (t : Tree ν γ) :
    Wp (makeDirs refuses p) (fun _ t' => Grown p t t' ∧ t'.isDir p = true)
      (fun _ t' => Grown p t t' ∧ t'.isDir p = false ∧ ¬ Clear refuses t p) t := by
  have h : Wp (makeDirsRev refuses p.reverse) _ _ t := makeDirsRev_wp p.reverse t
  rwa [List.reverse_reverse] at h

theorem writeBytes_wp (p : List ν) (c : γ) (t : Tree ν γ) : Wp (writeBytes refuses p c)
      (fun _ t' => t.isDir p = false ∧ ∀ q, t'.find? q = if q = p then some (.file c) else t.find? q)
      (fun _ t' => t' = t ∧ ¬ (refuses p = false ∧ t.isDir p = false ∧ t.isDir p.dropLast = true)) t := by
  unfold Wp writeBytes
  split_ifs with hr hd hf hn
  · exact ⟨rfl, by simp [hr]⟩
  · exact ⟨rfl, by simp [hd]⟩
  · exact ⟨by simpa using hd, find?_setFile hf⟩
  · exact ⟨by simpa using hd, find?_add hn.1 hn.2⟩
  · exact ⟨rfl, fun h => hn ⟨find?_eq_none.mpr ⟨h.2.1, by simpa using hf⟩, h.2.2⟩⟩

theorem removeTree_wp (d : List ν) (t : Tree ν γ) :
    Wp (removeTree d) (fun _ t' => t.isDir d = true ∧ ∀ q, t'.find? q = if d <+: q then none else t.find? q)
      (fun _ t' => t' = t ∧ ¬ (d ≠ [] ∧ t.isDir d = true)) t := by
  unfold Wp removeTree
  split_ifs with h
  · exact ⟨h.2, find?_remove h.1⟩
  · exact ⟨rfl, h⟩

theorem renameDir_wp (a b : List ν) (t : Tree ν γ) : Wp (renameDir a b) (fun _ t' => ∀ q, t'.find? q =
        if b <+: q then t.find? (a ++ q.drop b.length) else if a <+: q then none else t.find? q)
      (fun _ t' => t' = t ∧ ¬ ((a ≠ [] ∧ t.isDir a = true) ∧ t.find? b = none ∧
        t.isDir b.dropLast = true ∧ ¬ a <+: b))
      t := by
  unfold Wp renameDir
  split_ifs with h
  · exact find?_move h.1.1 h.2.1 h.2.2.1 h.2.2.2
  · exact ⟨rfl, h⟩

end Calls

end McpworksApi.FileTree
