import Mathlib.Tactic

/-! Database tables. A table is a list of rows whose primary keys are distinct; the distinctness is a field, so every
operation below returns a table again. -/

namespace McpworksApi

/-- Rows with a primary key. -/
class Row (α : Type) where
  id : α → ℕ

structure Table (α : Type) [Row α] where
  rows : List α
  nodup : (rows.map Row.id).Nodup

namespace Table

variable {α : Type} [Row α]

def empty : Table α := ⟨[], List.nodup_nil⟩

def single (a : α) : Table α := ⟨[a], List.nodup_singleton _⟩

def select (t : Table α) (p : α → Bool) : List α := t.rows.filter p

def get? (t : Table α) (i : ℕ) : Option α := t.rows.find? (Row.id · = i)

def freshId (t : Table α) : ℕ := (t.rows.map Row.id).foldr max 0 + 1

variable {t : Table α} {i : ℕ} {p : α → Bool} {f : α → α} {a : α} {mk : ℕ → α}

theorem freshId_ne (ha : a ∈ t.rows) : Row.id a ≠ t.freshId := by
  have h : Row.id a ≤ (t.rows.map Row.id).foldr max 0 :=
    List.le_max_of_le (List.mem_map_of_mem ha) le_rfl
  unfold freshId
  omega

def insert (t : Table α) (mk : ℕ → α) (hmk : ∀ i, Row.id (mk i) = i := by intro; exact id rfl) : Table α where
  rows := t.rows ++ [mk t.freshId]
  nodup := by
    rw [List.map_append, List.map_singleton, hmk, List.nodup_append]
    refine ⟨t.nodup, List.nodup_singleton _, ?_⟩
    intro i hi j hj
    obtain ⟨a, ha, rfl⟩ := List.mem_map.mp hi
    rw [List.mem_singleton.mp hj]
    exact freshId_ne ha

def updateWhere (t : Table α) (p : α → Bool) (f : α → α)
    (hf : ∀ a, Row.id (f a) = Row.id a := by intro; exact id rfl) : Table α where
  rows := t.rows.map fun a => if p a then f a else a
  nodup := by
    have hid : (t.rows.map fun a => if p a then f a else a).map Row.id = t.rows.map Row.id := by
      rw [List.map_map]
      refine List.map_congr_left fun a _ => ?_
      by_cases h : p a <;> simp [h, hf]
    rw [hid]
    exact t.nodup

def update (t : Table α) (i : ℕ) (f : α → α)
    (hf : ∀ a, Row.id (f a) = Row.id a := by intro; exact id rfl) : Table α :=
  t.updateWhere (Row.id · = i) f hf

def deleteWhere (t : Table α) (p : α → Bool) : Table α where
  rows := t.rows.filter fun a => !p a
  nodup := t.nodup.sublist (List.Sublist.map _ List.filter_sublist)

theorem eq_of_id_eq {b : α} (ha : a ∈ t.rows) (hb : b ∈ t.rows) (h : Row.id a = Row.id b) : a = b :=
  List.inj_on_of_nodup_map t.nodup ha hb h

theorem get?_eq_some : t.get? i = some a ↔ a ∈ t.rows ∧ Row.id a = i := by
  constructor
  · intro h
    exact ⟨List.mem_of_find?_eq_some h, by simpa using List.find?_some h⟩
  · rintro ⟨ha, hi⟩
    rcases h : t.get? i with _ | b
    · exact absurd hi (by simpa using List.find?_eq_none.mp h a ha)
    · have hb : Row.id b = i := by simpa using List.find?_some h
      rw [eq_of_id_eq ha (List.mem_of_find?_eq_some h) (hi.trans hb.symm)]

theorem get?_freshId : t.get? t.freshId = none :=
  List.find?_eq_none.mpr fun _ ha => by simpa using freshId_ne ha

theorem get?_insert {hmk : ∀ i, Row.id (mk i) = i} : (t.insert mk hmk).get? t.freshId = some (mk t.freshId) :=
  get?_eq_some.mpr ⟨List.mem_append_right _ (List.mem_singleton_self _), hmk _⟩

theorem get?_insert_of_some (hmk : ∀ i, Row.id (mk i) = i)
    (h : t.get? i = some a) : (t.insert mk hmk).get? i = some a := by
  obtain ⟨ha, hi⟩ := get?_eq_some.mp h
  exact get?_eq_some.mpr ⟨List.mem_append_left _ ha, hi⟩

theorem get?_insert_of_ne {hmk : ∀ i, Row.id (mk i) = i} (hi : i ≠ t.freshId) :
    (t.insert mk hmk).get? i = t.get? i := by
  have hn : [mk t.freshId].find? (fun a => decide (Row.id a = i)) = none := by simp [hmk, hi.symm]
  simp only [get?, insert, List.find?_append, hn, Option.or_none]

theorem get?_updateWhere {hf : ∀ a, Row.id (f a) = Row.id a} :
    (t.updateWhere p f hf).get? i = (t.get? i).map fun a => if p a then f a else a := by
  simp only [get?, updateWhere, List.find?_map]
  congr 2
  funext a
  by_cases h : p a = true <;> simp [h, hf]

theorem get?_update {hf : ∀ a, Row.id (f a) = Row.id a} : (t.update i f hf).get? i = (t.get? i).map f := by
  rw [update, get?_updateWhere]
  rcases h : t.get? i with _ | a
  · rfl
  · simp [(get?_eq_some.mp h).2]

theorem get?_update_of_ne {j : ℕ} {hf : ∀ a, Row.id (f a) = Row.id a} (hij : j ≠ i) :
    (t.update i f hf).get? j = t.get? j := by
  rw [update, get?_updateWhere]
  rcases h : t.get? j with _ | a
  · rfl
  · simp [(get?_eq_some.mp h).2, hij]

theorem mem_select : a ∈ t.select p ↔ a ∈ t.rows ∧ p a = true :=
  List.mem_filter

theorem select_updateWhere_map {q : α → Bool} {hf : ∀ a, Row.id (f a) = Row.id a} (h : ∀ a, p (f a) = p a) :
    (t.updateWhere q f hf).select p = (t.select p).map fun a => if q a then f a else a := by
  simp only [select, updateWhere, List.filter_map]
  congr 1
  refine List.filter_congr fun a _ => ?_
  by_cases hq : q a = true <;> simp [hq, h]

theorem select_update_map (hf : ∀ a, Row.id (f a) = Row.id a) (h : ∀ a, p (f a) = p a) :
    (t.update i f hf).select p = (t.select p).map fun a => if Row.id a = i then f a else a := by
  rw [update, select_updateWhere_map h]
  refine List.map_congr_left fun a _ => ?_
  by_cases ha : Row.id a = i <;> simp [ha]

theorem rows_foldl_insert {β : Type} (mk : β → ℕ → α) (hmk : ∀ b i, Row.id (mk b i) = i) (l : List β) (t : Table α) :
    ∃ new, (l.foldl (fun t b => t.insert (mk b) (hmk b)) t).rows = t.rows ++ new ∧
      List.Forall₂ (fun b a => ∃ i, a = mk b i) l new := by
  induction l generalizing t with
  | nil => exact ⟨[], (List.append_nil _).symm, .nil⟩
  | cons b l ih =>
    obtain ⟨new, hr, hn⟩ := ih (t.insert (mk b) (hmk b))
    refine ⟨mk b t.freshId :: new, ?_, .cons ⟨t.freshId, rfl⟩ hn⟩
    rw [List.foldl_cons, hr, insert, List.append_assoc]
    rfl

theorem exists_others (h : t.get? i = some a) :
    ∃ os, t.rows.Perm (a :: os) ∧ (t.deleteWhere (Row.id · = i)).rows.Perm os ∧
      ∀ (f : α → α) (hf : ∀ a, Row.id (f a) = Row.id a), (t.update i f hf).rows.Perm (f a :: os) := by
  obtain ⟨ha, hi⟩ := get?_eq_some.mp h
  obtain ⟨before, after, hr⟩ := List.append_of_mem ha
  have hn := t.nodup
  rw [hr, (List.perm_middle.map Row.id).nodup_iff, List.map_cons, List.nodup_cons] at hn
  have ho : ∀ b ∈ before ++ after, Row.id b ≠ i := by
    intro b hb hbi
    exact hn.1 (List.mem_map.mpr ⟨b, hb, hbi.trans hi.symm⟩)
  refine ⟨before ++ after, ?_, ?_, fun f hf => ?_⟩
  · rw [hr]
    exact List.perm_middle
  · have hk : (before ++ after).filter (fun b => !decide (Row.id b = i)) = before ++ after :=
      List.filter_eq_self.mpr fun b hb => by simpa using ho b hb
    rw [List.filter_append] at hk
    simp only [deleteWhere, hr, List.filter_append, List.filter_cons, hi, decide_true, Bool.not_true]
    exact .of_eq hk
  · have hs : (before ++ after).map (fun b => if decide (Row.id b = i) = true then f b else b) = before ++ after := by
      conv_rhs => rw [← List.map_id (before ++ after)]
      refine List.map_congr_left fun b hb => ?_
      simp [ho b hb]
    rw [List.map_append] at hs
    obtain ⟨hb', ha'⟩ := List.append_inj hs (by simp)
    simp only [update, updateWhere, hr, List.map_append, List.map_cons, hb', ha', hi, decide_true, if_true]
    exact List.perm_middle

end Table

end McpworksApi
