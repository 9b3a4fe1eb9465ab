import McpworksApi.Store.Table

/-! Constraints of tables: unique keys and references to the rows of another table. `Puts` says that
one row was written, whether it is new or takes the place of the row with its primary key, so
that the constraints are followed through an insertion and an update by one rule each. -/

namespace McpworksApi.Table

variable {α β κ : Type} [Row α] [Row β]

def UniqueOn (t : Table α) (key : α → κ) : Prop := ∀ a ∈ t.rows, ∀ b ∈ t.rows, key a = key b → a = b

def RefersTo (t : Table α) (fk : α → ℕ) (u : Table β) : Prop := ∀ a ∈ t.rows, ∃ b ∈ u.rows, Row.id b = fk a

def Puts (t t' : Table α) (a : α) : Prop := ∀ b, b ∈ t'.rows ↔ (b ∈ t.rows ∧ Row.id b ≠ Row.id a) ∨ b = a

variable {t t' : Table α} {a b : α} {p : α → Bool} {u : Table β} {fk : α → ℕ} {f : α → α} {i : ℕ}

theorem mem_insert {mk : ℕ → α} {hmk : ∀ i, Row.id (mk i) = i} :
    b ∈ (t.insert mk hmk).rows ↔ b ∈ t.rows ∨ b = mk t.freshId := by
  rw [insert, List.mem_append, List.mem_singleton]

theorem puts_insert (t : Table α) (mk : ℕ → α) (hmk : ∀ i, Row.id (mk i) = i) :
    t.Puts (t.insert mk hmk) (mk t.freshId) := by
  intro b
  rw [mem_insert, hmk, and_iff_left_of_imp freshId_ne]

theorem puts_update (hf : ∀ a, Row.id (f a) = Row.id a)
    (h : t.get? i = some a) : t.Puts (t.update i f hf) (f a) := by
  obtain ⟨ha, hi⟩ := get?_eq_some.mp h
  intro b
  rw [hf, hi]
  simp only [update, updateWhere, List.mem_map, decide_eq_true_eq]
  constructor
  · rintro ⟨c, hc, rfl⟩
    by_cases hci : Row.id c = i
    · rw [if_pos hci, eq_of_id_eq hc ha (hci.trans hi.symm)]
      exact .inr rfl
    · rw [if_neg hci]
      exact .inl ⟨hc, hci⟩
  · rintro (⟨hb, hbi⟩ | rfl)
    · exact ⟨b, hb, if_neg hbi⟩
    · exact ⟨a, ha, if_pos hi⟩

theorem Puts.mem_iff_of_new (h : t.Puts t' a) (hn : ∀ b ∈ t.rows, Row.id b ≠ Row.id a) :
    b ∈ t'.rows ↔ b ∈ t.rows ∨ b = a := by
  rw [h b, and_iff_left_of_imp (hn b)]

theorem Puts.mem_iff_of_ne {g : α → κ} (h : t.Puts t' a) (ha : ∀ b ∈ t.rows, Row.id b = Row.id a → g b = g a)
    (hb : g b ≠ g a) : b ∈ t'.rows ↔ b ∈ t.rows := by
  rw [h b, or_iff_left fun heq => hb (by rw [heq]), and_iff_left_of_imp fun hm hid => hb (ha b hm hid)]

theorem Puts.trans {t'' : Table α} (h : t.Puts t' a) (h' : t'.Puts t'' b) (hab : Row.id a = Row.id b) :
    t.Puts t'' b := by
  intro c
  rw [h' c, h c, hab]
  constructor
  · rintro (⟨⟨hc, -⟩ | rfl, hne⟩ | hc)
    · exact .inl ⟨hc, hne⟩
    · exact absurd hab hne
    · exact .inr hc
  · rintro (⟨hc, hne⟩ | hc)
    · exact .inl ⟨.inl ⟨hc, hne⟩, hne⟩
    · exact .inr hc

theorem UniqueOn.puts {key : α → κ} (h : t.UniqueOn key) (hp : t.Puts t' a)
    (ha : ∀ b ∈ t.rows, key b = key a → Row.id b = Row.id a) : t'.UniqueOn key := by
  intro b hb c hc hbc
  rcases (hp b).mp hb with ⟨hb, hbn⟩ | rfl <;> rcases (hp c).mp hc with ⟨hc, hcn⟩ | rfl
  · exact h b hb c hc hbc
  · exact absurd (ha b hb hbc) hbn
  · exact absurd (ha c hc hbc.symm) hcn
  · rfl

theorem RefersTo.puts (h : t.RefersTo fk u) (hp : t.Puts t' a)
    (ha : ∃ b ∈ u.rows, Row.id b = fk a) : t'.RefersTo fk u := by
  intro c hc
  rcases (hp c).mp hc with ⟨hc, -⟩ | rfl
  · exact h c hc
  · exact ha

theorem RefersTo.puts_target {u' : Table β} {b : β} (h : t.RefersTo fk u)
    (hp : u.Puts u' b) : t.RefersTo fk u' := by
  intro a ha
  obtain ⟨c, hc, hfk⟩ := h a ha
  by_cases hcb : Row.id c = Row.id b
  · exact ⟨b, (hp b).mpr (.inr rfl), hcb.symm.trans hfk⟩
  · exact ⟨c, (hp c).mpr (.inl ⟨hc, hcb⟩), hfk⟩

theorem RefersTo.ne_freshId (h : t.RefersTo fk u) (ha : a ∈ t.rows) : fk a ≠ u.freshId := by
  obtain ⟨b, hb, hfk⟩ := h a ha
  rw [← hfk]
  exact freshId_ne hb

theorem select_eq_singleton (ha : a ∈ t.rows) (hp : p a = true)
    (h : ∀ b ∈ t.rows, p b = true → b = a) : t.select p = [a] := by
  have hn : (t.select p).Nodup := t.nodup.of_map.filter p
  refine List.perm_singleton.mp ((List.perm_ext_iff_of_nodup hn (List.nodup_singleton a)).mpr fun b => ?_)
  rw [mem_select, List.mem_singleton]
  constructor
  · rintro ⟨hb, hpb⟩
    exact h b hb hpb
  · rintro rfl
    exact ⟨ha, hp⟩

theorem deleteWhere_eq_self (h : ∀ a ∈ t.rows, p a = false) : t.deleteWhere p = t := by
  obtain ⟨rows, nodup⟩ := t
  have hr : rows.filter (fun a => !p a) = rows := List.filter_eq_self.mpr fun a ha => by rw [h a ha]; rfl
  simp only [deleteWhere, hr]

theorem mem_update (hf : ∀ a, Row.id (f a) = Row.id a) (hb : b ∈ (t.update i f hf).rows) :
    (b ∈ t.rows ∧ Row.id b ≠ i) ∨ ∃ a ∈ t.rows, Row.id a = i ∧ f a = b := by
  obtain ⟨a, ha, rfl⟩ := List.mem_map.mp hb
  by_cases hi : Row.id a = i
  · exact .inr ⟨a, ha, hi, by simp [hi]⟩
  · exact .inl ⟨by simpa [hi] using ha, by simp [hi]⟩

theorem rows_update_insert {mk : ℕ → α} {hmk : ∀ i, Row.id (mk i) = i} (hf : ∀ a, Row.id (f a) = Row.id a) :
    ((t.insert mk hmk).update t.freshId f hf).rows = t.rows ++ [f (mk t.freshId)] := by
  simp only [update, updateWhere, insert, List.map_append, List.map_singleton]
  congr 1
  · refine (List.map_congr_left fun a ha => ?_).trans (List.map_id _)
    exact if_neg (by simpa using freshId_ne ha)
  · rw [if_pos (by simpa using hmk _)]

end McpworksApi.Table
