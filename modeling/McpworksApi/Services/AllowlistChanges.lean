import McpworksApi.Services.Namespaces
import McpworksApi.Session.Trace

/-! Changes of the network allowlist of a namespace. `update` counts them in a column of the row and refuses the sixth.
The column is never set back, so that it counts all changes since the namespace was created, and not those of a day. -/

namespace McpworksApi.Services.Namespaces

open Models Session

def canUpdateAllowlist (n : Namespace) : Bool := n.allowlistChangesToday < 5

def storeNamespace (n : Namespace) (db : Db) : Db :=
  { db with namespaces := db.namespaces.update n.id fun row =>
      { row with description := n.description, networkAllowlist := n.networkAllowlist,
                 allowlistUpdatedAt := n.allowlistUpdatedAt, allowlistChangesToday := n.allowlistChangesToday } }

structure UpdateCall where
  now : Time
  namespaceId : ℕ
  accountId : ℕ
  description : Option String := none
  networkAllowlist : Option (List String) := none

def UpdateCall.described (c : UpdateCall) (n : Namespace) : Namespace :=
  match c.description with
  | none => n
  | some description => { n with description := some description }

def UpdateCall.listed (c : UpdateCall) (allowlist : List String) (n : Namespace) : Namespace :=
  { n with networkAllowlist := some allowlist, allowlistUpdatedAt := some c.now,
           allowlistChangesToday := n.allowlistChangesToday + 1 }

def update (c : UpdateCall) : DbSession Namespace := do
  let n ← fetch fun db => getById db c.namespaceId (some c.accountId)
  match c.networkAllowlist with
  | none =>
    write (storeNamespace (c.described n))
    pure (c.described n)
  | some allowlist =>
    if canUpdateAllowlist n then
      write (storeNamespace (c.listed allowlist (c.described n)))
      pure (c.listed allowlist (c.described n))
    else raise (.app .validation "Allowlist update rate limit exceeded (max 5 per 24 hours)")

def performUpdate (c : UpdateCall) : DbSession Namespace := transaction (fun before _ => before) (update c)

def acceptedChanges (namespaceId : ℕ) (history : List (UpdateCall × Except ApiError Namespace)) : List Time :=
  (history.filter fun h => h.1.namespaceId = namespaceId ∧ h.1.networkAllowlist.isSome ∧
    h.2.toOption.isSome).map (·.1.now)

def day : Time := 24 * 60 * 60 * 1000000

def inLastDay (now : Time) (times : List Time) : List Time := times.filter fun t => now < t + day ∧ t ≤ now

theorem acceptedChanges_concat (nid : ℕ) (hist : List (UpdateCall × Except ApiError Namespace))
    (c : UpdateCall) (ans : Except ApiError Namespace) :
    acceptedChanges nid (hist ++ [(c, ans)]) = acceptedChanges nid hist ++
      if c.namespaceId = nid ∧ c.networkAllowlist.isSome ∧ ans.toOption.isSome then [c.now] else [] := by
  unfold acceptedChanges
  rw [List.filter_append, List.map_append]
  congr 1
  by_cases h : c.namespaceId = nid ∧ c.networkAllowlist.isSome ∧ ans.toOption.isSome
  · rw [if_pos h, List.filter_cons_of_pos (by simpa using h)]
    rfl
  · rw [if_neg h, List.filter_cons_of_neg (by simpa using h)]
    rfl

variable {n : Namespace} {db : Db} (c : UpdateCall)

theorem getById_row {nid aid : ℕ}
    (h : getById db nid (some aid) = .ok n) : db.namespaces.get? nid = some n := by
  unfold getById at h
  split at h
  · cases h
  · rename_i row hr
    split at h
    · unfold checkAccess at h
      dsimp only at h
      split at h
      · cases h
        exact hr
      · cases h
    · cases h

theorem described_id (n : Namespace) : (c.described n).id = n.id := by
  unfold UpdateCall.described
  split <;> rfl

theorem described_changes (n : Namespace) :
    (c.described n).allowlistChangesToday = n.allowlistChangesToday := by
  unfold UpdateCall.described
  split <;> rfl

inductive Updated (c : UpdateCall) (db : Db) : Except ApiError Namespace × Db → Prop
  | refused (e : ApiError) : Updated c db (.error e, db)
  | described {n : Namespace} (hn : db.namespaces.get? c.namespaceId = some n) (hlist : c.networkAllowlist = none) :
    Updated c db (.ok (c.described n), storeNamespace (c.described n) db)
  | listed {n : Namespace} {allowlist : List String} (hn : db.namespaces.get? c.namespaceId = some n)
    (hlist : c.networkAllowlist = some allowlist) (hcan : canUpdateAllowlist n = true) :
    Updated c db (.ok (c.listed allowlist (c.described n)), storeNamespace (c.listed allowlist (c.described n)) db)

theorem performUpdate_updated (db : Db) : Updated c db (performUpdate c db) := by
  unfold performUpdate transaction
  cases hg : getById db c.namespaceId (some c.accountId) with
  | error e =>
    have hu : update c db = (.error e, db) := by
      unfold update
      rw [bind_of_error (by rw [fetch, hg])]
    rw [hu]
    exact .refused e
  | ok n =>
    have hu : update c db = _ := bind_of_ok (by rw [fetch, hg])
    have hn := getById_row hg
    rw [hu]
    cases hl : c.networkAllowlist with
    | none => exact .described hn hl
    | some allow =>
      dsimp only
      split_ifs with hc
      · exact .listed hn hl hc
      · exact .refused _

theorem changes_storeNamespace {id : ℕ} {row : Namespace} (hid : n.id = id)
    (hr : (storeNamespace n db).namespaces.get? id = some row) :
    row.allowlistChangesToday = n.allowlistChangesToday := by
  unfold storeNamespace at hr
  rw [hid, Table.get?_update, Option.map_eq_some_iff] at hr
  obtain ⟨before, -, rfl⟩ := hr
  rfl

theorem get?_storeNamespace_of_ne {id : ℕ} (hid : id ≠ n.id) :
    (storeNamespace n db).namespaces.get? id = db.namespaces.get? id := by
  unfold storeNamespace
  rw [Table.get?_update_of_ne hid]

structure CountsAll (namespaceId : ℕ) (history : List (UpdateCall × Except ApiError Namespace)) (db : Db) : Prop where
  column : ∀ n, db.namespaces.get? namespaceId = some n →
    n.allowlistChangesToday = (acceptedChanges namespaceId history).length
  atMost : (acceptedChanges namespaceId history).length ≤ 5

theorem CountsAll.step {nid : ℕ} {history : List (UpdateCall × Except ApiError Namespace)}
    (h : CountsAll nid history db) (c : UpdateCall) :
    CountsAll nid (history ++ [(c, (performUpdate c db).1)]) (performUpdate c db).2 := by
  have hu := performUpdate_updated c db
  generalize performUpdate c db = outcome at hu
  have ho : ∀ answer db', (¬ (c.namespaceId = nid ∧ c.networkAllowlist.isSome ∧ answer.toOption.isSome)) →
      (∀ n, db'.namespaces.get? nid = some n → ∃ m, db.namespaces.get? nid = some m ∧
        n.allowlistChangesToday = m.allowlistChangesToday) →
      CountsAll nid (history ++ [(c, answer)]) db' := by
    intro answer db' hno hro
    have hs : acceptedChanges nid (history ++ [(c, answer)]) = acceptedChanges nid history := by
      rw [acceptedChanges_concat, if_neg hno, List.append_nil]
    refine ⟨fun n hn => ?_, hs ▸ h.atMost⟩
    obtain ⟨m, hm, hc⟩ := hro n hn
    rw [hc, hs]
    exact h.column m hm
  cases hu with
  | refused e => exact ho _ _ (fun hok => by simp [Except.toOption] at hok) fun n hn => ⟨n, hn, rfl⟩
  | @described n hn hl =>
    refine ho _ _ (fun hok => by simp [hl] at hok) fun row hr => ?_
    have hid : (c.described n).id = c.namespaceId := (described_id c n).trans (Table.get?_eq_some.mp hn).2
    by_cases hs : nid = c.namespaceId
    · subst hs
      exact ⟨n, hn, (changes_storeNamespace hid hr).trans (described_changes c n)⟩
    · rw [get?_storeNamespace_of_ne (by rw [hid]; exact hs)] at hr
      exact ⟨row, hr, rfl⟩
  | @listed n allow hn hl hca =>
    have hid : (c.listed allow (c.described n)).id = c.namespaceId :=
      (described_id c n).trans (Table.get?_eq_some.mp hn).2
    by_cases hs : nid = c.namespaceId
    · subst hs
      -- one more change, of fewer than five
      have hco := h.column n hn
      have hlt : n.allowlistChangesToday < 5 := of_decide_eq_true hca
      have hmo : (acceptedChanges c.namespaceId
          (history ++ [(c, .ok (c.listed allow (c.described n)))])).length =
            (acceptedChanges c.namespaceId history).length + 1 := by
        rw [acceptedChanges_concat, if_pos ⟨rfl, by rw [hl]; rfl, rfl⟩, List.length_append, List.length_singleton]
      refine ⟨fun row hr => ?_, by dsimp only; omega⟩
      rw [hmo, changes_storeNamespace hid hr, ← hco, ← described_changes c n]
      rfl
    · refine ho _ _ (fun hok => hs hok.1.symm) fun row hr => ?_
      rw [get?_storeNamespace_of_ne (by rw [hid]; exact hs)] at hr
      exact ⟨row, hr, rfl⟩

theorem performUpdate_accepts {c : UpdateCall} (hl : c.networkAllowlist.isSome)
    (hn : getById db c.namespaceId (some c.accountId) = .ok n) :
    (performUpdate c db).1.toOption.isSome ↔ n.allowlistChangesToday < 5 := by
  obtain ⟨allow, hl⟩ := Option.isSome_iff_exists.mp hl
  have hu : update c db = _ := bind_of_ok (by rw [fetch, hn])
  unfold performUpdate transaction
  rw [hu, hl]
  dsimp only
  split_ifs with hc
  · exact iff_of_true rfl (of_decide_eq_true hc)
  · exact iff_of_false (by simp [Except.toOption]) (by simpa [canUpdateAllowlist] using hc)

/-- In every history, at most five changes are accepted in 24 hours. A change that comes when fewer than five were
accepted in the last 24 hours is accepted exactly if fewer than five were ever accepted. -/
theorem allowlist_changes_limited {db₀ db : Db} {history : List (UpdateCall × Except ApiError Namespace)}
    (hstart : ∀ n ∈ db₀.namespaces.rows, n.allowlistChangesToday = 0) (hrun : Run performUpdate db₀ history db) :
    (∀ namespaceId start,
      ((acceptedChanges namespaceId history).filter fun t => start ≤ t ∧ t ≤ start + day).length ≤ 5) ∧
    ∀ c n, c.networkAllowlist.isSome → getById db c.namespaceId (some c.accountId) = .ok n →
      (((inLastDay c.now (acceptedChanges c.namespaceId history)).length < 5 →
        (performUpdate c db).1.toOption.isSome) ↔
        (acceptedChanges c.namespaceId history).length < 5 ∨
          5 ≤ (inLastDay c.now (acceptedChanges c.namespaceId history)).length) := by
  have hc : ∀ namespaceId, CountsAll namespaceId history db := by
    intro namespaceId
    refine hrun.invariant ⟨fun n hn => ?_, Nat.zero_le 5⟩ fun history s c h => h.step c
    exact hstart n (Table.get?_eq_some.mp hn).1
  refine ⟨fun namespaceId start => ?_, fun c n hl hn => ?_⟩
  · exact (List.length_filter_le _ _).trans (hc namespaceId).atMost
  · rw [performUpdate_accepts hl hn, (hc c.namespaceId).column n (getById_row hn)]
    constructor
    · intro ha
      by_cases hr : (inLastDay c.now (acceptedChanges c.namespaceId history)).length < 5
      · exact .inl (ha hr)
      · exact .inr (Nat.le_of_not_lt hr)
    · rintro (hf | hm) hr
      · exact hf
      · exact absurd hm (Nat.not_le_of_lt hr)

def shopDb : Db := { namespaces := .single { id := 1, accountId := 1, name := ⟨"shop", by decide⟩ } }

def changeShop (now : Time) : UpdateCall :=
  { now, namespaceId := 1, accountId := 1, networkAllowlist := some ["api.example.com"] }

def afterChanges (times : List Time) : Db := times.foldl (fun db now => (performUpdate (changeShop now) db).2) shopDb

/-- Five changes on one day; a month later none is accepted. -/
theorem shop_locked_out :
    (performUpdate (changeShop (30 * day)) (afterChanges [0, 1, 2, 3, 4])).1.toOption = none ∧
      inLastDay (30 * day) [0, 1, 2, 3, 4] = [] := by
  decide +kernel

theorem shop_first_change : (performUpdate (changeShop 7) shopDb).1.toOption.isSome ∧
      (performUpdate (changeShop 8) (performUpdate (changeShop 7) shopDb).2).1.toOption.isSome := by
  have hs : Run performUpdate shopDb [] shopDb := .nil
  have hr := hs.step (changeShop 7)
  have hz : ∀ n ∈ shopDb.namespaces.rows, n.allowlistChangesToday = 0 := by decide
  refine ⟨?_, ?_⟩
  · exact ((allowlist_changes_limited hz hs).2 (changeShop 7) _ rfl rfl).mpr (.inl (by decide)) (by decide)
  · exact ((allowlist_changes_limited hz hr).2 (changeShop 8) _ rfl rfl).mpr (.inl (by decide +kernel))
      (by decide +kernel)

end McpworksApi.Services.Namespaces
