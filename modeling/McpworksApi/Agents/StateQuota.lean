import McpworksApi.Agents.AccessRules
import McpworksApi.Agents.Lifecycle
import McpworksApi.Services.FunctionHistory
import McpworksApi.Store.Entries

/-! The quota of the state of agents. What an agent has stored is a partial function from keys to values; `set_state`
and `delete_state` change it at one key, `clone_agent` starts a new agent with that of its source, and a call that
raises changes nothing. -/

namespace McpworksApi.Agents

open Models Py Run Services Session
open Services.Functions (Scope inScope inScope_snd)

abbrev Notes := String → Option Json

def ownerOf (db : Db) (agentId : ℕ) : Option ℕ := (db.agents.get? agentId).map (·.accountId)

def totalSize (es : List AgentState) : ℕ := (es.map (·.sizeBytes)).sum

/-! ### Entries and notes -/

/-- The entries denote the notes, and their sizes are right and within the quota. -/
structure Tidy (dumps : Json → String) (tier : String) (notes : Notes) (es : List AgentState) : Prop where
  denotes : Entries.Denotes AgentState.key AgentState.value es notes
  sizes : ∀ s ∈ es, s.sizeBytes = (encode (dumps s.value)).length
  quota : ∀ limit, maxStateBytes tier = .ok limit → 0 ≤ limit → (totalSize es : ℤ) ≤ limit

section Tidy

variable {dump : Json → String} {tier : String} {notes : Notes} {es es' : List AgentState} {s s' : AgentState}

theorem totalSize_perm (h : es.Perm es') : totalSize es = totalSize es' := (h.map _).sum_eq

theorem totalSize_cons (s : AgentState) (es : List AgentState) :
    totalSize (s :: es) = s.sizeBytes + totalSize es := rfl

theorem Tidy.perm (h : Tidy dump tier notes es) (hp : es.Perm es') : Tidy dump tier notes es' :=
  ⟨h.denotes.perm hp, fun s hs => h.sizes s (hp.mem_iff.mpr hs), totalSize_perm hp ▸ h.quota⟩

theorem Tidy.cons (h : Tidy dump tier notes es) (s : AgentState) (hn : notes s.key = none)
    (hs : s.sizeBytes = (encode (dump s.value)).length)
    (hq : ∀ lim, maxStateBytes tier = .ok lim → (totalSize es + s.sizeBytes : ℤ) ≤ lim) :
    Tidy dump tier (Function.update notes s.key (some s.value)) (s :: es) := by
  refine ⟨h.denotes.cons hn, List.forall_mem_cons.mpr ⟨hs, h.sizes⟩, fun lim hl _ => ?_⟩
  have := hq lim hl
  rw [totalSize_cons]
  omega

theorem Tidy.replace (h : Tidy dump tier notes (s :: es)) (s' : AgentState) (hk : s'.key = s.key)
    (hs : s'.sizeBytes = (encode (dump s'.value)).length)
    (hq : ∀ lim, maxStateBytes tier = .ok lim → (totalSize es + s'.sizeBytes : ℤ) ≤ lim) :
    Tidy dump tier (Function.update notes s.key (some s'.value)) (s' :: es) := by
  refine ⟨h.denotes.replace hk, ?_, fun lim hl _ => ?_⟩
  · exact List.forall_mem_cons.mpr ⟨hs, fun t ht => h.sizes t (List.mem_cons_of_mem _ ht)⟩
  · have := hq lim hl
    rw [totalSize_cons]
    omega

theorem Tidy.tail (h : Tidy dump tier notes (s :: es)) : Tidy dump tier (Function.update notes s.key none) es := by
  refine ⟨h.denotes.tail, fun t ht => h.sizes t (List.mem_cons_of_mem _ ht), fun lim hl hn => ?_⟩
  have := h.quota lim hl hn
  rw [totalSize_cons] at this
  omega

theorem Tidy.copy (h : Tidy dump tier notes es)
    (heq : es'.map (fun s => (s.key, s.value, s.sizeBytes)) = es.map fun s => (s.key, s.value, s.sizeBytes)) :
    Tidy dump tier notes es' := by
  have hpr {β : Type} (g : String × Json × ℕ → β) :
      es'.map (fun s => g (s.key, s.value, s.sizeBytes)) = es.map fun s => g (s.key, s.value, s.sizeBytes) := by
    simpa [Function.comp_def] using congrArg (List.map g) heq
  have hto : totalSize es' = totalSize es := congrArg List.sum (hpr fun t => t.2.2)
  refine ⟨h.denotes.congr (hpr fun t => (t.1, t.2.1)), fun s hs => ?_, hto ▸ h.quota⟩
  have hm := List.mem_map_of_mem (f := fun s : AgentState => (s.value, s.sizeBytes)) hs
  rw [hpr fun t => t.2] at hm
  obtain ⟨t, ht, hp⟩ := List.mem_map.mp hm
  obtain ⟨hv, hsz⟩ := Prod.mk.inj hp
  rw [← hv, ← hsz]
  exact h.sizes t ht

end Tidy

abbrev Memory := ℕ → Notes

/-- Every agent has a tidy memory. -/
structure Sound (dumps : Json → String) (tierOf : ℕ → String) (memory : Memory) (db : Db) : Prop where
  refers : ∀ s ∈ db.agentStates.rows, ownerOf db s.agentId ≠ none
  tidy : ∀ agentId accountId, ownerOf db agentId = some accountId →
    Tidy dumps (tierOf accountId) (memory agentId) (entriesOf db agentId)

/-! ### Calls and runs -/

inductive StateCall
  | setState (accountId : ℕ) (agentName key : String) (value : Json)
  | deleteState (accountId : ℕ) (agentName key : String)
  | cloneAgent (accountId : ℕ) (sourceName newName : String)

def onDb {α : Type} (m : Api α) : DbSession α := fun db => ((m { db }).1, (m { db }).2.db)

def StateCall.run (dumps : Json → String) (tierOf : ℕ → String) (env : LifecycleEnv) : StateCall → DbSession Unit
  | .setState accountId agentName key value =>
      onDb (Agents.setState dumps accountId agentName key value (tierOf accountId))
  | .deleteState accountId agentName key => onDb (Agents.deleteState accountId agentName key)
  | .cloneAgent accountId sourceName newName => do
    let _ ← Agents.cloneAgent env accountId sourceName newName (tierOf accountId)

def performState (dumps : Json → String) (tierOf : ℕ → String)
    (c : Scope × LifecycleEnv × StateCall) : DbSession Unit :=
  inScope c.1 (c.2.2.run dumps tierOf c.2.1)

/-- What the agents have stored after a call: a key is set or deleted if the call returned, and an agent that is there
after a call of `clone_agent` and was not there before has what its source has. -/
def remember (call : StateCall) (answer : Except ApiError Unit) (db db' : Db) (memory : Memory) : Memory :=
  match call, answer with
  | .setState accountId agentName key value, .ok () =>
    match getAgent db accountId agentName with
    | .ok agent => Function.update memory agent.id (Function.update (memory agent.id) key (some value))
    | .error _ => memory
  | .deleteState accountId agentName key, .ok () =>
    match getAgent db accountId agentName with
    | .ok agent => Function.update memory agent.id (Function.update (memory agent.id) key none)
    | .error _ => memory
  | .cloneAgent accountId sourceName _, _ =>
    match getAgent db accountId sourceName with
    | .ok source => fun i => if (ownerOf db i).isNone ∧ (ownerOf db' i).isSome then memory source.id else memory i
    | .error _ => memory
  | _, _ => memory

/-- A run of calls, with the memory that their answers promise. -/
inductive StateRun (dumps : Json → String) (tierOf : ℕ → String) (db₀ : Db) (memory₀ : Memory) : Db → Memory → Prop
  | start : StateRun dumps tierOf db₀ memory₀ db₀ memory₀
  | step {db : Db} {memory : Memory} (c : Scope × LifecycleEnv × StateCall)
    (h : StateRun dumps tierOf db₀ memory₀ db memory) :
    StateRun dumps tierOf db₀ memory₀ (performState dumps tierOf c db).2
      (remember c.2.2 (performState dumps tierOf c db).1 db (performState dumps tierOf c db).2 memory)

/-- What holds of the states after any run. -/
structure StateLaw (dumps : Json → String) (tierOf : ℕ → String) (memory : Memory) (db : Db) : Prop where
  quota : ∀ agent ∈ db.agents.rows, ∀ limit, maxStateBytes (tierOf agent.accountId) = .ok limit → 0 ≤ limit →
    ((entriesOf db agent.id).map (·.sizeBytes)).sum ≤ limit
  unique : ∀ agent ∈ db.agents.rows, ((entriesOf db agent.id).map (·.key)).Nodup
  sizes : ∀ s ∈ db.agentStates.rows, s.sizeBytes = (encode (dumps s.value)).length
  reads : ∀ accountId agentName agent key, getAgent db accountId agentName = .ok agent →
    (getState db accountId agentName key).toOption.map (·.value) = memory agent.id key
  unchanged : ∀ scope env accountId agentName key value e,
    (performState dumps tierOf (scope, env, .setState accountId agentName key value) db).1 = .error e →
      (performState dumps tierOf (scope, env, .setState accountId agentName key value) db).2 = db

/-! ### Lookups -/

section Lookups

variable {dump : Json → String} {tof : ℕ → String} {memory : Memory} {db db' : Db} {accountId : ℕ}
  {an key tier : String} {ag : Agent}

theorem mem_of_getAgent {name : String} {ag : Agent} (h : getAgent db accountId name = .ok ag) :
    ag ∈ db.agents.rows ∧ ag.accountId = accountId := by
  obtain ⟨found, hf, h⟩ := bind_eq_ok.mp h
  rcases found with _ | a
  · cases h
  · cases h
    have hm := mem_of_scalarOneOrNone hf
    obtain ⟨hr, hk⟩ := Table.mem_select.mp hm
    exact ⟨hr, (of_decide_eq_true hk).1⟩

theorem ownerOf_of_mem {agent : Agent} (h : agent ∈ db.agents.rows) : ownerOf db agent.id = some agent.accountId := by
  have hg : db.agents.get? agent.id = some agent := Table.get?_eq_some.mpr ⟨h, rfl⟩
  rw [ownerOf, hg]
  rfl

theorem ownerOf_updateAgent {i : ℕ} {f : Agent → Agent} {hf : ∀ a, (f a).id = a.id}
    (ha : ∀ a, (f a).accountId = a.accountId) :
    ownerOf { db with agents := db.agents.update i f hf } = ownerOf db := by
  funext j
  simp only [ownerOf, Table.update, Table.get?_updateWhere, Option.map_map]
  congr 1
  funext a
  simp only [Function.comp_apply]
  split
  · exact ha a
  · rfl

theorem ownerOf_of_getAgent (h : getAgent db accountId an = .ok ag) : ownerOf db ag.id = some accountId := by
  obtain ⟨hm, ho⟩ := mem_of_getAgent h
  rw [ownerOf_of_mem hm, ho]

theorem findEntry_eq (db : Db) (agentId : ℕ) (key : String) :
    findEntry db agentId key = scalarOneOrNone ((entriesOf db agentId).filter fun s => decide (s.key = key)) := by
  unfold findEntry entriesOf Table.select
  rw [List.filter_filter]
  congr 1
  refine List.filter_congr fun s _ => ?_
  rw [Bool.decide_and, Bool.and_comm]

variable {agentId size : ℕ} (env : LifecycleEnv) (sc : Scope)

theorem findEntry_of_denotes {notes : Notes}
    (h : Entries.Denotes AgentState.key AgentState.value (entriesOf db agentId) notes) (key : String) :
    ∃ found, findEntry db agentId key = .ok found ∧ found.map (·.value) = notes key := by
  rw [findEntry_eq]
  cases hn : notes key with
  | none =>
    have ha := h.eq_none_iff.mp hn
    have hni : (entriesOf db agentId).filter (fun s => decide (s.key = key)) = [] :=
      List.filter_eq_nil_iff.mpr fun s hs hk => ha s hs (by simpa using hk)
    exact ⟨none, by rw [hni]; rfl, rfl⟩
  | some value =>
    obtain ⟨s, hs, rfl, rfl⟩ := (h.iff key value).mp hn
    exact ⟨some s, by rw [h.filter_eq_singleton hs]; rfl, rfl⟩

theorem getState_value (hs : Sound dump tof memory db) (ha : getAgent db accountId an = .ok ag)
    (key : String) : (getState db accountId an key).toOption.map (·.value) = memory ag.id key := by
  obtain ⟨found, hf, hv⟩ :=
    findEntry_of_denotes (hs.tidy ag.id accountId (ownerOf_of_getAgent ha)).denotes key
  unfold getState
  rw [ha]
  change Option.map _ ((findEntry db ag.id key >>= _).toOption) = _
  rw [hf, ← hv]
  cases found <;> rfl

theorem projected_le {old : Option AgentState}
    (h : checkSetState db accountId an key size tier = .ok (ag, old)) :
    ∀ limit, maxStateBytes tier = .ok limit →
      (totalSize (entriesOf db ag.id) : ℤ) - ((old.map (·.sizeBytes)).getD 0 : ℕ) + size ≤ limit := by
  intro limit hl
  obtain ⟨a, -, h⟩ := bind_eq_ok.mp h
  obtain ⟨lim', hl', h⟩ := bind_eq_ok.mp h
  obtain ⟨found, -, h⟩ := bind_eq_ok.mp h
  cases hl.symm.trans hl'
  dsimp only at h
  split at h
  · cases h
  rename_i hle
  split at h
  · cases h
  cases h
  unfold totalSize
  omega

theorem entriesOf_perm {rows : List AgentState} (h : db.agentStates.rows.Perm rows) (agentId : ℕ) :
    (entriesOf db agentId).Perm (rows.filter fun s => decide (s.agentId = agentId)) := h.filter _

theorem filter_own {es : List AgentState} (h : ∀ s ∈ es, s.agentId = agentId) :
    es.filter (fun s => decide (s.agentId = agentId)) = es :=
  List.filter_eq_self.mpr fun s hs => by simpa using h s hs

theorem filter_other {i : ℕ} {es : List AgentState} (h : ∀ s ∈ es, s.agentId = agentId) (hi : i ≠ agentId) :
    es.filter (fun s => decide (s.agentId = i)) = [] :=
  List.filter_eq_nil_iff.mpr fun s hs heq => hi ((by simpa using heq : s.agentId = i).symm.trans (h s hs))

/-! ### What the writes do to a sound database -/

theorem Sound.write {notes : Notes} {old new os : List AgentState} (h : Sound dump tof memory db)
    (ho : ownerOf db' = ownerOf db) (ha : ownerOf db agentId = some accountId)
    (hr : db.agentStates.rows.Perm (old ++ os)) (hr' : db'.agentStates.rows.Perm (new ++ os))
    (hol : ∀ s ∈ old, s.agentId = agentId) (hn : ∀ s ∈ new, s.agentId = agentId)
    (ht : ∀ rest, (entriesOf db agentId).Perm (old ++ rest) →
      Tidy dump (tof accountId) (memory agentId) (old ++ rest) → Tidy dump (tof accountId) notes (new ++ rest)) :
    Sound dump tof (Function.update memory agentId notes) db' := by
  refine ⟨fun s hs => ?_, fun i owner hi => ?_⟩
  · rw [ho]
    rcases List.mem_append.mp (hr'.mem_iff.mp hs) with hs | hs
    · rw [hn s hs, ha]
      simp
    · exact h.refers s (hr.mem_iff.mpr (List.mem_append_right _ hs))
  · rw [ho] at hi
    have he := entriesOf_perm hr i
    have he' := entriesOf_perm hr' i
    rw [List.filter_append] at he he'
    by_cases hsa : i = agentId
    · subst hsa
      obtain rfl : owner = accountId := Option.some.inj (hi.symm.trans ha)
      rw [filter_own hol] at he
      rw [filter_own hn] at he'
      rw [Function.update_self]
      exact (ht _ he ((h.tidy i owner hi).perm he)).perm he'.symm
    · rw [filter_other hol hsa, List.nil_append] at he
      rw [filter_other hn hsa, List.nil_append] at he'
      rw [Function.update_of_ne hsa]
      exact (h.tidy i owner hi).perm (he.trans he'.symm)

theorem onDb_setState (dump : Json → String) (accountId : ℕ) (an key : String) (v : Json) (tier : String) (db : Db) :
    onDb (setState dump accountId an key v tier) db =
      match checkSetState db accountId an key (encode (dump v)).length tier with
      | .error e => (.error e, db)
      | .ok (_, some entry) => (.ok (), rewriteEntry entry.id v (encode (dump v)).length db)
      | .ok (ag, none) => (.ok (), addEntry ag.id key v (encode (dump v)).length db) := by
  simp only [onDb, setState, fetch_bind_apply]
  rcases checkSetState db accountId an key (encode (dump v)).length tier with e | ⟨ag, _ | entry⟩ <;> rfl

theorem onDb_deleteState (accountId : ℕ) (an key : String) (db : Db) :
    onDb (deleteState accountId an key) db =
      match getState db accountId an key with
      | .error e => (.error e, db)
      | .ok entry => (.ok (), removeEntry entry.id db) := by
  simp only [onDb, deleteState, fetch_bind_apply]
  rcases getState db accountId an key with e | entry <;> rfl

theorem get?_of_mem_entriesOf {s : AgentState} (h : s ∈ entriesOf db agentId) :
    db.agentStates.get? s.id = some s ∧ s.agentId = agentId := by
  obtain ⟨hr, ha⟩ := Table.mem_select.mp h
  exact ⟨Table.get?_eq_some.mpr ⟨hr, rfl⟩, by simpa using ha⟩

theorem Sound.rewrite {value : Json} {ent : AgentState} (h : Sound dump tof memory db)
    (hs : size = (encode (dump value)).length)
    (hc : checkSetState db accountId an key size (tof accountId) = .ok (ag, some ent)) :
    Sound dump tof (Function.update memory ag.id (Function.update (memory ag.id) key (some value)))
      (rewriteEntry ent.id value size db) := by
  obtain ⟨ha, hf⟩ := checkSetState_eq_ok hc
  obtain ⟨he, rfl⟩ := mem_entriesOf_of_findEntry hf
  obtain ⟨hg, ho⟩ := get?_of_mem_entriesOf he
  obtain ⟨os, hr, -, hu⟩ := Table.exists_others hg
  have how : ownerOf (rewriteEntry ent.id value size db) = ownerOf db := rfl
  have hr : db.agentStates.rows.Perm ([ent] ++ os) := hr
  have hr' : (rewriteEntry ent.id value size db).agentStates.rows.Perm
      ([{ ent with value, sizeBytes := size }] ++ os) :=
    hu (fun s => { s with value, sizeBytes := size }) fun _ => rfl
  apply h.write how (ownerOf_of_getAgent ha) hr hr'
  · simpa using ho
  · simpa using ho
  · intro rest hre ht
    apply ht.replace { ent with value, sizeBytes := size } rfl hs
    intro lim hl
    have hp := projected_le hc lim hl
    rw [totalSize_perm hre] at hp
    simp only [List.singleton_append, totalSize_cons, Option.map_some, Option.getD_some] at hp
    show (totalSize rest + size : ℤ) ≤ lim
    omega

theorem Sound.add {value : Json} (h : Sound dump tof memory db)
    (hs : size = (encode (dump value)).length)
    (hc : checkSetState db accountId an key size (tof accountId) = .ok (ag, none)) :
    Sound dump tof (Function.update memory ag.id (Function.update (memory ag.id) key (some value)))
      (addEntry ag.id key value size db) := by
  obtain ⟨ha, hf⟩ := checkSetState_eq_ok hc
  have ho := ownerOf_of_getAgent ha
  have hn : memory ag.id key = none := by
    obtain ⟨found, hfo, hv⟩ := findEntry_of_denotes (h.tidy ag.id accountId ho).denotes key
    cases hf.symm.trans hfo
    exact hv.symm
  have how : ownerOf (addEntry ag.id key value size db) = ownerOf db := rfl
  have hr : db.agentStates.rows.Perm ([] ++ db.agentStates.rows) := .refl _
  have hr' : (addEntry ag.id key value size db).agentStates.rows.Perm
      ([{ id := db.agentStates.freshId, agentId := ag.id, key, value, sizeBytes := size }] ++
        db.agentStates.rows) := List.perm_append_singleton _ _
  apply h.write how ho hr hr'
  · simp
  · simp
  · intro rest hre ht
    apply ht.cons
      { id := db.agentStates.freshId, agentId := ag.id, key, value, sizeBytes := size } hn hs
    intro lim hl
    have hp := projected_le hc lim hl
    rw [totalSize_perm hre] at hp
    simp only [List.nil_append, Option.map_none, Option.getD_none] at hp ⊢
    push_cast at hp
    omega

theorem Sound.remove {ent : AgentState} (h : Sound dump tof memory db)
    (ha : getAgent db accountId an = .ok ag) (he : ent ∈ entriesOf db ag.id) :
    Sound dump tof (Function.update memory ag.id (Function.update (memory ag.id) ent.key none))
      (removeEntry ent.id db) := by
  obtain ⟨hg, ho⟩ := get?_of_mem_entriesOf he
  obtain ⟨os, hr, hr', -⟩ := Table.exists_others hg
  have how : ownerOf (removeEntry ent.id db) = ownerOf db := rfl
  have hr : db.agentStates.rows.Perm ([ent] ++ os) := hr
  have hr' : (removeEntry ent.id db).agentStates.rows.Perm ([] ++ os) := hr'
  apply h.write how (ownerOf_of_getAgent ha) hr hr'
  · simpa using ho
  · simp
  · intro rest _ ht
    exact ht.tail

/-! ### Cloning -/

/-- What a call of `clone_agent` can do: nothing that matters here, or a new agent with copies of the entries of its
source. -/
inductive CloneEffect (accountId : ℕ) (sourceName : String) (db db' : Db) : Prop
  | none (howner : ownerOf db' = ownerOf db) (hstates : db'.agentStates = db.agentStates)
  | copied (source : Agent) (i : ℕ) (copies : List AgentState)
      (hsource : getAgent db accountId sourceName = .ok source)
    (hfree : ownerOf db i = Option.none) (howner : ownerOf db' = Function.update (ownerOf db) i (some accountId))
    (hrows : db'.agentStates.rows = db.agentStates.rows ++ copies) (hown : ∀ s ∈ copies, s.agentId = i)
    (hcopies : copies.map (fun s => (s.key, s.value, s.sizeBytes)) =
      (entriesOf db source.id).map fun s => (s.key, s.value, s.sizeBytes))

theorem copyBelongings_states (src tgt : ℕ) (db : Db) :
    ∃ cps, (copyBelongings src tgt db).agentStates.rows = db.agentStates.rows ++ cps ∧
      (∀ s ∈ cps, s.agentId = tgt) ∧
      cps.map (fun s => (s.key, s.value, s.sizeBytes)) =
        (entriesOf db src).map fun s => (s.key, s.value, s.sizeBytes) := by
  obtain ⟨cps, hr, hco⟩ := Table.rows_foldl_insert
    (fun (s : AgentState) i => { s with id := i, agentId := tgt }) (fun _ _ => rfl) (entriesOf db src) db.agentStates
  refine ⟨cps, hr, ?_, ?_⟩
  · intro c hc
    obtain ⟨s, -, i, rfl⟩ := exists_of_mem_right hco hc
    rfl
  · clear hr
    generalize entriesOf db src = entries at hco
    induction hco with
    | nil => rfl
    | cons h _ ih =>
      obtain ⟨i, rfl⟩ := h
      rw [List.map_cons, List.map_cons, ih]

theorem ownerOf_insert {mk : ℕ → Agent} {hmk : ∀ i, (mk i).id = i} :
    ownerOf { db with agents := db.agents.insert mk hmk } =
      Function.update (ownerOf db) db.agents.freshId (some (mk db.agents.freshId).accountId) := by
  funext i
  by_cases hi : i = db.agents.freshId
  · subst hi
    have hg : (db.agents.insert mk hmk).get? db.agents.freshId = some (mk db.agents.freshId) := Table.get?_insert
    rw [Function.update_self, ownerOf, hg]
    rfl
  · rw [Function.update_of_ne hi, ownerOf, Table.get?_insert_of_ne hi]
    rfl

theorem ownerOf_freshId (db : Db) : ownerOf db db.agents.freshId = none := by
  unfold ownerOf
  cases hg : db.agents.get? db.agents.freshId with
  | none => rfl
  | some a =>
    obtain ⟨hm, hid⟩ := Table.get?_eq_some.mp hg
    exact absurd hid (Table.freshId_ne hm)

theorem startClone_keeps (ag : Agent) :
    Keeps (fun db : Db => (ownerOf db, db.agentStates)) (startClone env ag) := by
  unfold startClone
  split
  · exact .write fun db => Prod.ext (ownerOf_updateAgent fun _ => rfl) rfl
  · exact .write fun db => Prod.ext (ownerOf_updateAgent fun _ => rfl) rfl
  · exact .raise _

theorem cloneAgent_effect (accountId : ℕ) (src nn tier : String) (db : Db) :
    CloneEffect accountId src db (cloneAgent env accountId src nn tier db).2 := by
  have hr : CloneEffect accountId src db db := .none rfl rfl
  apply Wp.always (R := CloneEffect accountId src db)
  apply Wp.fetch_bind (fun _ _ => hr)
  intro cfg _
  apply Wp.fetch_bind (fun _ _ => hr)
  intro _ _
  apply Wp.fetch_bind (fun _ _ => hr)
  intro sr hso
  apply Wp.bind
  refine (Wp.of_maintains (I := fun db₁ : Db => ownerOf db₁ = ownerOf db ∧ db₁.agentStates = db.agentStates)
    (Namespaces.create_maintains fun _ _ h => h) ⟨rfl, rfl⟩).mono (fun ns db₁ h₁ =>
      ?_) fun e db₁ h₁ => .none h₁.1 h₁.2
  obtain ⟨⟨ho, hs⟩, -⟩ := h₁
  apply Wp.bind
  refine (addAgent_wp _ db₁).mono (fun ag db₂ h₂ => ?_) fun e db₂ h₂ => h₂ ▸ .none ho hs
  obtain ⟨hag, hdb₂⟩ := h₂
  have hid : ag.id = db₁.agents.freshId := by rw [hag]
  have hs₂ : db₂.agentStates = db.agentStates := by rw [hdb₂, ← hs]
  have ho₂ : ownerOf db₂ = Function.update (ownerOf db) ag.id (some accountId) := by
    rw [hdb₂, hid, ← ho]
    exact ownerOf_insert
  apply Wp.write_bind
  apply Wp.bind
  obtain ⟨cps, hro, how, hco⟩ := copyBelongings_states sr.id ag.id db₂
  have he : entriesOf db₂ sr.id = entriesOf db sr.id := by
    unfold entriesOf
    rw [hs₂]
  have hcp (db₃ : Db) (h₃ : (ownerOf db₃, db₃.agentStates) =
      (ownerOf (copyBelongings sr.id ag.id db₂), (copyBelongings sr.id ag.id db₂).agentStates)) :
      CloneEffect accountId src db db₃ := by
    obtain ⟨ho₃, hs₃⟩ := Prod.mk.inj h₃
    apply CloneEffect.copied sr ag.id cps hso
    · rw [hid, ← ho]
      exact ownerOf_freshId db₁
    · exact ho₃.trans ho₂
    · rw [hs₃, hro, hs₂]
    · exact how
    · rw [hco, he]
  have hst := Wp.always_iff (R := fun db₃ : Db => CloneEffect accountId src db db₃) |>.mpr
    (hcp _ (startClone_keeps env ag (copyBelongings sr.id ag.id db₂)))
  exact hst.mono (fun _ _ h => Wp.pure h) fun _ _ h => h

theorem Sound.clone {src nn : String} {ans : Except ApiError Unit} (h : Sound dump tof memory db)
    (he : CloneEffect accountId src db db') :
    Sound dump tof (remember (.cloneAgent accountId src nn) ans db db' memory) db' := by
  cases he with
  | none ho hst =>
    have hsa : remember (.cloneAgent accountId src nn) ans db db' memory = memory := by
      unfold remember
      dsimp only
      split
      · funext i
        rw [ho]
        cases ownerOf db i <;> simp
      · rfl
    rw [hsa]
    refine ⟨?_, ?_⟩
    · rw [ho, hst]
      exact h.refers
    · rw [ho]
      unfold entriesOf
      rw [hst]
      exact h.tidy
  | copied sr i cps hso hf ho hr how hc =>
    have hen (j : ℕ) : entriesOf db' j = entriesOf db j ++ cps.filter fun s => decide (s.agentId = j) := by
      unfold entriesOf Table.select
      rw [hr, List.filter_append]
    refine ⟨fun s hs => ?_, fun j owner hj => ?_⟩
    · rw [ho]
      rw [hr] at hs
      rcases List.mem_append.mp hs with hs | hs
      · by_cases hsi : s.agentId = i
        · rw [hsi, Function.update_self]
          simp
        · rw [Function.update_of_ne hsi]
          exact h.refers s hs
      · rw [how s hs, Function.update_self]
        simp
    · have hm : remember (.cloneAgent accountId src nn) ans db db' memory j =
          if j = i then memory sr.id else memory j := by
        simp only [remember, hso]
        by_cases hji : j = i
        · subst hji
          simp [ho, hf]
        · rw [ho, Function.update_of_ne hji, if_neg hji]
          cases ownerOf db j <;> simp
      rw [hm, hen]
      rw [ho] at hj
      by_cases hji : j = i
      · -- no entry has been there for an agent that was not there
        subst hji
        rw [Function.update_self] at hj
        cases hj
        have hn : entriesOf db j = [] :=
          List.filter_eq_nil_iff.mpr fun s hs heq => h.refers s hs (by rw [(by simpa using heq : s.agentId = j), hf])
        rw [if_pos rfl, hn, List.nil_append, filter_own how]
        exact (h.tidy sr.id accountId (ownerOf_of_getAgent hso)).copy hc
      · rw [Function.update_of_ne hji] at hj
        rw [if_neg hji, filter_other how hji, List.append_nil]
        exact h.tidy j owner hj

/-! ### Whole runs -/

theorem inScope_eq {α : Type} {m : DbSession α} (h : ∀ e, (m db).1 = .error e → (m db).2 = db) :
    inScope sc m db = m db := by
  unfold inScope
  rcases hm : m db with ⟨e | a, db'⟩
  · rw [hm] at h
    simp [show db' = db from h e rfl]
  · rfl

theorem onDb_setState_unchanged {e : ApiError} {v : Json}
    (h : (onDb (setState dump accountId an key v tier) db).1 = .error e) :
    (onDb (setState dump accountId an key v tier) db).2 = db := by
  rw [onDb_setState] at h ⊢
  split at h
  · rfl
  · cases h
  · cases h

theorem performState_setState (env : LifecycleEnv) (accountId : ℕ) (an key : String) (v : Json) (db : Db) :
    performState dump tof (sc, env, .setState accountId an key v) db =
      onDb (setState dump accountId an key v (tof accountId)) db :=
  inScope_eq sc fun _ => onDb_setState_unchanged

theorem performState_deleteState (env : LifecycleEnv) (accountId : ℕ) (an key : String) (db : Db) :
    performState dump tof (sc, env, .deleteState accountId an key) db =
      onDb (deleteState accountId an key) db := by
  refine inScope_eq sc (m := onDb (deleteState accountId an key)) fun e h => ?_
  rw [onDb_deleteState] at h ⊢
  split at h
  · rfl
  · cases h

theorem Sound.setState (h : Sound dump tof memory db) (accountId : ℕ) (an key : String) (v : Json) :
    Sound dump tof
      (remember (.setState accountId an key v)
        (onDb (Agents.setState dump accountId an key v (tof accountId)) db).1 db db' memory)
      (onDb (Agents.setState dump accountId an key v (tof accountId)) db).2 := by
  rw [onDb_setState]
  split
  · exact h
  · rename_i ag entry hc
    simp only [remember, (checkSetState_eq_ok hc).1]
    exact h.rewrite rfl hc
  · rename_i ag hc
    simp only [remember, (checkSetState_eq_ok hc).1]
    exact h.add rfl hc

theorem Sound.deleteState (h : Sound dump tof memory db) (accountId : ℕ) (an key : String) :
    Sound dump tof
      (remember (.deleteState accountId an key) (onDb (Agents.deleteState accountId an key) db).1 db db' memory)
      (onDb (Agents.deleteState accountId an key) db).2 := by
  rw [onDb_deleteState]
  split
  · exact h
  · rename_i entry hg
    obtain ⟨ag, ha, he, rfl⟩ := mem_entriesOf_of_getState hg
    simp only [remember, ha]
    exact h.remove ha he

theorem Sound.perform (h : Sound dump tof memory db) (c : Scope × LifecycleEnv × StateCall) :
    Sound dump tof
      (remember c.2.2 (performState dump tof c db).1 db (performState dump tof c db).2 memory)
      (performState dump tof c db).2 := by
  obtain ⟨sc, env, call⟩ := c
  cases call with
  | setState accountId an key value =>
    rw [performState_setState]
    exact h.setState accountId an key value
  | deleteState accountId an key =>
    rw [performState_deleteState]
    exact h.deleteState accountId an key
  | cloneAgent accountId src newName =>
    apply h.clone
    apply inScope_snd (R := CloneEffect accountId src db) sc _ (.none rfl rfl)
    have hr : (StateCall.run dump tof env (.cloneAgent accountId src newName) db).2 =
        (Agents.cloneAgent env accountId src newName (tof accountId) db).2 :=
      bind_pure_snd _ _ _
    rw [hr]
    exact cloneAgent_effect env accountId src newName (tof accountId) db

theorem Sound.law (h : Sound dump tof memory db) : StateLaw dump tof memory db where
  quota ag hagent limit hl hnonneg := by
    exact (h.tidy ag.id ag.accountId (ownerOf_of_mem hagent)).quota limit hl hnonneg
  unique ag hagent := (h.tidy ag.id ag.accountId (ownerOf_of_mem hagent)).denotes.nodup
  sizes s hs := by
    cases ho : ownerOf db s.agentId with
    | none => exact absurd ho (h.refers s hs)
    | some accountId =>
      have hen : s ∈ entriesOf db s.agentId := Table.mem_select.mpr ⟨hs, by simp⟩
      exact (h.tidy s.agentId accountId ho).sizes s hen
  reads accountId an ag key hagent := getState_value h hagent key
  unchanged sc env accountId an key value e := by
    intro he
    rw [performState_setState] at he ⊢
    exact onDb_setState_unchanged he

theorem Sound.of_empty (h : db.agentStates.rows = []) : Sound dump tof (fun _ _ => none) db := by
  have hn : ∀ agentId, entriesOf db agentId = [] := by
    intro agentId
    unfold entriesOf Table.select
    rw [h]
    rfl
  constructor
  · intro s hs
    rw [h] at hs
    cases hs
  · intro agentId accountId _
    rw [hn]
    exact ⟨.nil, nofun, fun lim _ hno => hno⟩

end Lookups

/-- In every run from a database in which the state of the agents is as it should be, the quota is kept, each key has at
most one entry of the right size, what is read is what was last set, and a call that raises changes nothing. -/
theorem state_quota_kept (dumps : Json → String) (tierOf : ℕ → String) {db₀ db : Db} {memory₀ memory : Memory}
    (hstart : Sound dumps tierOf memory₀ db₀) (h : StateRun dumps tierOf db₀ memory₀ db memory) :
    StateLaw dumps tierOf memory db := by
  have hs : Sound dumps tierOf memory db := by
    induction h with
    | start => exact hstart
    | step c _ ih => exact ih.perform c
  exact hs.law

/-- In every such run the listed keys are those that can be read, each once, and the listed size is that of the values
that a run of the agent is given. -/
theorem listed_keys_readable (dumps : Json → String) (tierOf : ℕ → String) {db₀ db : Db} {memory₀ memory : Memory}
    (hstart : Sound dumps tierOf memory₀ db₀) (h : StateRun dumps tierOf db₀ memory₀ db memory) (accountId : ℕ)
    (agentName tier : String) {listed : StateKeys} (hl : listStateKeys db accountId agentName tier = .ok listed) :
    listed.keys.Nodup ∧ (∀ key, key ∈ listed.keys ↔ ∃ s, getState db accountId agentName key = .ok s) ∧
      ∃ agent, getAgent db accountId agentName = .ok agent ∧
        listed.totalSizeBytes = ((getAllState db agent.id).map fun e => (encode (dumps e.2)).length).sum := by
  have hs : Sound dumps tierOf memory db := by
    clear hl
    induction h with
    | start => exact hstart
    | step c _ ih => exact ih.perform c
  obtain ⟨agent, ha, hl⟩ := bind_eq_ok.mp hl
  obtain ⟨limit, -, hl⟩ := bind_eq_ok.mp hl
  cases hl
  have ht := hs.tidy agent.id accountId (ownerOf_of_getAgent ha)
  have hp := List.mergeSort_perm (entriesOf db agent.id) (·.key ≤ ·.key)
  refine ⟨(hp.map (·.key)).nodup_iff.mpr ht.denotes.nodup, fun key => ?_, agent, ha, ?_⟩
  · have hm : key ∈ ((entriesOf db agent.id).mergeSort (·.key ≤ ·.key)).map (·.key) ↔ memory agent.id key ≠ none := by
      rw [ne_eq, ht.denotes.eq_none_iff]
      simp [hp.mem_iff]
    rw [hm, ← getState_value hs ha key]
    cases getState db accountId agentName key <;> simp [Except.toOption]
  · rw [getAllState, List.map_map, (hp.map (·.sizeBytes)).sum_eq]
    exact congrArg List.sum (List.map_congr_left ht.sizes)

def botCall (call : StateCall) : Scope × LifecycleEnv × StateCall := (.answered, plainDocker, call)

def moodCalls : List (Scope × LifecycleEnv × StateCall) :=
  [botCall (.setState 1 "bot" "mood" (.str "calm")), botCall (.cloneAgent 1 "bot" "copy"),
    botCall (.setState 1 "bot" "mood" (.str "cross"))]

def proTier (_ : ℕ) : String := "pro-agent"

def botDb : Db := { agents := .single { id := 1, accountId := 1, namespaceId := 1, name := "bot" } }

def afterStateCalls (calls : List (Scope × LifecycleEnv × StateCall)) (db : Db) : Db :=
  calls.foldl (fun db c => (performState Json.dumps proTier c db).2) db

theorem moods_within_quota : ∃ memory,
    StateRun Json.dumps proTier botDb (fun _ _ => none)
        (afterStateCalls moodCalls botDb) memory ∧
      StateLaw Json.dumps proTier memory (afterStateCalls moodCalls botDb) ∧
      ((getState (afterStateCalls moodCalls botDb) 1 "copy" "mood").toOption.map (·.value)
        = some (.str "calm")) := by
  have hs : Sound Json.dumps proTier (fun _ _ => none) botDb := .of_empty (by decide +kernel)
  have hn : StateRun Json.dumps proTier botDb (fun _ _ => none) botDb
    fun _ _ => none := .start
  have hse := hn.step (botCall (.setState 1 "bot" "mood" (.str "calm")))
  have hc := hse.step (botCall (.cloneAgent 1 "bot" "copy"))
  have hr := hc.step (botCall (.setState 1 "bot" "mood" (.str "cross")))
  exact ⟨_, hr, state_quota_kept Json.dumps proTier hs hr, by rfl⟩

theorem mood_listed : ∃ listed, listStateKeys (afterStateCalls (moodCalls.take 1) botDb) 1 "bot"
    "pro-agent" = .ok listed ∧ listed.keys.Nodup := by
  have hs : Sound Json.dumps proTier (fun _ _ => none) botDb := .of_empty (by decide +kernel)
  exact ⟨_, rfl, (listed_keys_readable _ _ hs (.step (botCall (.setState 1 "bot" "mood" (.str "calm"))) .start) 1
    "bot" "pro-agent" rfl).1⟩

end McpworksApi.Agents
