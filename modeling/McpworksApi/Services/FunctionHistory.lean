import McpworksApi.Services.Catalog
import McpworksApi.Session.Trace
import McpworksApi.Session.Wp

/-! Histories of functions. A call of `FunctionService` rewrites the row of one function, adds a version to it, or does
nothing; only the creation of a function whose version is refused leaves a function without versions behind. -/

namespace McpworksApi.Services.Functions

open Models Py Session

inductive FunctionCall
  | create (serviceId : ℕ) (n : NewFunction)
  | createVersion (functionId : ℕ) (v : NewVersion) (isAdmin activate : Bool)
  | setActiveVersion (functionId : ℕ) (version : ℤ)
  | update (functionId : ℕ) (description tags publicSafe outputTrust : Json)
  | delete (now : Time) (functionId : ℕ) (isAdmin : Bool)
  | lockFunction (now : Time) (functionId lockedBy : ℕ)
  | unlockFunction (functionId : ℕ)

def FunctionCall.run : FunctionCall → DbSession Unit
  | .create serviceId n => do
    let _ ← Functions.create serviceId n
    pure ()
  | .createVersion i v isAdmin activate => do
    let _ ← Functions.createVersion i v isAdmin activate
    pure ()
  | .setActiveVersion i version => do
    let _ ← Functions.setActiveVersion i version
    pure ()
  | .update i description tags publicSafe outputTrust => do
    let _ ← Functions.update i description tags publicSafe outputTrust
    pure ()
  | .delete now i isAdmin => Functions.delete now i isAdmin
  | .lockFunction now i lockedBy => do
    let _ ← Functions.lockFunction now i lockedBy
    pure ()
  | .unlockFunction i => do
    let _ ← Functions.unlockFunction i
    pure ()

/-- Who has the session of a call: an endpoint that answers errors and commits, or a scope that an error
leaves and that rolls back. -/
inductive Scope
  | answered
  | rolledBack
  deriving DecidableEq, Repr

def isDatabaseError : ApiError → Bool
  | .py .integrityError _ | .py .dataError _ => true
  | _ => false

def inScope {α : Type} (scope : Scope) (m : DbSession α) : DbSession α := fun db =>
  match m db with
  | (.ok a, db') => (.ok a, db')
  | (.error e, db') => (.error e, if scope = .answered ∧ isDatabaseError e = false then db' else db)

def perform (c : Scope × FunctionCall) : DbSession Unit := inScope c.1 c.2.run

theorem inScope_snd {α : Type} {R : Db → Prop} {db : Db} (sc : Scope) {m : DbSession α}
    (hm : R (m db).2) (hdb : R db) :
    R (inScope sc m db).2 := by
  unfold inScope
  rcases h : m db with ⟨e | a, db'⟩ <;> rw [h] at hm
  · dsimp only
    split
    · exact hm
    · exact hdb
  · exact hm

/-! ### What a call does -/

/-- One row of the functions was rewritten, and its name and service were not. -/
structure Rewrote (db db' : Db) (e g : Function) : Prop where
  mem : e ∈ db.functions.rows
  functions : db.functions.Puts db'.functions g
  versions : db'.versions = db.versions
  services : db'.services = db.services
  namespaces : db'.namespaces = db.namespaces
  id_eq : g.id = e.id
  serviceId_eq : g.serviceId = e.serviceId
  name_eq : g.name = e.name
  active : g.activeVersion = e.activeVersion ∨ ∃ v ∈ db.versions.rows, v.functionId = e.id ∧
    v.version = g.activeVersion

/-- A function without a version was added. -/
structure Bare (db db' : Db) (g : Function) : Prop where
  functions : db.functions.Puts db'.functions g
  versions : db'.versions = db.versions
  services : db'.services = db.services
  namespaces : db'.namespaces = db.namespaces
  newId : g.id = db.functions.freshId
  newKey : ∀ e ∈ db.functions.rows, e.serviceId = g.serviceId → e.name.val ≠ g.name.val
  service : ∃ s ∈ db.services.rows, s.id = g.serviceId

/-- The language of the version `v` that a call adds to `g`: there was none before, it is that of
another version, or it was asked for by the creation in the row of a deleted function. -/
def LanguageOf (db : Db) (call : FunctionCall) (g : Function) (v : FunctionVersion) : Prop :=
  (∀ w ∈ db.versions.rows, w.functionId ≠ g.id) ∨
    (∃ w ∈ db.versions.rows, w.functionId = g.id ∧ w.language = v.language) ∨
    ∃ serviceId n name e, call = .create serviceId n ∧ n.name = .str name ∧ e ∈ rowsAt db serviceId (lower name) ∧
      e.id = g.id ∧ e.deletedAt ≠ none ∧ n.language = .str v.language.text

def ActiveOf (db : Db) (g : Function) (v : FunctionVersion) : Prop :=
  g.activeVersion = v.version ∨ ∃ e ∈ db.functions.rows, e.id = g.id ∧ g.activeVersion = e.activeVersion

/-- What a call can do to the database. -/
inductive Effect (db : Db) (call : FunctionCall) : Except ApiError Unit → Db → Prop
  | same {r : Except ApiError Unit} : Effect db call r db
  | rewrote {r : Except ApiError Unit} {db' : Db} {e g : Function} (h : Rewrote db db' e g) : Effect db call r db'
  | added {r : Except ApiError Unit} {db' : Db} {g : Function} {v : FunctionVersion} (h : Added db db' g v)
    (hactive : ActiveOf db g v) (hlanguage : LanguageOf db call g v) : Effect db call r db'
  | bare {e : ApiError} {db' : Db} {g : Function} {serviceId : ℕ} {n : NewFunction} (h : Bare db db' g)
    (hcall : call = .create serviceId n) (herror : versionRow g.id 1 n.toNewVersion = .error e) :
    Effect db call (.error e) db'

section effects

variable {db db' : Db} {call : FunctionCall} {r : Except ApiError Unit}

variable {f : Function} (now : Time) (i : ℕ)

theorem getById_eq_ok {i : ℕ} (h : getById db i = .ok f) :
    f ∈ db.functions.rows ∧ f.id = i ∧ f.deletedAt = none := by
  unfold getById at h
  split at h
  · cases h
  · rename_i g hg
    cases h
    obtain ⟨hge, hl⟩ := Option.filter_eq_some_iff.mp hg
    exact ⟨(Table.get?_eq_some.mp hge).1, (Table.get?_eq_some.mp hge).2, by simpa using hl⟩

theorem rewrote_of_update {e : Function} (he : e ∈ db.functions.rows) (u : Function → Function)
    (hu : ∀ f, (u f).id = f.id) (hs : (u e).serviceId = e.serviceId) (hn : (u e).name = e.name)
    (ha : (u e).activeVersion = e.activeVersion ∨
      ∃ v ∈ db.versions.rows, v.functionId = e.id ∧ v.version = (u e).activeVersion) :
    Rewrote db { db with functions := db.functions.update e.id u hu } e (u e) where
  mem := he
  functions := Table.puts_update hu (Table.get?_eq_some.mpr ⟨he, rfl⟩)
  versions := rfl
  services := rfl
  namespaces := rfl
  id_eq := hu e
  serviceId_eq := hs
  name_eq := hn
  active := ha

theorem Effect.of_update {i : ℕ} (hf : getById db i = .ok f) (u : Function → Function) (hu : ∀ f, (u f).id = f.id)
    (hs : (u f).serviceId = f.serviceId) (hn : (u f).name = f.name) (ha : (u f).activeVersion = f.activeVersion ∨
      ∃ v ∈ db.versions.rows, v.functionId = f.id ∧ v.version = (u f).activeVersion) :
    Effect db call r { db with functions := db.functions.update f.id u hu } :=
  .rewrote (rewrote_of_update (getById_eq_ok hf).1 u hu hs hn ha)

/-- What `m` does to `db` is an effect of `call`. -/
def Effects {α : Type} (db : Db) (call : FunctionCall) (m : DbSession α) : Prop :=
  Wp m (fun _ => Effect db call (.ok ())) (fun e => Effect db call (.error e)) db

theorem Effects.fetch_bind {α β : Type} {q : Db → Except ApiError α} {m : α → DbSession β}
    (h : ∀ a, q db = .ok a → Effects db call (m a)) : Effects db call (fetch q >>= m) :=
  Wp.fetch_bind (fun _ _ => .same) h

theorem Effects.discard {α : Type} {m : DbSession α} (h : Effects db call m) :
    Effects db call (m >>= fun _ => pure ()) :=
  Wp.bind h

theorem createVersion_eq_ok (hdb : Consistent db) {i : ℕ} {n : NewVersion} {adm act : Bool} {v : FunctionVersion}
    (h : createVersion i n adm act db = (.ok v, db')) :
    ∃ f lang, getById db i = .ok f ∧ checkLock f adm "modified" = .ok () ∧
      inheritLanguage db f n.language = .ok lang ∧ validateLanguage lang = .ok v.language ∧
      Added db db' { f with activeVersion := if act then nextVersion db f else f.activeVersion } v := by
  obtain ⟨f, hf, h⟩ := fetch_bind_eq_ok.mp h
  obtain ⟨_, hl, h⟩ := fetch_bind_eq_ok.mp h
  obtain ⟨lang, hla, h⟩ := fetch_bind_eq_ok.mp h
  rw [query_bind_apply] at h
  obtain ⟨w, db₁, ha, h⟩ := Session.bind_eq_ok.mp h
  rw [change, write_bind_apply] at h
  cases h
  obtain ⟨row, hr, rfl, rfl⟩ := addVersion_eq_ok ha
  obtain ⟨hfi, hv, -, hln, -⟩ := versionRow_eq_ok hr
  obtain ⟨hm, rfl, hli⟩ := getById_eq_ok hf
  refine ⟨f, lang, hf, hl, hla, hln, ⟨?_, Table.puts_insert _ _ _, rfl, rfl, hfi, ?_, hv, ?_, ?_⟩⟩
  · refine Table.puts_update ?_ (Table.get?_eq_some.mpr ⟨hm, rfl⟩)
    intro g
    rfl
  · intro w hw
    exact Table.freshId_ne hw
  · intro e he
    exact hdb.key_iff (f := f) hm e he
  · exact hdb.functions_refer f hm

theorem inheritLanguage_cases {lang l : Json} (h : inheritLanguage db f lang = .ok l) :
    (∀ w ∈ db.versions.rows, w.functionId ≠ f.id) ∨
      ∃ w ∈ db.versions.rows, w.functionId = f.id ∧ (versionsOf db f).head? = some w ∧ l = .str w.language.text := by
  have hm : ∀ w, w ∈ versionsOf db f ↔ w ∈ db.versions.rows ∧ w.functionId = f.id := by
    intro w
    simp [versionsOf, List.mem_insertionSort, Table.mem_select]
  cases hh : (versionsOf db f).head? with
  | none =>
    refine .inl fun w hw hwf => ?_
    have hn := List.head?_eq_none_iff.mp hh
    exact absurd ((hm w).mpr ⟨hw, hwf⟩) (by rw [hn]; exact List.not_mem_nil)
  | some w =>
    obtain ⟨hw, hwf⟩ := (hm w).mp (List.mem_of_mem_head? hh)
    refine .inr ⟨w, hw, hwf, rfl, ?_⟩
    unfold inheritLanguage at h
    rw [hh] at h
    cases lang with
    | null => exact (Except.ok.inj h).symm
    | str s =>
      dsimp only at h
      split at h
      · rename_i hs
        rw [← Except.ok.inj h, hs]
      · cases h
    | _ => cases h

theorem text_injective {l l' : Language} (h : l.text = l'.text) : l = l' := by
  cases l <;> cases l' <;> first | rfl | exact absurd h (by decide)

theorem effect_createVersion (hdb : Consistent db) (i : ℕ) (n : NewVersion) (adm act : Bool) :
    Effects db call (createVersion i n adm act) := by
  have hs : Wp (createVersion i n adm act) (fun _ _ => True) (fun _ db' => db' = db) db :=
    .fetch_bind (fun _ _ => rfl) fun _ _ => .fetch_bind (fun _ _ => rfl) fun _ _ =>
      .fetch_bind (fun _ _ => rfl) fun _ _ =>
      .query_bind (.bind (.fetch_bind (fun _ _ => rfl) fun _ _ => trivial))
  unfold Effects
  unfold Wp at hs ⊢
  rcases h : createVersion i n adm act db with ⟨e | v, db'⟩ <;> rw [h] at hs
  · rw [hs]
    exact .same
  · obtain ⟨f, lang, hf, -, hin, hl, ha⟩ := createVersion_eq_ok hdb h
    obtain ⟨hm, -, -⟩ := getById_eq_ok hf
    refine .added ha ?_ ?_
    · cases act with
      | true => exact .inl ha.number.symm
      | false => exact .inr ⟨f, hm, rfl, rfl⟩
    · rcases inheritLanguage_cases hin with hn | ⟨w, hw, hwf, -, rfl⟩
      · exact .inl hn
      · refine .inr (.inl ⟨w, hw, hwf, ?_⟩)
        exact Except.ok.inj ((validateLanguage_text w.language).symm.trans hl)

theorem mem_of_getVersion {i : ℕ} {version : ℤ} {v : FunctionVersion} (h : getVersion db i version = .ok v) :
    v ∈ db.versions.rows ∧ v.functionId = i ∧ (v.version : ℤ) = version := by
  obtain ⟨found, hf, h⟩ := bind_eq_ok.mp h
  cases found with
  | none => cases h
  | some w =>
    cases h
    have hm := mem_of_scalarOneOrNone hf
    simpa [Table.mem_select] using hm

theorem effect_setActiveVersion (ver : ℤ) : Effects db call (setActiveVersion i ver) := by
  refine .fetch_bind fun f hf => .fetch_bind fun v hv => ?_
  obtain ⟨hvm, hvf, -⟩ := mem_of_getVersion hv
  exact .of_update hf (fun g => { g with activeVersion := v.version }) (fun _ => rfl) rfl rfl
    (.inr ⟨v, hvm, hvf.trans (getById_eq_ok hf).2.1.symm, rfl⟩)

theorem effect_update (desc tags safe trust : Json) : Effects db call (update i desc tags safe trust) := by
  refine .fetch_bind fun f hf => .fetch_bind fun d _ => .fetch_bind fun t _ =>
    .fetch_bind fun p _ => .fetch_bind fun o _ => ?_
  exact .of_update hf (updated d t p o) (fun _ => rfl) rfl rfl (.inl rfl)

theorem effect_delete (adm : Bool) : Effects db call (delete now i adm) := by
  refine .fetch_bind fun f hf => .fetch_bind fun _ _ => ?_
  exact .of_update hf (fun g => { g with deletedAt := some now }) (fun _ => rfl) rfl rfl (.inl rfl)

theorem effect_lockFunction (i lockedBy : ℕ) : Effects db call (lockFunction now i lockedBy) := by
  refine .fetch_bind fun f hf => ?_
  exact .of_update hf (fun g => { g with locked := true, lockedBy := some lockedBy, lockedAt := some now })
    (fun _ => rfl) rfl rfl (.inl rfl)

theorem effect_unlockFunction : Effects db call (unlockFunction i) := by
  refine .fetch_bind fun f hf => ?_
  exact .of_update hf (fun g => { g with locked := false, lockedBy := none, lockedAt := none })
    (fun _ => rfl) rfl rfl (.inl rfl)

theorem createFresh_raises {sid : ℕ} {name : String} {n : NewFunction} (hno : rowsAt db sid (lower name) = []) :
    Wp (createFresh sid name n) (fun _ _ => True) (fun e => Effect db (.create sid n) (.error e)) db := by
  refine .fetch_bind (fun _ _ => .same) fun row hr => .fetch_bind (fun _ _ => .same) fun _ hse => ?_
  refine .query_bind (.write_bind (.bind (.fetch_bind (fun e he => ?_) fun _ _ => trivial)))
  obtain ⟨hs, hn, -⟩ := functionRow_eq_ok hr
  refine .bare (g := { row with id := db.functions.freshId }) ⟨Table.puts_insert _ _ _, rfl, rfl,
    rfl, rfl, ?_, ?_⟩ rfl he
  · intro f hf hfs hfn
    have hm : f ∈ rowsAt db sid (lower name) := mem_rowsAt.mpr ⟨hf, hfs.trans hs, hfn.trans hn⟩
    rw [hno] at hm
    cases hm
  · obtain ⟨s, hsm, hsi⟩ := exists_of_checkService hse
    exact ⟨s, hsm, hsi.trans hs.symm⟩

theorem revive_raises (hf : f ∈ db.functions.rows) (n : NewFunction) :
    Wp (revive f n) (fun _ _ => True) (fun e => Effect db call (.error e)) db := by
  refine .fetch_bind (fun _ _ => .same) fun desc _ => .fetch_bind (fun _ _ => .same) fun tags _ => ?_
  refine .write_bind (.query_bind (.bind (.fetch_bind (fun e _ => ?_) fun _ _ => trivial)))
  exact .rewrote (rewrote_of_update hf (revived desc tags n.outputTrust) (fun _ => rfl) rfl rfl (.inl rfl))

theorem create_raises (db : Db) (sid : ℕ) (n : NewFunction) :
    Wp (create sid n) (fun _ _ => True) (fun e => Effect db (.create sid n) (.error e)) db := by
  refine .fetch_bind (fun _ _ => .same) fun name _ => .fetch_bind (fun _ _ => .same) fun found hf => ?_
  cases found with
  | none => exact createFresh_raises (scalarOneOrNone_eq_none.mp hf)
  | some f =>
    dsimp only
    split
    · exact .raise .same
    · exact revive_raises (mem_rowsAt.mp (mem_of_scalarOneOrNone hf)).1 n

theorem effect_create (hdb : Consistent db) (sid : ℕ) (n : NewFunction) :
    Effects db (.create sid n) (create sid n) := by
  have her := create_raises db sid n
  unfold Effects
  unfold Wp at her ⊢
  rcases h : create sid n db with ⟨e | f, db'⟩ <;> rw [h] at her
  · exact her
  · obtain ⟨name, v, hst, hs, hn, hc, -, hl, hp⟩ := create_eq_ok hdb h
    refine .added hc.toAdded (.inl hc.version.symm) ?_
    by_cases hex : ∃ w ∈ db.versions.rows, w.functionId = f.id
    · -- the row has versions, so it was there before
      obtain ⟨w, hw, hwf⟩ := hex
      obtain ⟨e, he, hid⟩ := hdb.versions_refer w hw
      replace hid : e.id = f.id := hid.trans hwf
      obtain ⟨hes, hen⟩ := (hc.key e he).mp hid
      have hro : e ∈ rowsAt db sid (lower name) := mem_rowsAt.mpr ⟨he, hes.trans hs, hen.trans hn⟩
      exact .inr (.inr ⟨sid, n, name, e, rfl, hst, hro, hid, (hp e hro).2, hl⟩)
    · exact .inl fun w hw hwf => hex ⟨w, hw, hwf⟩

theorem effect_run (hdb : Consistent db) (call : FunctionCall) : Effects db call call.run := by
  cases call with
  | create sid n => exact (effect_create hdb sid n).discard
  | createVersion i v adm act => exact (effect_createVersion hdb i v adm act).discard
  | setActiveVersion i version => exact (effect_setActiveVersion i version).discard
  | update i desc tags safe trust => exact (effect_update i desc tags safe trust).discard
  | delete now i adm => exact effect_delete now i adm
  | lockFunction now i by_ => exact (effect_lockFunction now i by_).discard
  | unlockFunction i => exact (effect_unlockFunction i).discard

theorem effect_perform (hdb : Consistent db) (sc : Scope) (call : FunctionCall) :
    (perform (sc, call) db).2 = db ∨
      Effect db call (perform (sc, call) db).1 (perform (sc, call) db).2 ∧
        ∀ e, (perform (sc, call) db).1 = .error e → sc = .answered ∧ isDatabaseError e = false := by
  have hef := effect_run hdb call
  unfold Effects Wp at hef
  unfold perform inScope
  rcases h : call.run db with ⟨e | u, db'⟩ <;> rw [h] at hef
  · dsimp only
    split
    · rename_i hk
      refine .inr ⟨hef, fun e' he => ?_⟩
      obtain rfl := Except.error.inj he
      exact hk
    · exact .inl rfl
  · exact .inr ⟨hef, fun e he => by cases he⟩

end effects

/-! ### Invariants -/

section invariants

variable {db db' : Db}

variable {v : FunctionVersion} {g : Function} {call : FunctionCall}

theorem consistent_of_puts (hdb : Consistent db) (hf : db.functions.Puts db'.functions g)
    (hv : db'.versions = db.versions) (hs : db'.services = db.services) (hn : db'.namespaces = db.namespaces)
    (hk : ∀ f ∈ db.functions.rows, f.serviceId = g.serviceId → f.name = g.name → f.id = g.id)
    (hr : ∃ s ∈ db.services.rows, s.id = g.serviceId) : Consistent db' where
  services_unique := by
    rw [hs]
    exact hdb.services_unique
  functions_unique := hdb.functions_unique.puts hf fun f hm he =>
    hk f hm (Prod.ext_iff.mp he).1 (Prod.ext_iff.mp he).2
  versions_unique := by
    rw [hv]
    exact hdb.versions_unique
  services_refer := by
    rw [hs, hn]
    exact hdb.services_refer
  functions_refer := by
    rw [hs]
    exact hdb.functions_refer.puts hf hr
  versions_refer := by
    rw [hv]
    exact hdb.versions_refer.puts_target hf

theorem Rewrote.consistent {e : Function} (h : Rewrote db db' e g) (hdb : Consistent db) : Consistent db' := by
  refine consistent_of_puts hdb h.functions h.versions h.services h.namespaces (fun f hf hs hn => ?_) ?_
  · rw [hdb.eq_of_key hf h.mem (hs.trans h.serviceId_eq) (congrArg Name.val (hn.trans h.name_eq))]
    exact h.id_eq.symm
  · rw [h.serviceId_eq]
    exact hdb.functions_refer e h.mem

theorem Bare.consistent (h : Bare db db' g) (hdb : Consistent db) : Consistent db' :=
  consistent_of_puts hdb h.functions h.versions h.services h.namespaces
    (fun f hf hs hn => absurd (congrArg Name.val hn) (h.newKey f hf hs)) h.service

theorem Effect.consistent {r : Except ApiError Unit} (h : Effect db call r db') (hdb : Consistent db) :
    Consistent db' := by
  cases h with
  | same => exact hdb
  | rewrote h => exact h.consistent hdb
  | added h => exact h.consistent hdb
  | bare h => exact h.consistent hdb

theorem Effect.versions_kept {r : Except ApiError Unit} (h : Effect db call r db')
    (hv : v ∈ db.versions.rows) : v ∈ db'.versions.rows := by
  cases h with
  | same => exact hv
  | rewrote h => rwa [h.versions]
  | added h => exact h.mem_versions.mpr (.inl hv)
  | bare h => rwa [h.versions]

theorem consistent_perform (hdb : Consistent db) (c : Scope × FunctionCall) : Consistent (perform c db).2 := by
  rcases effect_perform hdb c.1 c.2 with hs | ⟨he, -⟩
  · rwa [hs]
  · exact he.consistent hdb

def numbers (db : Db) (functionId : ℕ) : List ℕ := (db.versions.select (·.functionId = functionId)).map (·.version)

/-- The versions of the function are numbered from 1 on without a gap. -/
def Numbered (db : Db) (f : Function) : Prop :=
  ∃ n, (numbers db f.id).Perm (List.range' 1 n) ∧ f.activeVersion ∈ List.range' 1 n

theorem Added.versions_perm (h : Added db db' g v) : db'.versions.rows.Perm (v :: db.versions.rows) := by
  have hv : v ∉ db.versions.rows := fun hv => h.newId v hv rfl
  refine (List.perm_ext_iff_of_nodup db'.versions.nodup.of_map
    (List.nodup_cons.mpr ⟨hv, db.versions.nodup.of_map⟩)).mpr ?_
  intro w
  rw [h.mem_versions, List.mem_cons, or_comm]

theorem Added.numbers_self (h : Added db db' g v) : (numbers db' g.id).Perm (v.version :: numbers db g.id) := by
  have hf := (h.versions_perm.filter fun w => decide (w.functionId = g.id)).map (·.version)
  rwa [List.filter_cons_of_pos (by simpa using h.functionId)] at hf

theorem Added.numbers_of_ne (h : Added db db' g v) {i : ℕ} (hi : i ≠ g.id) :
    (numbers db' i).Perm (numbers db i) := by
  have hf := (h.versions_perm.filter fun w => decide (w.functionId = i)).map (·.version)
  rwa [List.filter_cons_of_neg (by simpa [h.functionId] using hi.symm)] at hf

theorem nextVersion_of_perm {f : Function} {n : ℕ} (h : (numbers db f.id).Perm (List.range' 1 n)) :
    nextVersion db f = n + 1 := by
  have hle : (numbers db f.id).foldr max 0 ≤ n := by
    refine List.max_le_of_forall_le _ _ fun k hk => ?_
    have := List.mem_range'_1.mp (h.mem_iff.mp hk)
    omega
  have hge : n ≤ (numbers db f.id).foldr max 0 := by
    cases n with
    | zero => exact Nat.zero_le _
    | succ n => exact List.le_max_of_le (h.mem_iff.mpr (List.mem_range'_1.mpr ⟨by omega, by omega⟩)) le_rfl
  exact congrArg (· + 1) (le_antisymm hle hge)

theorem Added.numbered (h : Added db db' g v) (ha : ActiveOf db g v)
    {n : ℕ} (hn : (numbers db g.id).Perm (List.range' 1 n))
    (ho : ∀ e ∈ db.functions.rows, e.id = g.id → e.activeVersion ∈ List.range' 1 n) : Numbered db' g := by
  have hnu : v.version = n + 1 := h.number.trans (nextVersion_of_perm hn)
  have hr : List.range' 1 (n + 1) = List.range' 1 n ++ [n + 1] := by
    rw [List.range'_1_concat, Nat.add_comm 1 n]
  refine ⟨n + 1, ?_, ?_⟩
  · rw [hr]
    have hc : (v.version :: numbers db g.id).Perm ((n + 1) :: List.range' 1 n) := by
      rw [hnu]
      exact hn.cons _
    exact (h.numbers_self.trans hc).trans (List.perm_append_singleton _ _).symm
  · rw [List.mem_range'_1]
    rcases ha with ha | ⟨e, he, hid, ha⟩
    · omega
    · have := List.mem_range'_1.mp (ho e he hid)
      omega

/-- A consistent database whose versions are numbered. -/
structure Sound (db : Db) : Prop where
  consistent : Consistent db
  numbered : ∀ f ∈ db.functions.rows, Numbered db f

theorem Rewrote.sound {e : Function} (h : Rewrote db db' e g) (hdb : Sound db) : Sound db' := by
  have hnu : ∀ i, numbers db' i = numbers db i := fun i => by rw [numbers, numbers, h.versions]
  refine ⟨h.consistent hdb.consistent, fun f hf => ?_⟩
  rcases (h.functions f).mp hf with ⟨hf, -⟩ | rfl
  · obtain ⟨n, hn, ha⟩ := hdb.numbered f hf
    exact ⟨n, by rwa [hnu], ha⟩
  · obtain ⟨n, hn, ha⟩ := hdb.numbered e h.mem
    refine ⟨n, by rwa [hnu, h.id_eq], ?_⟩
    rcases h.active with hk | ⟨v, hv, hvf, hve⟩
    · rwa [hk]
    · rw [← hve]
      exact hn.mem_iff.mp (List.mem_map_of_mem (Table.mem_select.mpr ⟨hv, by simpa using hvf⟩))

theorem Added.sound (h : Added db db' g v) (ha : ActiveOf db g v) (hdb : Sound db) : Sound db' := by
  refine ⟨h.consistent hdb.consistent, fun f hf => ?_⟩
  rcases (h.functions f).mp hf with ⟨hf, hne⟩ | rfl
  · obtain ⟨n, hn, hm⟩ := hdb.numbered f hf
    exact ⟨n, (h.numbers_of_ne hne).trans hn, hm⟩
  · by_cases hex : ∃ e ∈ db.functions.rows, e.id = f.id
    · obtain ⟨e, he, hid⟩ := hex
      obtain ⟨n, hn, hm⟩ := hdb.numbered e he
      refine h.numbered ha (by rwa [← hid]) fun e' he' hi' => ?_
      rwa [Table.eq_of_id_eq he' he (hi'.trans hid.symm)]
    · -- a new function has no versions yet
      have hni : numbers db f.id = [] := by
        rw [numbers, List.map_eq_nil_iff, List.eq_nil_iff_forall_not_mem]
        intro w hw
        obtain ⟨hw, hwf⟩ := Table.mem_select.mp hw
        obtain ⟨e, he, hid⟩ := hdb.consistent.versions_refer w hw
        exact hex ⟨e, he, hid.trans (by simpa using hwf)⟩
      refine h.numbered ha (n := 0) (by rw [hni]; exact List.Perm.nil) fun e he hid => absurd ⟨e, he, hid⟩ hex

theorem Sound.getActiveVersion_eq_ok (hdb : Sound db) {f : Function} (hf : f ∈ db.functions.rows)
    (hl : f.deletedAt = none) :
    ∃ v, getActiveVersion db f.id = .ok v := by
  obtain ⟨n, hn, ha⟩ := hdb.numbered f hf
  obtain ⟨v, hv, hve⟩ := List.mem_map.mp (hn.mem_iff.mpr ha)
  obtain ⟨hvm, hvf⟩ := Table.mem_select.mp hv
  replace hvf : v.functionId = f.id := by simpa using hvf
  have hr : db.functions.get? f.id = some f := Table.get?_eq_some.mpr ⟨hf, rfl⟩
  have hg : getById db f.id = .ok f := by
    unfold getById
    rw [hr, Option.filter_some_pos (by simpa using hl)]
  refine ⟨v, bind_eq_ok.mpr ⟨f, hg, bind_eq_ok.mpr ⟨some v, scalarOneOrNone_eq_some.mpr ?_, rfl⟩⟩⟩
  refine Table.select_eq_singleton hvm (by simp [hvf, hve]) fun w hw hp => ?_
  have hk : w.functionId = f.id ∧ (w.version : ℤ) = f.activeVersion := by simpa using hp
  refine hdb.consistent.versions_unique w hw v hvm (Prod.ext (hk.1.trans hvf.symm) ?_)
  exact (Nat.cast_injective hk.2).trans hve.symm

/-! ### Version numbers -/

def VersionAccepted (_ : Db) (c : Scope × FunctionCall) : Prop :=
  match c with
  | (.answered, .create _ n) =>
    (∃ backend, validateBackend n.backend = .ok backend) ∧ ∃ language, validateLanguage n.language = .ok language
  | _ => True

theorem sound_perform (hdb : Sound db) {c : Scope × FunctionCall} (hc : VersionAccepted db c) :
    Sound (perform c db).2 := by
  obtain ⟨scope, call⟩ := c
  have he := effect_perform hdb.consistent scope call
  rcases hp : perform (scope, call) db with ⟨r, db'⟩
  rw [hp] at he
  rcases he with rfl | ⟨he, her⟩
  · exact hdb
  · cases he with
    | same => exact hdb
    | rewrote h => exact h.sound hdb
    | added h ha => exact h.sound ha hdb
    | bare h hca herror =>
      -- the error is one of the database, and then nothing was written
      obtain ⟨rfl, han⟩ := her _ rfl
      subst hca
      obtain ⟨⟨be, hb⟩, language, hl⟩ := hc
      obtain ⟨msg, rfl⟩ := fails_versionRow_columns hb hl _ herror
      cases han

/-- In every history the versions of each function are numbered from 1 on, its active version is one of
them and is found as long as the function is not deleted, and no version is ever changed, provided that
no creation with an unknown backend or language is answered in a session that is then committed. -/
theorem version_history (db₀ : Db) (h₀ : Consistent db₀) (hempty : db₀.functions.rows = [])
    (history : List ((Scope × FunctionCall) × Except ApiError Unit)) (db : Db)
    (hrun : GuardedRun perform VersionAccepted db₀ history db) :
    (∀ f ∈ db.functions.rows,
      (∃ n, (numbers db f.id).Perm (List.range' 1 n) ∧ f.activeVersion ∈ List.range' 1 n) ∧
      (f.deletedAt = none → ∃ v, getActiveVersion db f.id = .ok v)) ∧
    ∀ later db', Run perform db later db' → ∀ v ∈ db.versions.rows, v ∈ db'.versions.rows := by
  have hso : Sound db := by
    refine hrun.invariant ⟨h₀, fun f hf => ?_⟩ fun s call hs hc => sound_perform hs hc
    rw [hempty] at hf
    cases hf
  refine ⟨fun f hf => ⟨hso.numbered f hf, hso.getActiveVersion_eq_ok hf⟩, fun later db' hl => ?_⟩
  have hk : Consistent db' ∧ ∀ v ∈ db.versions.rows, v ∈ db'.versions.rows := by
    refine Run.invariant (I := fun _ s => Consistent s ∧ ∀ v ∈ db.versions.rows, v ∈ s.versions.rows)
      ⟨hso.consistent, fun v hv => hv⟩ (fun _ s call hs => ⟨consistent_perform hs.1 call, fun v hv => ?_⟩) hl
    rcases effect_perform hs.1 call.1 call.2 with hsa | ⟨he, -⟩
    · rw [hsa]
      exact hs.2 v hv
    · exact he.versions_kept (hs.2 v hv)
  exact hk.2

def mailDb : Db where
  namespaces := Table.single { id := 1, accountId := 2, name := .acme }
  services := Table.single { id := 1, namespaceId := 1, name := .mail }

theorem mailDb_consistent : Consistent mailDb where
  services_unique := by
    intro s hs t ht _
    rw [List.mem_singleton.mp hs, List.mem_singleton.mp ht]
  functions_unique := fun f hf => absurd hf List.not_mem_nil
  versions_unique := fun v hv => absurd hv List.not_mem_nil
  services_refer := by
    intro s hs
    rw [List.mem_singleton.mp hs]
    exact ⟨_, List.mem_singleton_self _, rfl⟩
  functions_refer := fun f hf => absurd hf List.not_mem_nil
  versions_refer := fun v hv => absurd hv List.not_mem_nil

def sendArguments (backend language : String) : NewFunction :=
  { name := .str "send", backend := .str backend, language := .str language, code := .str "result = 1" }

/-- A creation with an unknown backend leaves a function without versions behind. -/
theorem refused_version_leaves_function :
    let db := (perform (.answered, .create 1 (sendArguments "lambda" "python")) mailDb).2
    db.functions.rows.map (fun f => (f.id, f.name.val, f.activeVersion, f.deletedAt)) = [(1, "send", 1, none)] ∧
      numbers db 1 = [] ∧
      (getActiveVersion db 1).toOption.isNone = true := by
  decide +kernel

def createSend : Scope × FunctionCall := (.answered, .create 1 (sendArguments "code_sandbox" "python"))

def changeSend : Scope × FunctionCall :=
  (.answered, .createVersion 1 { backend := .str "code_sandbox", language := .null, code := .str "result = 2" } false true)

def twoVersions : List (Scope × FunctionCall) := [createSend, changeSend]

def after (calls : List (Scope × FunctionCall)) (db : Db) : Db := calls.foldl (fun db c => (perform c db).2) db

theorem two_versions_numbered : ∃ history, GuardedRun perform VersionAccepted mailDb history
    (after twoVersions mailDb) ∧
    numbers (after twoVersions mailDb) 1 = [1, 2] ∧
    ∀ f ∈ (after twoVersions mailDb).functions.rows,
      (∃ n, (numbers (after twoVersions mailDb) f.id).Perm (List.range' 1 n) ∧ f.activeVersion ∈ List.range' 1 n) ∧
      (f.deletedAt = none → ∃ v, getActiveVersion (after twoVersions mailDb) f.id = .ok v) := by
  have hn : GuardedRun perform VersionAccepted mailDb [] mailDb := .nil
  have ha : VersionAccepted mailDb createSend := ⟨⟨_, rfl⟩, _, rfl⟩
  have hr := (hn.step createSend ha).step changeSend trivial
  exact ⟨_, hr, by decide +kernel, (version_history mailDb mailDb_consistent rfl _ _ hr).1⟩

/-! ### Languages -/

/-- All versions of a function are written in one language. -/
def OneLanguage (db : Db) : Prop :=
  ∀ v ∈ db.versions.rows, ∀ w ∈ db.versions.rows, v.functionId = w.functionId → v.language = w.language

def LanguageKept (db : Db) (c : Scope × FunctionCall) : Prop :=
  match c.2 with
  | .create serviceId n => ∀ name, n.name = .str name → ∀ e ∈ rowsAt db serviceId (lower name), e.deletedAt ≠ none →
    ∀ w ∈ db.versions.rows, w.functionId = e.id → n.language = .str w.language.text
  | _ => True

theorem Added.oneLanguage {sc : Scope} (h : Added db db' g v)
    (hl : LanguageOf db call g v) (hc : LanguageKept db (sc, call)) (hdb : OneLanguage db) :
    OneLanguage db' := by
  -- the new version agrees with every version that was there
  have hne : ∀ w ∈ db.versions.rows, w.functionId = g.id → w.language = v.language := by
    intro w hw hwg
    rcases hl with hno | ⟨u, hu, hug, huv⟩ | ⟨sid, n, name, e, rfl, hna, he, hid, hd, hn⟩
    · exact absurd hwg (hno w hw)
    · exact (hdb w hw u hu (hwg.trans hug.symm)).trans huv
    · have hk := hc name hna e he hd w hw (hwg.trans hid.symm)
      exact text_injective (Json.str.inj (hk.symm.trans hn))
  intro w hw u hu hwu
  rcases h.mem_versions.mp hw with hw | rfl <;> rcases h.mem_versions.mp hu with hu | rfl
  · exact hdb w hw u hu hwu
  · exact hne w hw (hwu.trans h.functionId)
  · exact (hne u hu (hwu.symm.trans h.functionId)).symm
  · rfl

theorem oneLanguage_perform (hdb : Consistent db) (ho : OneLanguage db) {c : Scope × FunctionCall}
    (hc : LanguageKept db c) :
    OneLanguage (perform c db).2 := by
  obtain ⟨scope, call⟩ := c
  have he := effect_perform hdb scope call
  rcases hp : perform (scope, call) db with ⟨r, db'⟩
  rw [hp] at he
  rcases he with rfl | ⟨he, -⟩
  · exact ho
  · cases he with
    | same => exact ho
    | rewrote h =>
      intro v hv w hw
      rw [h.versions] at hv hw
      exact ho v hv w hw
    | added h _ hl => exact h.oneLanguage hl hc ho
    | bare h =>
      intro v hv w hw
      rw [h.versions] at hv hw
      exact ho v hv w hw

/-- In every history the versions of a function have one language, and a version without a language of
its own gets that of the active version, provided that a function created over a deleted one has the
language of its versions. -/
theorem one_language (db₀ : Db) (h₀ : Consistent db₀) (hempty : db₀.functions.rows = [])
    (history : List ((Scope × FunctionCall) × Except ApiError Unit)) (db : Db)
    (hrun : GuardedRun perform LanguageKept db₀ history db) :
    OneLanguage db ∧ ∀ i n isAdmin activate v db', n.language = .null →
      createVersion i n isAdmin activate db = (.ok v, db') → ∀ active, getActiveVersion db i = .ok active →
        v.language = active.language := by
  have hin : Consistent db ∧ OneLanguage db := by
    refine hrun.invariant (I := fun s => Consistent s ∧ OneLanguage s) ⟨h₀, fun v hv => ?_⟩ fun s call hs hc =>
      ⟨consistent_perform hs.1 call, oneLanguage_perform hs.1 hs.2 hc⟩
    obtain ⟨f, hf, -⟩ := h₀.versions_refer v hv
    rw [hempty] at hf
    cases hf
  refine ⟨hin.2, fun i n isAdmin activate v db' hnu hcr active hac => ?_⟩
  obtain ⟨f, lang, hf, -, hih, hl, -⟩ := createVersion_eq_ok hin.1 hcr
  obtain ⟨-, hid, -⟩ := getById_eq_ok hf
  obtain ⟨g, hg, hve⟩ := bind_eq_ok.mp hac
  obtain ⟨ha, haf, -⟩ := mem_of_getVersion hve
  rcases inheritLanguage_cases hih with hn | ⟨w, hw, hwf, -, rfl⟩
  · exact absurd (haf.trans hid.symm) (hn active ha)
  · have hvw : w.language = v.language := Except.ok.inj ((validateLanguage_text w.language).symm.trans hl)
    rw [← hvw]
    exact hin.2 w hw active ha (hwf.trans (hid.trans haf.symm))

def recreated : List (Scope × FunctionCall) :=
  [createSend, (.answered, .delete 0 1 false), (.answered, .create 1 (sendArguments "code_sandbox" "typescript")),
    (.answered, .setActiveVersion 1 1)]

/-- Its versions have two languages, and the next one is stored under the language of the inactive one. -/
theorem recreation_mixes_languages :
    ((after recreated mailDb).versions.rows.map fun v => (v.functionId, v.version, v.language)) =
      [(1, 1, .python), (1, 2, .typescript)] ∧
    (getActiveVersion (after recreated mailDb) 1).toOption.map (·.language) = some .python ∧
    ((createVersion 1 { backend := .str "code_sandbox", language := .null } false true
      (after recreated mailDb)).1.toOption.map fun v => v.language) = some .typescript := by
  decide +kernel

theorem two_versions_one_language : ∃ history,
    GuardedRun perform LanguageKept mailDb history (after twoVersions mailDb) ∧
    (after twoVersions mailDb).versions.rows.length = 2 ∧ OneLanguage (after twoVersions mailDb) := by
  have hn : GuardedRun perform LanguageKept mailDb [] mailDb := .nil
  have hk : LanguageKept mailDb createSend := by
    intro name _ e he
    exact absurd (mem_rowsAt.mp he).1 List.not_mem_nil
  have hr := (hn.step createSend hk).step changeSend trivial
  exact ⟨_, hr, by decide +kernel, (one_language mailDb mailDb_consistent rfl _ _ hr).1⟩

end invariants


end McpworksApi.Services.Functions
