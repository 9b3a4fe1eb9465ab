import McpworksApi.Services.FunctionHistory

/-! Creation over a deleted function. `create` takes the row of a deleted namesake and leaves two of its
columns as they are, so that what is created depends on it. -/

namespace McpworksApi.Services.Functions

open Models Py Session

def yielded (out : Except ApiError Function × Db) : Option Profile :=
  match out.1 with
  | .ok f => (activeVersion out.2 f).map (profile f)
  | .error _ => none

def isNamesake (serviceId : ℕ) (n : NewFunction) (f : Function) : Bool :=
  match n.name with
  | .str name => f.serviceId = serviceId ∧ f.name.val = lower name ∧ f.deletedAt ≠ none
  | _ => false

def withoutNamesake (db : Db) (serviceId : ℕ) (n : NewFunction) : Db :=
  { db with
    functions := db.functions.deleteWhere (isNamesake serviceId n)
    versions := db.versions.deleteWhere fun v =>
      (db.functions.rows.filter (isNamesake serviceId n)).any (·.id = v.functionId) }

def Accepted (n : NewFunction) : Prop :=
  (∃ d, textColumn n.description = .ok d) ∧ (∃ t, arrayColumn n.tags = .ok t) ∧
    ∃ row, versionRow 0 1 n.toNewVersion = .ok row

def Unmarked (db : Db) (serviceId : ℕ) (n : NewFunction) : Prop :=
  ∀ f ∈ db.functions.rows, isNamesake serviceId n f = true → Accepted n →
    boolColumn n.publicSafe = .ok f.publicSafe ∧ f.cachePolicy = none

variable {db db' : Db} {serviceId : ℕ} {n : NewFunction}

theorem versionRow_of_ok {i k j l : ℕ} {v : NewVersion} {row : FunctionVersion} (h : versionRow i k v = .ok row) :
    versionRow j l v = .ok { row with functionId := j, version := l } := by
  obtain ⟨be, hb, h⟩ := bind_eq_ok.mp h
  obtain ⟨lang, hl, h⟩ := bind_eq_ok.mp h
  obtain ⟨code, hc, h⟩ := bind_eq_ok.mp h
  obtain ⟨reqs, hr, h⟩ := bind_eq_ok.mp h
  obtain ⟨renv, hre, h⟩ := bind_eq_ok.mp h
  obtain ⟨oenv, hoe, h⟩ := bind_eq_ok.mp h
  obtain ⟨cb, hcb, h⟩ := bind_eq_ok.mp h
  cases h
  simp only [versionRow, hb, hl, hc, hr, hre, hoe, hcb]
  rfl

theorem revive_accepted_iff {f : Function} : (∃ g db', revive f n db = (.ok g, db')) ↔ Accepted n := by
  refine Wp.returns_iff (.fetch_bind (fun e he => ?_) fun d hd => .fetch_bind (fun e he => ?_) fun t ht => ?_)
  · rintro ⟨⟨d, hd⟩, -⟩
    cases he.symm.trans hd
  · rintro ⟨-, ⟨t, ht⟩, -⟩
    cases he.symm.trans ht
  refine .write_bind (.query_bind (.bind (.fetch_bind (fun e he => ?_) fun row hr => ?_)))
  · rintro ⟨-, -, row, hr⟩
    cases he.symm.trans (versionRow_of_ok hr)
  · exact ⟨⟨d, hd⟩, ⟨t, ht⟩, _, versionRow_of_ok hr⟩

theorem createFresh_accepted_iff {name : String} {stored : Name .slug} (hname : stored.val = lower name)
    (hs : checkService db serviceId = .ok ()) :
    (∃ g db', createFresh serviceId name n db = (.ok g, db')) ↔ Accepted n ∧
      ∃ b, boolColumn n.publicSafe = .ok b := by
  have hn : newName .slug "Function" (lower name) = .ok stored := by
    rw [← hname]
    exact newName_of_val _ _
  refine Wp.returns_iff (.fetch_bind (fun e he => ?_) fun row hr => .fetch_bind (fun e he => ?_) fun _ _ => ?_)
  · rintro ⟨⟨⟨d, hd⟩, ⟨t, ht⟩, -⟩, b, hb⟩
    simp only [functionRow, hn, hd, ht, hb] at he
    cases he
  · cases hs.symm.trans he
  refine .query_bind (.write_bind (.bind (.fetch_bind (fun e he => ?_) fun vrow hv => ?_)))
  · rintro ⟨⟨-, -, row, hr⟩, -⟩
    cases he.symm.trans (versionRow_of_ok hr)
  · obtain ⟨-, -, -, -, hd, ht, -, hp, -⟩ := functionRow_eq_ok hr
    exact ⟨⟨⟨_, hd⟩, ⟨_, ht⟩, _, versionRow_of_ok hv⟩, _, hp⟩

theorem yielded_of_create (hdb : Consistent db) {f : Function} (h : create serviceId n db = (.ok f, db')) :
    ∃ name p, n.name = .str name ∧ yielded (create serviceId n db) = some p ∧
      .live (some p) = Slot.place n.profile (slotIn db serviceId (lower name)) := by
  obtain ⟨name, v, hs, -, -, hc, hsl, -⟩ := create_eq_ok hdb h
  have ha : activeVersion db' f = some v :=
    (hc.consistent hdb).activeVersion_eq_some.mpr
      ⟨hc.mem_versions.mpr (.inr rfl), hc.functionId, hc.version⟩
  refine ⟨name, profile f v, hs, ?_, hsl⟩
  rw [h]
  simp only [yielded, ha, Option.map_some]

theorem withoutNamesake_consistent (hdb : Consistent db) : Consistent (withoutNamesake db serviceId n) where
  services_unique := hdb.services_unique
  functions_unique := fun f hf g hg => hdb.functions_unique f (List.mem_of_mem_filter hf) g
    (List.mem_of_mem_filter hg)
  versions_unique := fun v hv w hw => hdb.versions_unique v (List.mem_of_mem_filter hv) w (List.mem_of_mem_filter hw)
  services_refer := hdb.services_refer
  functions_refer := fun f hf => hdb.functions_refer f (List.mem_of_mem_filter hf)
  versions_refer := by
    intro v hv
    obtain ⟨hv, hk⟩ := List.mem_filter.mp hv
    obtain ⟨f, hf, hid⟩ := hdb.versions_refer v hv
    refine ⟨f, List.mem_filter.mpr ⟨hf, ?_⟩, hid⟩
    by_contra hn
    simp only [Bool.not_eq_true, Bool.not_eq_false'] at hn
    simp only [Bool.not_eq_true', List.any_eq_false, decide_eq_true_eq] at hk
    exact hk f (List.mem_filter.mpr ⟨hf, hn⟩) hid

theorem withoutNamesake_eq (h : ∀ f ∈ db.functions.rows, isNamesake serviceId n f = false) :
    withoutNamesake db serviceId n = db := by
  have hn : db.functions.rows.filter (isNamesake serviceId n) = [] :=
    List.filter_eq_nil_iff.mpr fun f hf => by rw [h f hf]; exact Bool.false_ne_true
  rw [withoutNamesake, Table.deleteWhere_eq_self h, Table.deleteWhere_eq_self fun v _ => by rw [hn]; rfl]

theorem isNamesake_iff {f : Function} : isNamesake serviceId n f = true ↔
    ∃ name, n.name = .str name ∧ f.serviceId = serviceId ∧ f.name.val = lower name ∧ f.deletedAt ≠ none := by
  unfold isNamesake
  split
  · rename_i name hname
    simp [hname]
  · rename_i hname
    simp only [Bool.false_eq_true, false_iff]
    rintro ⟨name, hs, -⟩
    exact hname name hs

theorem create_of_rows {name : String} (hname : n.name = .str name) : create serviceId n db =
      match scalarOneOrNone (rowsAt db serviceId (lower name)) with
      | .error e => (.error e, db)
      | .ok none => createFresh serviceId name n db
      | .ok (some f) =>
        if f.deletedAt = none then (.error (conflict ("Function '" ++ name ++
          "' already exists in this service")), db)
        else revive f n db := by
  rw [create]
  simp only [bind_apply, fetch_apply, hname, asName]
  rcases scalarOneOrNone (rowsAt db serviceId (lower name)) with e | _ | f
  · rfl
  · rfl
  · dsimp only
    split <;> rfl

section namesake

variable {f : Function} {name : String}

theorem checkService_of_refer (hdb : Consistent db) (hf : f ∈ db.functions.rows) :
    checkService db f.serviceId = .ok () := by
  obtain ⟨s, hs, hid⟩ := hdb.functions_refer f hf
  have hg : db.services.get? f.serviceId = some s := Table.get?_eq_some.mpr ⟨hs, hid⟩
  rw [checkService, hg]
  rfl

theorem namesake_unique (hdb : Consistent db) {f g : Function} (hf : f ∈ db.functions.rows)
    (hg : g ∈ db.functions.rows)
    (hfn : isNamesake serviceId n f = true) (hgn : isNamesake serviceId n g = true) : f = g := by
  obtain ⟨name, hname, hfs, hfv, -⟩ := isNamesake_iff.mp hfn
  obtain ⟨name', hn', hgs, hgv, -⟩ := isNamesake_iff.mp hgn
  obtain rfl := Json.str.inj (hname.symm.trans hn')
  exact hdb.eq_of_key hf hg (hfs.trans hgs.symm) (hfv.trans hgv.symm)

variable (hdb : Consistent db) (hf : f ∈ db.functions.rows) (hname : n.name = .str name)
  (hst : f.name.val = lower name) (hdel : f.deletedAt ≠ none)

include hdb hf hname hst hdel

theorem create_eq_revive : create f.serviceId n db = revive f n db := by
  rw [create_of_rows hname, ← hst, hdb.rowsAt_eq hf, scalarOneOrNone]
  exact if_neg hdel

theorem rowsAt_withoutNamesake : rowsAt (withoutNamesake db f.serviceId n) f.serviceId (lower name) = [] := by
  rw [List.eq_nil_iff_forall_not_mem]
  intro g hg
  obtain ⟨hgm, hgs, hgn⟩ := mem_rowsAt.mp hg
  obtain ⟨hgm, hk⟩ := List.mem_filter.mp hgm
  obtain rfl := hdb.eq_of_key hgm hf hgs (hgn.trans hst.symm)
  rw [isNamesake_iff.mpr ⟨name, hname, rfl, hst, hdel⟩] at hk
  cases hk

theorem create_eq_createFresh : create f.serviceId n (withoutNamesake db f.serviceId n) =
    createFresh f.serviceId name n (withoutNamesake db f.serviceId n) := by
  rw [create_of_rows hname, rowsAt_withoutNamesake hdb hf hname hst hdel, scalarOneOrNone]

theorem yielded_with_namesake (ha : Accepted n) : yielded (create f.serviceId n db) =
    some { n.profile with publicSafe := f.publicSafe, cachePolicy := f.cachePolicy } := by
  obtain ⟨g, db', hr⟩ := (revive_accepted_iff (f := f)).mpr ha
  have hc := (create_eq_revive hdb hf hname hst hdel).trans hr
  obtain ⟨name', p, hn', hy, hs⟩ := yielded_of_create hdb hc
  obtain rfl := Json.str.inj (hname.symm.trans hn')
  obtain ⟨t, ht⟩ := Option.ne_none_iff_exists'.mp hdel
  rw [← hst, hdb.slotIn_eq hf, slotOf, ht] at hs
  rw [hy, ← Option.some.inj (Slot.live.inj hs)]

theorem yielded_without_namesake (ha : Accepted n ∧ ∃ b, boolColumn n.publicSafe = .ok b) :
    yielded (create f.serviceId n (withoutNamesake db f.serviceId n)) = some n.profile := by
  have heq := create_eq_createFresh hdb hf hname hst hdel
  have hse : checkService (withoutNamesake db f.serviceId n) f.serviceId = .ok () := by
    rw [← checkService_of_refer hdb hf]
    rfl
  obtain ⟨g, db', hfr⟩ := (createFresh_accepted_iff hst hse).mpr ha
  obtain ⟨name', p, hn', hy, hs⟩ := yielded_of_create (withoutNamesake_consistent hdb) (heq.trans hfr)
  obtain rfl := Json.str.inj (hname.symm.trans hn')
  rw [slotIn, rowsAt_withoutNamesake hdb hf hname hst hdel] at hs
  rw [hy, Option.some.inj (Slot.live.inj hs)]

theorem yielded_without_namesake_of_not (hn : ¬(Accepted n ∧ ∃ b, boolColumn n.publicSafe = .ok b)) :
    yielded (create f.serviceId n (withoutNamesake db f.serviceId n)) = none := by
  have hs : checkService (withoutNamesake db f.serviceId n) f.serviceId = .ok () := by
    rw [← checkService_of_refer hdb hf]
    rfl
  rw [create_eq_createFresh hdb hf hname hst hdel]
  rcases h : createFresh f.serviceId name n (withoutNamesake db f.serviceId n) with ⟨e | g, db'⟩
  · rfl
  · exact absurd ((createFresh_accepted_iff hst hs).mp ⟨g, db', h⟩) hn

theorem yielded_with_namesake_of_not (hn : ¬Accepted n) : yielded (create f.serviceId n db) = none := by
  rw [create_eq_revive hdb hf hname hst hdel]
  rcases h : revive f n db with ⟨e | g, db'⟩
  · rfl
  · exact absurd (revive_accepted_iff.mp ⟨g, db', h⟩) hn

end namesake

theorem marked_eq_iff {p : Profile} {publicSafe : Bool} {cachePolicy : Option CachePolicy} :
    { p with publicSafe, cachePolicy } = p ↔
      publicSafe = p.publicSafe ∧ cachePolicy = p.cachePolicy := by
  constructor
  · intro h
    rw [← h]
    exact ⟨rfl, rfl⟩
  · rintro ⟨rfl, rfl⟩
    rfl

/-- What is created does not depend on a deleted namesake exactly when that one has the `public_safe` that
is asked for and no cache policy, or the arguments are refused. -/
theorem creation_independent_iff (db : Db) (hdb : Consistent db) (serviceId : ℕ) (n : NewFunction) :
    yielded (create serviceId n db) = yielded (create serviceId n (withoutNamesake db serviceId n)) ↔
      Unmarked db serviceId n := by
  by_cases hex : ∃ f ∈ db.functions.rows, isNamesake serviceId n f = true
  · obtain ⟨f, hf, hn⟩ := hex
    obtain ⟨name, hname, rfl, hsto, hdel⟩ := isNamesake_iff.mp hn
    have hu : Unmarked db f.serviceId n ↔
        (Accepted n → boolColumn n.publicSafe = .ok f.publicSafe ∧ f.cachePolicy = none) := by
      refine ⟨fun h => h f hf hn, fun h g hg hgn => ?_⟩
      rwa [namesake_unique hdb hg hf hgn hn]
    by_cases ha : Accepted n
    · rw [yielded_with_namesake hdb hf hname hsto hdel ha, hu]
      cases hb : boolColumn n.publicSafe with
      | error e =>
        have hno : ¬(Accepted n ∧ ∃ b, boolColumn n.publicSafe = .ok b) := by
          rintro ⟨-, b, hb'⟩
          cases hb.symm.trans hb'
        rw [yielded_without_namesake_of_not hdb hf hname hsto hdel hno]
        simp [ha]
      | ok b =>
        rw [yielded_without_namesake hdb hf hname hsto hdel ⟨ha, b, hb⟩]
        have hs : n.profile.publicSafe = b := by simp [NewFunction.profile, hb, Except.toOption]
        have hp : n.profile.cachePolicy = none := rfl
        rw [Option.some_inj, marked_eq_iff, hs, hp, Except.ok.injEq, eq_comm (a := b)]
        exact ⟨fun h _ => h, fun h => h ha⟩
    · have hno : ¬(Accepted n ∧ ∃ b, boolColumn n.publicSafe = .ok b) := fun h => ha h.1
      rw [yielded_with_namesake_of_not hdb hf hname hsto hdel ha,
        yielded_without_namesake_of_not hdb hf hname hsto hdel hno, hu]
      exact iff_of_true rfl fun h => absurd h ha
  · have hnn : ∀ f ∈ db.functions.rows, isNamesake serviceId n f = false := by
      intro f hf
      rw [Bool.eq_false_iff]
      exact fun h => hex ⟨f, hf, h⟩
    rw [withoutNamesake_eq hnn]
    exact iff_of_true rfl fun f hf hn => absurd ⟨f, hf, hn⟩ hex

def publicSendDeleted : Db :=
  after [(.answered, .create 1 { sendArguments "code_sandbox" "python" with publicSafe := .bool true }),
    (.answered, .delete 0 1 false)] mailDb

/-- The function that is created in its place is public, though nobody asked for it. -/
theorem recreated_function_is_public : let n := sendArguments "code_sandbox" "python"
    n.publicSafe = .bool false ∧
      (yielded (create 1 n publicSendDeleted)).map (·.publicSafe) = some true ∧
      (yielded (create 1 n (withoutNamesake publicSendDeleted 1 n))).map (·.publicSafe) = some false :=
  ⟨rfl, by decide +kernel, by decide +kernel⟩

theorem public_again_independent :
    let n := { sendArguments "code_sandbox" "python" with publicSafe := .bool true }
    publicSendDeleted.functions.rows.map (isNamesake 1 n) = [true] ∧
      yielded (create 1 n publicSendDeleted) = yielded (create 1 n (withoutNamesake publicSendDeleted 1 n)) := by
  have hc : Consistent publicSendDeleted := consistent_perform (consistent_perform mailDb_consistent _) _
  have hu : Unmarked publicSendDeleted 1 { sendArguments "code_sandbox" "python" with publicSafe := .bool true } := by
    intro f hf _ _
    obtain rfl := List.mem_singleton.mp hf
    exact ⟨rfl, rfl⟩
  exact ⟨by decide +kernel, (creation_independent_iff publicSendDeleted hc 1 _).mpr hu⟩

end McpworksApi.Services.Functions
