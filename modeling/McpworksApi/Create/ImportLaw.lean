import McpworksApi.Create.GitTools
import McpworksApi.Services.Catalog
import McpworksApi.Services.Confinement

/-! What an import does to the functions of its namespace. The slots after it are those before it with
the functions of the manifest placed one after the other, so that a function that is live keeps its
code, also when the import is said to replace. -/

namespace McpworksApi.Create

open Models Py Services Services.GitImport Services.Functions Session

def entries (services : List ServiceData) : List (Json × FunctionData) :=
  services.flatMap fun s => s.functions.map (s.name, ·)

def stored : Json → String
  | .str s => lower s
  | _ => ""

def entryNames (e : Json × FunctionData) : String × String := (stored e.1, stored e.2.name)

def placement (e : Json × FunctionData) : (String × String) × Profile := (entryNames e, (newFunction e.2).profile)

structure Placed (namespaceId : ℕ) (es : List (Json × FunctionData)) (db db' : Db) : Prop where
  consistent : Consistent db'
  namespaces : db'.namespaces = db.namespaces
  services : ∀ s ∈ db.services.rows, s ∈ db'.services.rows
  named : ∀ e ∈ es, ∃ service function, e.1 = .str service ∧ e.2.name = .str function
  slots : slotAt db' namespaceId = (es.map placement).foldl (FirstWins.put Slot.place) (slotAt db namespaceId)

namespace Placed

variable {nid : ℕ} {es es' : List (Json × FunctionData)} {db db' db'' : Db}

protected theorem refl (hdb : Consistent db) : Placed nid [] db db :=
  ⟨hdb, rfl, fun _ hs => hs, fun _ he => absurd he List.not_mem_nil, rfl⟩

protected theorem trans (h : Placed nid es db db') (h' : Placed nid es' db' db'') :
    Placed nid (es ++ es') db db'' where
  consistent := h'.consistent
  namespaces := h'.namespaces.trans h.namespaces
  services := fun s hs => h'.services s (h.services s hs)
  named := by
    intro e he
    rcases List.mem_append.mp he with he | he
    · exact h.named e he
    · exact h'.named e he
  slots := by rw [h'.slots, h.slots, List.map_append, List.foldl_append]

theorem slotAt_eq (h : Placed nid es db db') (names : String × String) :
    slotAt db' nid names = FirstWins.settle Slot.place (slotAt db nid) (es.map placement) names := by
  rw [h.slots, FirstWins.foldl_put Slot.place Slot.place_place]

end Placed

variable {fail : Bool} {db db' : Db}

variable {s : NamespaceService} {service name : String} {d : FunctionData} {n : Namespace}

theorem create_placed (hdb : Consistent db) (hs : s ∈ db.services.rows)
    (hn : s.name.val = lower service) {f : Function}
    (h : Functions.create s.id (newFunction d) db = (.ok f, db')) :
      Placed s.namespaceId [(.str service, d)] db db' := by
  obtain ⟨name, v, hst, hfs, hfn, hc, hsl, -⟩ := create_eq_ok hdb h
  replace hst : d.name = .str name := hst
  have hd' := hc.consistent hdb
  refine ⟨hd', hc.namespaces, by rw [hc.services]; exact fun _ ht => ht, ?_, ?_⟩
  · intro e he
    rw [List.mem_singleton.mp he]
    exact ⟨service, name, rfl, hst⟩
  · funext names
    have hk : entryNames (.str service, d) = (s.name.val, f.name.val) := by
      simp only [entryNames, stored, hst, hn, hfn]
    rw [hc.slotAt_apply hdb hd' hs hfs names, List.map_singleton, List.foldl_cons, List.foldl_nil,
      FirstWins.put_apply, placement, hk]
    split
    · rename_i hna
      rw [hna, hdb.slotAt_eq hs, hfn, hsl]
    · rfl

theorem conflict_placed (hdb : Consistent db) (hs : s ∈ db.services.rows)
    (hn : s.name.val = lower service) {msg : String}
    (h : Functions.create s.id (newFunction d) db = (.error (conflict msg), db')) :
    Placed s.namespaceId [(.str service, d)] db db' := by
  obtain ⟨rfl, name, p, hst, hsl⟩ := create_conflict h
  replace hst : d.name = .str name := hst
  refine ⟨hdb, rfl, fun _ ht => ht, ?_, ?_⟩
  · intro e he
    rw [List.mem_singleton.mp he]
    exact ⟨service, name, rfl, hst⟩
  · funext names
    have hk : entryNames (.str service, d) = (s.name.val, lower name) := by
      simp only [entryNames, stored, hst, hn]
    rw [List.map_singleton, List.foldl_cons, List.foldl_nil, FirstWins.put_apply, placement, hk]
    split
    · rename_i hna
      rw [hna, hdb.slotAt_eq hs, hsl]
      rfl
    · rfl

theorem importFunction_placed (hdb : Consistent db) (hs : s ∈ db.services.rows)
    (hn : s.name.val = lower service) {count : ℕ}
    (h : importFunction fail s.id d db = (.ok count, db')) : Placed s.namespaceId [(.str service, d)] db db' := by
  rcases handle_eq_ok.mp h with h | ⟨e, db₁, he, h⟩
  · obtain ⟨f, db₁, hc, h⟩ := Session.bind_eq_ok.mp h
    cases h
    exact create_placed hdb hs hn hc
  · rcases bind_eq_error.mp he with hc | ⟨f, db₂, -, hp⟩
    · split at h
      · rename_i hco
        cases h
        obtain ⟨msg, rfl⟩ := eq_conflict_of_isConflict (Bool.and_eq_true_iff.mp hco).1
        exact conflict_placed hdb hs hn hc
      · cases h
    · cases hp

theorem importFunctions_placed (hn : s.name.val = lower service)
    {ds : List FunctionData} {count : ℕ} (hdb : Consistent db) (hs : s ∈ db.services.rows)
    (h : importFunctions fail s.id ds db = (.ok count, db')) :
    Placed s.namespaceId (ds.map (Json.str service, ·)) db db' := by
  induction ds generalizing db count with
  | nil =>
    cases h
    exact .refl hdb
  | cons d ds ih =>
    obtain ⟨k, db₁, hf, h⟩ := Session.bind_eq_ok.mp h
    obtain ⟨ks, db₂, hr, h⟩ := Session.bind_eq_ok.mp h
    cases h
    have hp := importFunction_placed hdb hs hn hf
    exact hp.trans (ih hp.consistent (hp.services s hs) hr)

theorem targetService_placed (hdb : Consistent db) {ni : ℕ} (hn : ∃ n ∈ db.namespaces.rows, n.id = ni)
    {data : ServiceData} (h : targetService fail ni data db = (.ok s, db')) :
    Placed ni [] db db' ∧ s ∈ db'.services.rows ∧ s.namespaceId = ni ∧
      ∃ service, data.name = .str service ∧ s.name.val = lower service := by
  obtain ⟨service, hna, h⟩ := fetch_bind_eq_ok.mp h
  obtain ⟨found, hf, h⟩ := fetch_bind_eq_ok.mp h
  have hs := asName_eq_ok.mp hna
  cases found with
  | none =>
    obtain ⟨hc, hns, hsn⟩ := serviceCreate_eq_ok h
    have hd' := hc.consistent hdb (by rwa [hns])
    refine ⟨⟨hd', hc.namespaces, fun t ht => hc.mem_services.mpr (.inl ht),
      fun _ he => absurd he List.not_mem_nil, hc.slotAt_eq hdb hd' ni⟩,
      hc.mem_services.mpr (.inr rfl), hns, service, hs, hsn⟩
  | some t =>
    obtain ⟨hsr, hns, hsn⟩ := mem_of_service_getByName (suppressNotFound_eq_some.mp hf)
    cases fail with
    | true => cases h
    | false =>
      cases h
      exact ⟨.refl hdb, hsr, hns, service, hs, hsn⟩

theorem importServices_placed {ni : ℕ} {svcs : List ServiceData} {cts : ℕ × ℕ} (hdb : Consistent db)
    (hn : ∃ n ∈ db.namespaces.rows, n.id = ni)
    (h : importServices fail ni svcs db = (.ok cts, db')) :
    Placed ni (entries svcs) db db' := by
  induction svcs generalizing db cts with
  | nil =>
    cases h
    exact .refl hdb
  | cons data svcs ih =>
    obtain ⟨s, db₁, ht, h⟩ := Session.bind_eq_ok.mp h
    obtain ⟨k, db₂, hf, h⟩ := Session.bind_eq_ok.mp h
    obtain ⟨ks, db₃, hr, h⟩ := Session.bind_eq_ok.mp h
    cases h
    obtain ⟨hp, hs, rfl, service, hna, hsn⟩ := targetService_placed hdb hn ht
    have hp' := importFunctions_placed hsn hp.consistent hs hf
    have hn' : ∃ n ∈ db₂.namespaces.rows, n.id = s.namespaceId := by rwa [hp'.namespaces, hp.namespaces]
    have ha := (hp.trans hp').trans (ih hp'.consistent hn' hr)
    rwa [List.nil_append, ← hna] at ha

def slotNamed (h : CreateHandler) (db : Db) (nsName : String) (names : String × String) : Slot :=
  match Namespaces.getByName db nsName (some h.account.id) with
  | .ok n => slotAt db n.id names
  | .error _ => .absent

theorem slotNamed_eq {handler : CreateHandler} {nsn : String}
    (h : Namespaces.getByName db nsn (some handler.account.id) = .ok n) (names : String × String) :
    slotNamed handler db nsn names = slotAt db n.id names := by
  rw [slotNamed, h]

theorem getByName_congr (hns : db'.namespaces = db.namespaces) {aid : ℕ} :
    Namespaces.getByName db' name (some aid) = Namespaces.getByName db name (some aid) := by
  simp only [Namespaces.getByName, Namespaces.named, Namespaces.checkAccess, hns]

theorem targetNamespace_eq_ok (hdb : Consistent db) {strftime : Time → String} {handler : CreateHandler}
    {nsn desc : Json}
    (h : targetNamespace strftime handler fail nsn desc db = (.ok n, db')) :
    ∃ name, nsn = .str name ∧ Consistent db' ∧ n ∈ db'.namespaces.rows ∧
      Namespaces.getByName db' name (some handler.account.id) = .ok n ∧
      slotAt db' n.id = slotNamed handler db name := by
  obtain ⟨name, hna, h⟩ := fetch_bind_eq_ok.mp h
  obtain ⟨found, hf, h⟩ := fetch_bind_eq_ok.mp h
  refine ⟨name, asName_eq_ok.mp hna, ?_⟩
  cases found with
  | none =>
    obtain ⟨hd', -, hn, hg, ha⟩ := namespaceCreate_eq_ok hdb h
    refine ⟨hd', hn, hg, ?_⟩
    funext names
    rw [ha, slotNamed]
    split
    · rename_i m hm
      rw [suppressNotFound_eq_some.mpr hm] at hf
      cases hf
    · rfl
  | some m =>
    have hg := suppressNotFound_eq_some.mp hf
    cases fail with
    | true => cases h
    | false =>
      cases h
      exact ⟨hdb, Namespaces.mem_of_getByName hg, hg, funext fun names => (slotNamed_eq hg names).symm⟩

inductive ImportCall
  | ofNamespace (name : Json)
  | ofService (service : Json)

def ImportCall.run (strftime : Time → String) (h : CreateHandler) (clone : Except ApiError Checkout)
    (conflict : Json) :
    ImportCall → DbSession ImportResult
  | .ofNamespace name => importNamespace strftime h clone name conflict
  | .ofService service => importService h clone service conflict

def ImportCall.manifest (h : CreateHandler) (c : Checkout) : ImportCall → Option (Json × List (Json × FunctionData))
  | .ofNamespace name => (validateAndParse c {}).1.toOption.map fun parsed =>
    (name.orElse parsed.name, entries parsed.services)
  | .ofService service => (parseServiceArgument c service).toOption.map fun data =>
    (.str h.namespaceName, entries [data])

structure Imported (handler : CreateHandler) (name : String) (es : List (Json × FunctionData)) (db db' : Db)
    (n : Namespace) : Prop where
  consistent : Consistent db'
  getByName_eq : Namespaces.getByName db' name (some handler.account.id) = .ok n
  named : ∀ e ∈ es, ∃ service function, e.1 = .str service ∧ e.2.name = .str function
  slots : ∀ names, slotAt db' n.id names =
    FirstWins.settle Slot.place (slotNamed handler db name) (es.map placement) names

variable {strftime : Time → String} {handler : CreateHandler} {c : Checkout} {con : Json} {result : ImportResult}

theorem importNamespace_imported (hdb : Consistent db) {name : Json}
    (h : importNamespace strftime handler (.ok c) name con db = (.ok result, db')) (hr : result.Success) :
    ∃ nsn es n, (ImportCall.ofNamespace name).manifest handler c = some (.str nsn, es) ∧
      Imported handler nsn es db db' n := by
  obtain ⟨c', hc, h⟩ := fetch_bind_eq_ok.mp h
  obtain rfl := Except.ok.inj hc
  rcases hpa : (validateAndParse c {}).1 with (errors | e) | parsed <;> simp only [hpa] at h
  · cases h
    exact hr.elim
  · cases h
  obtain ⟨n, db₁, ht, h⟩ := Session.bind_eq_ok.mp h
  obtain ⟨cts, db₂, hs, h⟩ := Session.bind_eq_ok.mp h
  cases h
  obtain ⟨nsn, hst, hd₁, hn, hg, hsl⟩ := targetNamespace_eq_ok hdb ht
  have hp := importServices_placed hd₁ ⟨n, hn, rfl⟩ hs
  refine ⟨nsn, entries parsed.services, n, ?_, hp.consistent, ?_, hp.named, ?_⟩
  · simp only [ImportCall.manifest, hpa, Except.toOption, Option.map_some, hst]
  · rwa [getByName_congr hp.namespaces]
  · intro names
    rw [hp.slotAt_eq, hsl]

theorem importService_imported (hdb : Consistent db) {service : Json}
    (h : importService handler (.ok c) service con db = (.ok result, db')) (hr : result.Success) :
    ∃ nsn es n, (ImportCall.ofService service).manifest handler c = some (.str nsn, es) ∧
      Imported handler nsn es db db' n := by
  obtain ⟨n, hg, h⟩ := fetch_bind_eq_ok.mp h
  obtain ⟨c', hc, h⟩ := fetch_bind_eq_ok.mp h
  obtain rfl := Except.ok.inj hc
  rcases hp : parseServiceArgument c service with (errors | e) | data <;> simp only [hp] at h
  · cases h
    exact hr.elim
  · cases h
  obtain ⟨s, db₁, ht, h⟩ := Session.bind_eq_ok.mp h
  obtain ⟨count, db₂, hf, h⟩ := Session.bind_eq_ok.mp h
  cases h
  obtain ⟨hpl, hs, hns, svc, hn, hsn⟩ :=
    targetService_placed hdb ⟨n, Namespaces.mem_of_getByName hg, rfl⟩ ht
  have hp' := importFunctions_placed hsn hpl.consistent hs hf
  rw [hns, ← hn] at hp'
  have ha := hpl.trans hp'
  rw [show [] ++ data.functions.map (data.name, ·) = entries [data] by simp [entries]] at ha
  refine ⟨handler.namespaceName, entries [data], n, ?_, ha.consistent, ?_, ha.named, ?_⟩
  · simp only [ImportCall.manifest, hp, Except.toOption, Option.map_some]
  · rwa [getByName_congr ha.namespaces]
  · intro names
    rw [ha.slotAt_eq, funext (slotNamed_eq hg)]

theorem run_imported (hdb : Consistent db) {call : ImportCall}
    (h : call.run strftime handler (.ok c) con db = (.ok result, db')) (hr : result.Success) :
    ∃ name es n, call.manifest handler c = some (.str name, es) ∧ Imported handler name es db db' n := by
  cases call with
  | ofNamespace name => exact importNamespace_imported hdb h hr
  | ofService service => exact importService_imported hdb h hr

def Matches (v : FunctionVersion) (d : FunctionData) : Prop :=
  v.code = d.code ∧ .str v.language.text = d.language ∧ jsonValue v.inputSchema = d.inputSchema ∧
    jsonValue v.outputSchema = d.outputSchema

def Installed (h : CreateHandler) (db : Db) (nsName : String) (e : Json × FunctionData) : Prop :=
  ∃ service function n f v, e.1 = .str service ∧ e.2.name = .str function ∧
    Namespaces.getByName db nsName (some h.account.id) = .ok n ∧
    getForExecution db n.id service function = .ok (f, v) ∧ Matches v e.2

def Agrees (p : Profile) (d : FunctionData) : Prop :=
  p.code = textValue d.code ∧ p.language = d.language ∧ p.inputSchema = d.inputSchema ∧
    p.outputSchema = d.outputSchema

/-- An entry takes effect when a function that is live before the import is already as the entry says,
and where none is live, when the first entry for the slot says the same. -/
def TakesEffect (before : Slot) (es : List (Json × FunctionData)) (e : Json × FunctionData) : Prop :=
  match before with
  | .live held => ∃ p, held = some p ∧ Agrees p e.2
  | _ => ∀ first, es.find? (entryNames · = entryNames e) = some first → Agrees (newFunction first.2).profile e.2

theorem agrees_profile {f : Function} {v : FunctionVersion} : Agrees (profile f v) d ↔ Matches v d := by
  have hc : textValue v.code = textValue d.code ↔ v.code = d.code := by
    cases v.code <;> cases d.code <;> simp [textValue]
  simp only [Agrees, Matches, profile, hc]

theorem Imported.installed_iff {es : List (Json × FunctionData)}
    (h : Imported handler name es db db' n) {e : Json × FunctionData} (he : e ∈ es) :
    Installed handler db' name e ↔ ∃ p, slotAt db' n.id (entryNames e) = .live (some p) ∧ Agrees p e.2 := by
  obtain ⟨service, fn, hse, hfu⟩ := h.named e he
  have hna : entryNames e = (lower service, lower fn) := by
    simp only [entryNames, stored, hse, hfu]
  rw [hna]
  constructor
  · rintro ⟨svc', fn', n', f, v, hs, hf, hn, hg, hm⟩
    obtain rfl := Json.str.inj (hse.symm.trans hs)
    obtain rfl := Json.str.inj (hfu.symm.trans hf)
    obtain rfl := Except.ok.inj (h.getByName_eq.symm.trans hn)
    exact ⟨profile f v, slotAt_of_getForExecution h.consistent hg, agrees_profile.mpr hm⟩
  · rintro ⟨p, hsl, ha⟩
    obtain ⟨f, v, hg, rfl⟩ := getForExecution_of_slotAt h.consistent hsl
    exact ⟨service, fn, n, f, v, hse, hfu, h.getByName_eq, hg, agrees_profile.mp ha⟩

theorem Imported.slotAt_entry {es : List (Json × FunctionData)}
    (h : Imported handler name es db db' n) {e : Json × FunctionData} (he : e ∈ es) :
    ∃ first, es.find? (entryNames · = entryNames e) = some first ∧
      slotAt db' n.id (entryNames e) = Slot.place (newFunction first.2).profile
        (slotNamed handler db name (entryNames e)) := by
  obtain ⟨first, hf⟩ : ∃ first, es.find? (entryNames · = entryNames e) = some first := by
    rw [← Option.isSome_iff_exists, List.find?_isSome]
    exact ⟨e, he, by simp⟩
  have hfi : (es.map placement).find? (·.1 = entryNames e) = some (placement first) := by
    rw [List.find?_map]
    exact congrArg (Option.map placement) hf
  refine ⟨first, hf, ?_⟩
  rw [h.slots, FirstWins.settle, hfi]
  rfl

theorem replace_installs_iff (strftime : Time → String) (handler : CreateHandler) (c : Checkout) (call : ImportCall)
    (db db' : Db) (result : ImportResult) (hdb : Consistent db)
    (h : call.run strftime handler (.ok c) (.str "replace") db = (.ok result, db')) (hr : result.Success) :
    ∃ name es, call.manifest handler c = some (.str name, es) ∧
      ((∀ e ∈ es, Installed handler db' name e) ↔
        ∀ e ∈ es, TakesEffect (slotNamed handler db name (entryNames e)) es e) := by
  obtain ⟨name, es, n, hm, him⟩ := run_imported hdb h hr
  refine ⟨name, es, hm, forall₂_congr fun e he => ?_⟩
  obtain ⟨first, hf, hs⟩ := him.slotAt_entry he
  rw [him.installed_iff he, hs]
  -- what was live stays, and an empty slot has the first entry for it
  cases slotNamed handler db name (entryNames e) with
  | live held => simp only [Slot.place, TakesEffect, Slot.live.injEq]
  | absent => simp [Slot.place, TakesEffect, hf]
  | removed safe cp => simp [Slot.place, TakesEffect, hf, Agrees]

def emptyAcme : Db where
  namespaces := Table.single { id := 1, accountId := 2, name := .acme }

def acmeWithSend : Db where
  namespaces := Table.single { id := 1, accountId := 2, name := .acme }
  services := Table.single { id := 1, namespaceId := 1, name := .mail }
  functions := Table.single { id := 1, serviceId := 1, name := .send }
  versions := Table.single { id := 1, functionId := 1, code := some "old = 1" }

def importAcme : DbSession ImportResult :=
  (ImportCall.ofNamespace .null).run (fun _ => "") owner (.ok plainClone) (.str "replace")

def ImportResult.functionCount : ImportResult → Option ℕ
  | .validationFailed _ => none
  | .importedNamespace _ _ functions => some functions
  | .importedService _ _ functions => some functions

/-- The import reports success, and the function has its old code. -/
theorem replace_keeps_old_code :
    (importAcme acmeWithSend).1.toOption.map ImportResult.functionCount = some (some 0) ∧
    ((ImportCall.ofNamespace .null).manifest owner plainClone).map
      (fun m => m.2.map fun e => (entryNames e, e.2.code)) =
      some [(("mail", "send"), some "ours = 1")] ∧
    ((getForExecution (importAcme acmeWithSend).2 1 "mail" "send").toOption.map fun r => r.2.code) =
      some (some "old = 1") := by
  decide +kernel

theorem emptyAcme_consistent : Consistent emptyAcme := by
  constructor <;> intro a ha <;> cases ha

theorem import_into_empty_installs : ∃ result db' name es, importAcme emptyAcme = (.ok result, db') ∧ result.Success ∧
    (ImportCall.ofNamespace .null).manifest owner plainClone = some (.str name, es) ∧
    ∀ e ∈ es, Installed owner db' name e := by
  have hc : (importAcme emptyAcme).1.toOption.bind ImportResult.functionCount = some 1 := by decide +kernel
  have hl : ((ImportCall.ofNamespace .null).manifest owner plainClone).map (·.2.length) = some 1 := by decide +kernel
  cases hr : (importAcme emptyAcme).1 with
  | error e =>
    rw [hr] at hc
    cases hc
  | ok result =>
    rw [hr] at hc
    have hsu : result.Success := by
      cases result with
      | validationFailed errs => cases hc
      | importedNamespace | importedService => trivial
    obtain ⟨name, es, hm, hif⟩ := replace_installs_iff _ _ _ _ _ _ _ emptyAcme_consistent
      (apply_of_ok hr) hsu
    refine ⟨result, _, name, es, apply_of_ok hr, hsu, hm, hif.mpr fun e he => ?_⟩
    have ha : slotNamed owner emptyAcme name (entryNames e) = .absent := by
      unfold slotNamed
      split
      · exact slotAt_eq_absent fun s hs => absurd hs List.not_mem_nil
      · rfl
    rw [ha]
    intro first hf
    -- the manifest has one function only
    rw [hm] at hl
    obtain ⟨x, rfl⟩ := List.length_eq_one_iff.mp (Option.some.inj hl)
    rw [List.mem_singleton.mp he, List.mem_singleton.mp (List.mem_of_find?_eq_some hf)]
    exact ⟨rfl, rfl, rfl, rfl⟩

end McpworksApi.Create
