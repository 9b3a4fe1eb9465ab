import McpworksApi.Services.Functions
import McpworksApi.Store.FirstWins
import McpworksApi.Store.Keys

/-! The functions of a namespace as its callers see them. A `Profile` is everything that is stored about a function and
its active version; the slot of a name says whether a function is live under it, was deleted, or never was. -/

namespace McpworksApi.Services.Functions

open Models Py Session

/-- The unique keys and the foreign keys hold. -/
structure Consistent (db : Db) : Prop where
  services_unique : db.services.UniqueOn fun s => (s.namespaceId, s.name)
  functions_unique : db.functions.UniqueOn fun f => (f.serviceId, f.name)
  versions_unique : db.versions.UniqueOn fun v => (v.functionId, v.version)
  services_refer : db.services.RefersTo (·.namespaceId) db.namespaces
  functions_refer : db.functions.RefersTo (·.serviceId) db.services
  versions_refer : db.versions.RefersTo (·.functionId) db.functions

/-- All that is stored about a function and its active version, without ids and counters. -/
structure Profile where
  description : Json
  tags : Option (List String)
  outputTrust : String
  publicSafe : Bool
  cachePolicy : Option CachePolicy
  locked : Bool
  lockedBy : Option ℕ
  lockedAt : Option Time
  backend : Json
  language : Json
  code : Json
  config : Json
  inputSchema : Json
  outputSchema : Json
  requirements : Option (List String)
  requiredEnv : Option (List String)
  optionalEnv : Option (List String)

def profile (f : Function) (v : FunctionVersion) : Profile where
  description := textValue f.description
  tags := f.tags
  outputTrust := f.outputTrust
  publicSafe := f.publicSafe
  cachePolicy := f.cachePolicy
  locked := f.locked
  lockedBy := f.lockedBy
  lockedAt := f.lockedAt
  backend := .str v.backend.text
  language := .str v.language.text
  code := textValue v.code
  config := jsonValue v.config
  inputSchema := jsonValue v.inputSchema
  outputSchema := jsonValue v.outputSchema
  requirements := v.requirements
  requiredEnv := v.requiredEnv
  optionalEnv := v.optionalEnv

def NewFunction.profile (n : NewFunction) : Profile where
  description := n.description
  tags := (arrayColumn n.tags).toOption.getD none
  outputTrust := n.outputTrust
  publicSafe := (boolColumn n.publicSafe).toOption.getD false
  cachePolicy := none
  locked := false
  lockedBy := none
  lockedAt := none
  backend := n.backend
  language := n.language
  code := n.code
  config := n.config
  inputSchema := n.inputSchema
  outputSchema := n.outputSchema
  requirements := (arrayColumn n.requirements).toOption.getD none
  requiredEnv := (arrayColumn n.requiredEnv).toOption.getD none
  optionalEnv := (arrayColumn n.optionalEnv).toOption.getD none

/-- What stands under the name of a function; a deleted row still holds its name. -/
inductive Slot
  | absent
  | removed (publicSafe : Bool) (cachePolicy : Option CachePolicy)
  | live (p : Option Profile)

/-- Creating a function takes a free slot, and a deleted row keeps two of its columns. -/
def Slot.place (p : Profile) : Slot → Slot
  | .absent => .live (some p)
  | .removed publicSafe cachePolicy => .live (some { p with publicSafe, cachePolicy })
  | .live q => .live q

theorem Slot.place_place (p q : Profile) (x : Slot) : Slot.place q (Slot.place p x) = Slot.place p x := by
  cases x <;> rfl

def slotOf (db : Db) (f : Function) : Slot :=
  match f.deletedAt with
  | some _ => .removed f.publicSafe f.cachePolicy
  | none => .live ((activeVersion db f).map (profile f))

def slotIn (db : Db) (serviceId : ℕ) (stored : String) : Slot :=
  match rowsAt db serviceId stored with
  | [] => .absent
  | f :: _ => slotOf db f

/-- The slot under the names of a service and a function. -/
def slotAt (db : Db) (namespaceId : ℕ) (names : String × String) : Slot :=
  match ServiceService.rowsAt db namespaceId names.1 with
  | [] => .absent
  | s :: _ => slotIn db s.id names.2

variable {db db' : Db}

theorem mem_rowsAt {serviceId : ℕ} {stored : String} {f : Function} :
    f ∈ rowsAt db serviceId stored ↔ f ∈ db.functions.rows ∧ f.serviceId = serviceId ∧ f.name.val = stored := by
  simp [rowsAt, Table.mem_select]

/-! ### Slots of a consistent database -/

namespace Consistent

theorem eq_of_key (h : Consistent db) {f g : Function} (hf : f ∈ db.functions.rows) (hg : g ∈ db.functions.rows)
    (hs : f.serviceId = g.serviceId) (hn : f.name.val = g.name.val) : f = g :=
  h.functions_unique f hf g hg (Prod.ext hs (Name.ext hn))

theorem key_iff (h : Consistent db) {f : Function} (hf : f ∈ db.functions.rows) (g : Function)
    (hg : g ∈ db.functions.rows) :
    g.id = f.id ↔ g.serviceId = f.serviceId ∧ g.name.val = f.name.val := by
  constructor
  · intro hid
    rw [Table.eq_of_id_eq hg hf hid]
    exact ⟨rfl, rfl⟩
  · intro hk
    rw [h.eq_of_key hg hf hk.1 hk.2]

theorem rowsAt_eq (h : Consistent db) {f : Function} (hf : f ∈ db.functions.rows) :
    rowsAt db f.serviceId f.name.val = [f] := by
  refine Table.select_eq_singleton hf (by simp) fun g hg hp => ?_
  have hk : g.serviceId = f.serviceId ∧ g.name.val = f.name.val := by simpa using hp
  exact h.eq_of_key hg hf hk.1 hk.2

theorem slotIn_eq (h : Consistent db) {f : Function} (hf : f ∈ db.functions.rows) :
    slotIn db f.serviceId f.name.val = slotOf db f := by
  rw [slotIn, h.rowsAt_eq hf]

theorem slotAt_eq (h : Consistent db) {s : NamespaceService} (hs : s ∈ db.services.rows) (stored : String) :
    slotAt db s.namespaceId (s.name.val, stored) = slotIn db s.id stored := by
  have hr : ServiceService.rowsAt db s.namespaceId s.name.val = [s] := by
    refine Table.select_eq_singleton hs (by simp) fun t ht hp => ?_
    have hk : t.namespaceId = s.namespaceId ∧ t.name.val = s.name.val := by simpa using hp
    exact h.services_unique t ht s hs (Prod.ext hk.1 (Name.ext hk.2))
  rw [slotAt, hr]

theorem activeVersion_eq_some (h : Consistent db) {f : Function} {v : FunctionVersion} :
    activeVersion db f = some v ↔ v ∈ db.versions.rows ∧ v.functionId = f.id ∧ v.version = f.activeVersion := by
  constructor
  · intro hv
    obtain ⟨hm, hid⟩ := Table.mem_select.mp (List.mem_of_find?_eq_some hv)
    exact ⟨hm, by simpa using hid, by simpa using List.find?_some hv⟩
  · rintro ⟨hm, hid, hve⟩
    have hs : (activeVersion db f).isSome := by
      rw [activeVersion, List.find?_isSome]
      exact ⟨v, Table.mem_select.mpr ⟨hm, by simpa using hid⟩, by simpa using hve⟩
    obtain ⟨w, hw⟩ := Option.isSome_iff_exists.mp hs
    obtain ⟨hwm, hwi⟩ := Table.mem_select.mp (List.mem_of_find?_eq_some hw)
    have hwv : w.version = f.activeVersion := by simpa using List.find?_some hw
    rw [hw, h.versions_unique w hwm v hm
      (Prod.ext ((show w.functionId = f.id by simpa using hwi).trans hid.symm) (hwv.trans hve.symm))]

end Consistent

theorem slotIn_eq_absent {serviceId : ℕ} {sto : String}
    (h : ∀ f ∈ db.functions.rows, f.serviceId = serviceId → f.name.val ≠ sto) :
      slotIn db serviceId sto = .absent := by
  have hni : rowsAt db serviceId sto = [] := by
    rw [List.eq_nil_iff_forall_not_mem]
    intro f hf
    obtain ⟨hm, hs, hn⟩ := mem_rowsAt.mp hf
    exact h f hm hs hn
  rw [slotIn, hni]

variable {namespaceId : ℕ} {name : String}

theorem slotAt_eq_absent {nms : String × String}
    (h : ∀ s ∈ db.services.rows, s.namespaceId = namespaceId → s.name.val ≠ nms.1) :
    slotAt db namespaceId nms = .absent := by
  have hn : ServiceService.rowsAt db namespaceId nms.1 = [] := by
    rw [List.eq_nil_iff_forall_not_mem]
    intro s hs
    obtain ⟨hm, hp⟩ := Table.mem_select.mp hs
    have hk : s.namespaceId = namespaceId ∧ s.name.val = nms.1 := by simpa using hp
    exact h s hm hk.1 hk.2
  rw [slotAt, hn]

theorem slotAt_eq_live {nms : String × String} {p : Option Profile}
    (h : slotAt db namespaceId nms = .live p) :
    ∃ s ∈ db.services.rows, s.namespaceId = namespaceId ∧ s.name.val = nms.1 ∧ ∃ f ∈ db.functions.rows,
      f.serviceId = s.id ∧ f.name.val = nms.2 ∧ f.deletedAt = none ∧ (activeVersion db f).map (profile f) = p := by
  unfold slotAt at h
  split at h
  · cases h
  rename_i s _ hs
  have hm : s ∈ ServiceService.rowsAt db namespaceId nms.1 := by
    rw [hs]
    exact List.mem_cons_self
  obtain ⟨hsr, hsk⟩ := Table.mem_select.mp hm
  have hsk : s.namespaceId = namespaceId ∧ s.name.val = nms.1 := by simpa using hsk
  refine ⟨s, hsr, hsk.1, hsk.2, ?_⟩
  unfold slotIn at h
  split at h
  · cases h
  rename_i f _ hf
  obtain ⟨hfr, hfs, hfn⟩ := mem_rowsAt.mp (show f ∈ rowsAt db s.id nms.2 by rw [hf]; exact List.mem_cons_self)
  unfold slotOf at h
  split at h
  · cases h
  · rename_i hl
    exact ⟨f, hfr, hfs, hfn, hl, Slot.live.inj h⟩

theorem slotAt_of_getForExecution (hdb : Consistent db) {svc fn : String} {f : Function}
    {v : FunctionVersion} (h : getForExecution db namespaceId svc fn = .ok (f, v)) :
    slotAt db namespaceId (lower svc, lower fn) = .live (some (profile f v)) := by
  obtain ⟨⟨s, f, v, hm, hl, hse, rfl, hv⟩, rfl, rfl, ⟨hs, hf⟩, -⟩ := stored_of_getForExecution h
  obtain ⟨hsr, hsi⟩ := Table.get?_eq_some.mp hse
  rw [hs, hf, hdb.slotAt_eq hsr, show s.id = f.serviceId from hsi, hdb.slotIn_eq hm, slotOf, hl, hv]
  rfl

theorem getForExecution_of_slotAt (hdb : Consistent db) {svc fn : String} {p : Profile}
    (h : slotAt db namespaceId (lower svc, lower fn) = .live (some p)) :
    ∃ f v, getForExecution db namespaceId svc fn = .ok (f, v) ∧ profile f v = p := by
  obtain ⟨s, hs, hns, hsn, f, hf, hfs, hfn, hl, hp⟩ := slotAt_eq_live h
  obtain ⟨v, hv, rfl⟩ := Option.map_eq_some_iff.mp hp
  have hse : serviceOf db f = some s := Table.get?_eq_some.mpr ⟨hs, hfs.symm⟩
  have hu : Stored.Unique (⟨s, f, v, hf, hl, hse, hns, hv⟩ : Stored db namespaceId) := by
    refine Table.select_eq_singleton hf (by simp [hse, hns, hl]) fun g hg hk => ?_
    obtain ⟨-, ⟨t, ht, hts, htn⟩, hgn, -⟩ := named_iff.mp (Table.mem_select.mpr ⟨hg, hk⟩)
    obtain ⟨htr, hti⟩ := Table.get?_eq_some.mp ht
    rw [Name.lower_val] at htn hgn
    obtain rfl := hdb.services_unique t htr s hs (Prod.ext (hts.trans hns.symm) (Name.ext htn))
    exact hdb.eq_of_key hg hf (hti.symm.trans hfs.symm) hgn
  exact ⟨f, v, Stored.getForExecution_of_spelledAs hu ⟨hsn.symm, hfn.symm⟩, rfl⟩

/-! ### Creating a function -/

/-- The row `f` was put among the functions, and `v`, its next version, was added. -/
structure Added (db db' : Db) (f : Function) (v : FunctionVersion) : Prop where
  functions : db.functions.Puts db'.functions f
  versions : db.versions.Puts db'.versions v
  services : db'.services = db.services
  namespaces : db'.namespaces = db.namespaces
  functionId : v.functionId = f.id
  newId : ∀ w ∈ db.versions.rows, w.id ≠ v.id
  number : v.version = nextVersion db f
  key : ∀ g ∈ db.functions.rows, g.id = f.id ↔ g.serviceId = f.serviceId ∧ g.name.val = f.name.val
  service : ∃ s ∈ db.services.rows, s.id = f.serviceId

/-- Moreover `f` is live, and `v` is its active version. -/
structure Created (db db' : Db) (f : Function) (v : FunctionVersion) : Prop extends Added db db' f v where
  live : f.deletedAt = none
  version : v.version = f.activeVersion

namespace Added

variable {f : Function} {v : FunctionVersion}

theorem mem_versions (h : Added db db' f v) {w : FunctionVersion} :
    w ∈ db'.versions.rows ↔ w ∈ db.versions.rows ∨ w = v :=
  h.versions.mem_iff_of_new h.newId

theorem consistent (h : Added db db' f v) (hdb : Consistent db) : Consistent db' where
  services_unique := by
    rw [h.services]
    exact hdb.services_unique
  functions_unique := hdb.functions_unique.puts h.functions fun g hg hk =>
    (h.key g hg).mpr ⟨(Prod.ext_iff.mp hk).1, congrArg Name.val (Prod.ext_iff.mp hk).2⟩
  versions_unique := hdb.versions_unique.puts h.versions fun w hw hk => by
    have hlt := version_lt_nextVersion hw ((Prod.ext_iff.mp hk).1.trans h.functionId)
    exact absurd ((Prod.ext_iff.mp hk).2.trans h.number) (ne_of_lt hlt)
  services_refer := by
    rw [h.services, h.namespaces]
    exact hdb.services_refer
  functions_refer := by
    rw [h.services]
    exact hdb.functions_refer.puts h.functions h.service
  versions_refer := (hdb.versions_refer.puts_target h.functions).puts h.versions
    ⟨f, (h.functions f).mpr (.inr rfl), h.functionId.symm⟩

end Added

namespace Created

variable {f : Function} {v : FunctionVersion}

theorem slotIn_self (h : Created db db' f v) (hd' : Consistent db') :
    slotIn db' f.serviceId f.name.val = .live (some (profile f v)) := by
  have ha : activeVersion db' f = some v :=
    hd'.activeVersion_eq_some.mpr ⟨h.mem_versions.mpr (.inr rfl), h.functionId, h.version⟩
  rw [hd'.slotIn_eq ((h.functions f).mpr (.inr rfl)), slotOf, h.live, ha]
  rfl

theorem slotOf_eq (h : Created db db' f v) (hdb : Consistent db) (hd' : Consistent db') {g : Function}
    (hg : g.id ≠ f.id) : slotOf db' g = slotOf db g := by
  have ha : activeVersion db' g = activeVersion db g := by
    ext w
    rw [hdb.activeVersion_eq_some, hd'.activeVersion_eq_some, h.mem_versions]
    constructor
    · rintro ⟨hw | rfl, hid, hv⟩
      · exact ⟨hw, hid, hv⟩
      · exact absurd (hid.symm.trans h.functionId) hg
    · rintro ⟨hw, hid, hv⟩
      exact ⟨.inl hw, hid, hv⟩
  rw [slotOf, slotOf, ha]

theorem slotIn_of_ne (h : Created db db' f v) (hdb : Consistent db) (hd' : Consistent db') {serviceId : ℕ}
    {stored : String} (hne : ¬(serviceId = f.serviceId ∧ stored = f.name.val)) :
    slotIn db' serviceId stored = slotIn db serviceId stored := by
  by_cases hex : ∃ g ∈ db.functions.rows, g.serviceId = serviceId ∧ g.name.val = stored
  · obtain ⟨g, hg, rfl, rfl⟩ := hex
    have hid : g.id ≠ f.id := fun hid => hne ((h.key g hg).mp hid)
    rw [hdb.slotIn_eq hg, hd'.slotIn_eq ((h.functions g).mpr (.inl ⟨hg, hid⟩)), h.slotOf_eq hdb hd' hid]
  · have ha : ∀ g ∈ db.functions.rows, g.serviceId = serviceId → g.name.val ≠ stored :=
      fun g hg hs hn => hex ⟨g, hg, hs, hn⟩
    rw [slotIn_eq_absent ha]
    refine slotIn_eq_absent fun g hg hs hn => ?_
    rcases (h.functions g).mp hg with ⟨hg, -⟩ | rfl
    · exact ha g hg hs hn
    · exact hne ⟨hs.symm, hn.symm⟩

theorem slotAt_apply (h : Created db db' f v) (hdb : Consistent db) (hd' : Consistent db') {s : NamespaceService}
    (hs : s ∈ db.services.rows) (hfs : f.serviceId = s.id) (names : String × String) :
    slotAt db' s.namespaceId names =
      if names = (s.name.val, f.name.val) then .live (some (profile f v)) else slotAt db s.namespaceId names := by
  obtain ⟨service, stored⟩ := names
  by_cases hex : ∃ t ∈ db.services.rows, t.namespaceId = s.namespaceId ∧ t.name.val = service
  · obtain ⟨t, ht, hns, rfl⟩ := hex
    rw [← hns, hdb.slotAt_eq ht, hd'.slotAt_eq (by rwa [h.services])]
    by_cases hk : (t.name.val, stored) = (s.name.val, f.name.val)
    · obtain ⟨hn, rfl⟩ := Prod.mk.inj hk
      obtain rfl := hdb.services_unique t ht s hs (Prod.ext hns (Name.ext hn))
      rw [if_pos rfl, ← hfs, h.slotIn_self hd']
    · rw [if_neg hk]
      refine h.slotIn_of_ne hdb hd' fun ⟨hid, hn⟩ => hk ?_
      rw [Table.eq_of_id_eq ht hs (hid.trans hfs), hn]
  · have ha : ∀ t ∈ db.services.rows, t.namespaceId = s.namespaceId → t.name.val ≠ service :=
      fun t ht hns hn => hex ⟨t, ht, hns, hn⟩
    rw [slotAt_eq_absent (by rwa [h.services]), slotAt_eq_absent ha, if_neg]
    intro hk
    exact ha s hs rfl (Prod.mk.inj hk).1.symm

end Created

/-! ### Creating a service or a namespace -/

theorem mem_of_service_getByName {s : NamespaceService}
    (h : ServiceService.getByName db namespaceId name = .ok s) :
    s ∈ db.services.rows ∧ s.namespaceId = namespaceId ∧ s.name.val = lower name := by
  obtain ⟨found, hf, h⟩ := bind_eq_ok.mp h
  cases found with
  | none => cases h
  | some t =>
    cases h
    have hm := mem_of_scalarOneOrNone hf
    simpa [ServiceService.rowsAt, Table.mem_select] using hm

theorem serviceRows_of_checkNewName
    (h : ServiceService.checkNewName db namespaceId name = .ok ()) :
      ServiceService.rowsAt db namespaceId (lower name) = [] := by
  obtain ⟨found, hf, h⟩ := bind_eq_ok.mp h
  cases found with
  | none => exact scalarOneOrNone_eq_none.mp hf
  | some s => cases h

/-- `db'` has one service more. -/
structure ServiceCreated (db db' : Db) (s : NamespaceService) : Prop where
  services : db.services.Puts db'.services s
  namespaces : db'.namespaces = db.namespaces
  functions : db'.functions = db.functions
  versions : db'.versions = db.versions
  newId : s.id = db.services.freshId
  newName : ∀ t ∈ db.services.rows, t.namespaceId = s.namespaceId → t.name.val ≠ s.name.val

namespace ServiceCreated

variable {s : NamespaceService}

theorem mem_services (h : ServiceCreated db db' s) {t : NamespaceService} :
    t ∈ db'.services.rows ↔ t ∈ db.services.rows ∨ t = s :=
  h.services.mem_iff_of_new fun _ ht hid => Table.freshId_ne ht (hid.trans h.newId)

theorem consistent (h : ServiceCreated db db' s) (hdb : Consistent db)
    (hn : ∃ n ∈ db.namespaces.rows, n.id = s.namespaceId) :
    Consistent db' where
  services_unique := hdb.services_unique.puts h.services fun t ht hk =>
    absurd (congrArg Name.val (Prod.ext_iff.mp hk).2) (h.newName t ht (Prod.ext_iff.mp hk).1)
  functions_unique := by
    rw [h.functions]
    exact hdb.functions_unique
  versions_unique := by
    rw [h.versions]
    exact hdb.versions_unique
  services_refer := by
    rw [h.namespaces]
    exact hdb.services_refer.puts h.services hn
  functions_refer := by
    rw [h.functions]
    exact hdb.functions_refer.puts_target h.services
  versions_refer := by
    rw [h.versions, h.functions]
    exact hdb.versions_refer

theorem slotIn_eq (h : ServiceCreated db db' s) : slotIn db' = slotIn db := by
  have hs : slotOf db' = slotOf db := by
    funext f
    simp only [slotOf, activeVersion, h.versions]
  funext i stored
  simp only [slotIn, rowsAt, h.functions, hs]

theorem slotAt_eq (h : ServiceCreated db db' s) (hdb : Consistent db) (hd' : Consistent db') (namespaceId : ℕ) :
    slotAt db' namespaceId = slotAt db namespaceId := by
  funext ⟨service, stored⟩
  by_cases hex : ∃ t ∈ db.services.rows, t.namespaceId = namespaceId ∧ t.name.val = service
  · obtain ⟨t, ht, rfl, rfl⟩ := hex
    rw [hdb.slotAt_eq ht, hd'.slotAt_eq (h.mem_services.mpr (.inl ht)), h.slotIn_eq]
  · have ha : ∀ t ∈ db.services.rows, t.namespaceId = namespaceId → t.name.val ≠ service :=
      fun t ht hns hn => hex ⟨t, ht, hns, hn⟩
    rw [show slotAt db namespaceId (service, stored) = .absent from slotAt_eq_absent ha]
    by_cases hs : s.namespaceId = namespaceId ∧ s.name.val = service
    · obtain ⟨rfl, rfl⟩ := hs
      rw [hd'.slotAt_eq (h.mem_services.mpr (.inr rfl)), h.slotIn_eq]
      refine slotIn_eq_absent fun f hf hfs => ?_
      exact absurd (hfs.trans h.newId) (hdb.functions_refer.ne_freshId hf)
    · refine slotAt_eq_absent fun t ht hns hn => ?_
      rcases h.mem_services.mp ht with ht | rfl
      · exact ha t ht hns hn
      · exact hs ⟨hns, hn⟩

end ServiceCreated

theorem serviceCreate_eq_ok {desc : Json} {s : NamespaceService}
    (h : ServiceService.create namespaceId name desc db = (.ok s, db')) :
    ServiceCreated db db' s ∧ s.namespaceId = namespaceId ∧ s.name.val = lower name := by
  obtain ⟨_, hc, h⟩ := fetch_bind_eq_ok.mp h
  obtain ⟨stored, hst, h⟩ := fetch_bind_eq_ok.mp h
  obtain ⟨text, -, h⟩ := fetch_bind_eq_ok.mp h
  cases h
  have hn : stored.val = lower name := newName_val hst
  refine ⟨⟨Table.puts_insert _ _ _, rfl, rfl, rfl, rfl, ?_⟩, rfl, hn⟩
  intro t ht hns htn
  have hm : t ∈ ServiceService.rowsAt db namespaceId (lower name) :=
    Table.mem_select.mpr ⟨ht, by simpa using ⟨hns, htn.trans hn⟩⟩
  rw [serviceRows_of_checkNewName hc] at hm
  cases hm

theorem namespaceRows_of_checkNewName {fmt : Time → String}
    (h : Namespaces.checkNewName fmt db name = .ok ()) :
    db.namespaces.select (·.name.val = lower name) = [] := by
  unfold Namespaces.checkNewName at h
  split at h
  · cases h
  · obtain ⟨found, hf, h⟩ := bind_eq_ok.mp h
    cases found with
    | none => exact scalarOneOrNone_eq_none.mp hf
    | some n =>
      dsimp only at h
      split at h <;> cases h

theorem namespaceCreate_eq_ok (hdb : Consistent db) {fmt : Time → String} {aid : ℕ}
    {desc : Json} {n : Namespace} (h : Namespaces.create fmt aid name desc db = (.ok n, db')) :
    Consistent db' ∧ db'.services = db.services ∧ n ∈ db'.namespaces.rows ∧
      Namespaces.getByName db' name (some aid) = .ok n ∧ ∀ names, slotAt db' n.id names = .absent := by
  obtain ⟨_, hc, h⟩ := fetch_bind_eq_ok.mp h
  obtain ⟨stored, hst, h⟩ := fetch_bind_eq_ok.mp h
  obtain ⟨text, -, h⟩ := fetch_bind_eq_ok.mp h
  cases h
  have hna : stored.val = lower name := newName_val hst
  have hni := namespaceRows_of_checkNewName hc
  refine ⟨{ hdb with services_refer := hdb.services_refer.puts_target (Table.puts_insert _ _ _) }, rfl,
    Table.mem_insert.mpr (.inr rfl), ?_, ?_⟩
  · refine Namespaces.getByName_eq_ok.mpr ⟨?_, by simp [Namespaces.checkAccess]⟩
    have ho : ∀ m ∈ db.namespaces.rows, m.name.val ≠ lower name := by
      intro m hm hmn
      have hme : m ∈ db.namespaces.select (·.name.val = lower name) := Table.mem_select.mpr ⟨hm, by simpa using hmn⟩
      rw [hni] at hme
      cases hme
    refine Table.select_eq_singleton (Table.mem_insert.mpr (.inr rfl)) (by simp [hna]) fun m hm hp => ?_
    rcases Table.mem_insert.mp hm with hm | rfl
    · exact absurd (by simpa using (of_decide_eq_true hp).1) (ho m hm)
    · rfl
  · intro names
    refine slotAt_eq_absent fun s hs hns => ?_
    exact absurd hns (hdb.services_refer.ne_freshId hs)

/-! ### What `create` does -/

section create

variable {serviceId : ℕ} {n : NewFunction} {f : Function}

theorem functionRow_eq_ok {name : String} {row : Function} (h : functionRow serviceId name n = .ok row) :
    row.serviceId = serviceId ∧ row.name.val = lower name ∧ row.activeVersion = 1 ∧ row.deletedAt = none ∧
      textColumn n.description = .ok row.description ∧ arrayColumn n.tags = .ok row.tags ∧
      row.outputTrust = n.outputTrust ∧ boolColumn n.publicSafe = .ok row.publicSafe ∧ row.cachePolicy = none ∧
      row.locked = false ∧ row.lockedBy = none ∧ row.lockedAt = none := by
  obtain ⟨stored, hs, h⟩ := bind_eq_ok.mp h
  obtain ⟨desc, hd, h⟩ := bind_eq_ok.mp h
  obtain ⟨tags, ht, h⟩ := bind_eq_ok.mp h
  obtain ⟨safe, hp, h⟩ := bind_eq_ok.mp h
  cases h
  exact ⟨rfl, newName_val hs, rfl, rfl, hd, ht, rfl, hp, rfl, rfl, rfl, rfl⟩

theorem addVersion_eq_ok {fid ver : ℕ} {v : NewVersion} {w : FunctionVersion}
    (h : addVersion fid ver v db = (.ok w, db')) :
    ∃ row, versionRow fid ver v = .ok row ∧ w = { row with id := db.versions.freshId } ∧
      db' = { db with versions := db.versions.insert fun i => { row with id := i } } := by
  obtain ⟨row, hr, h⟩ := fetch_bind_eq_ok.mp h
  obtain ⟨hw, hdb⟩ := Prod.mk.inj h
  exact ⟨row, hr, (Except.ok.inj hw).symm, hdb.symm⟩

theorem exists_of_checkService (h : checkService db serviceId = .ok ()) :
    ∃ s ∈ db.services.rows, s.id = serviceId := by
  unfold checkService at h
  split at h
  · rename_i hso
    obtain ⟨s, hs⟩ := Option.isSome_iff_exists.mp hso
    exact ⟨s, Table.get?_eq_some.mp hs⟩
  · cases h

theorem profile_eq {row : FunctionVersion} {fid ver : ℕ}
    (hr : versionRow fid ver n.toNewVersion = .ok row) (hd : textColumn n.description = .ok f.description)
    (ht : arrayColumn n.tags = .ok f.tags) (ho : f.outputTrust = n.outputTrust) (hl : f.locked = false)
    (hb : f.lockedBy = none) (hla : f.lockedAt = none) (i : ℕ) :
    profile f { row with id := i } = { n.profile with publicSafe := f.publicSafe, cachePolicy := f.cachePolicy } := by
  obtain ⟨-, -, hba, hln, hc, hco, hin, hou, hre, hrq, hop⟩ := versionRow_eq_ok hr
  simp [profile, NewFunction.profile, textValue_of_textColumn hd, ht, ho, hl, hb, hla, text_of_validateBackend hba,
    text_of_validateLanguage hln, textValue_of_textColumn hc, hco, hin, hou, hre, hrq, hop,
    Except.toOption]

theorem createFresh_eq_ok (hdb : Consistent db) {name : String} (hno : rowsAt db serviceId (lower name) = [])
    (h : createFresh serviceId name n db = (.ok f, db')) :
    f.serviceId = serviceId ∧ f.name.val = lower name ∧ ∃ v, Created db db' f v ∧ profile f v = n.profile := by
  obtain ⟨row, hr, h⟩ := fetch_bind_eq_ok.mp h
  obtain ⟨_, hse, h⟩ := fetch_bind_eq_ok.mp h
  rw [query_bind_apply, write_bind_apply] at h
  obtain ⟨w, s, ha, h⟩ := Session.bind_eq_ok.mp h
  cases h
  obtain ⟨vrow, hvr, rfl, rfl⟩ := addVersion_eq_ok ha
  obtain ⟨hs, hn, hac, hli, hd, ht, ho, hp, hc, hl, hlb, hla⟩ := functionRow_eq_ok hr
  obtain ⟨hfi, hve, -⟩ := versionRow_eq_ok hvr
  have hne : ∀ g ∈ db.functions.rows, g.id ≠ db.functions.freshId := fun g hg => Table.freshId_ne hg
  refine ⟨hs, hn, _, ⟨⟨Table.puts_insert _ _ _, Table.puts_insert _ _ _, rfl, rfl, hfi, ?_, ?_, ?_, ?_⟩, hli,
    hve.trans hac.symm⟩, ?_⟩
  · intro v hv
    exact Table.freshId_ne hv
  · exact hve.trans (nextVersion_eq_one fun v hv => hdb.versions_refer.ne_freshId hv).symm
  · intro g hg
    refine ⟨fun hid => absurd hid (hne g hg), fun hk => ?_⟩
    have hm : g ∈ rowsAt db serviceId (lower name) := mem_rowsAt.mpr ⟨hg, hk.1.trans hs, hk.2.trans hn⟩
    rw [hno] at hm
    cases hm
  · rw [hs]
    exact exists_of_checkService hse
  · rw [profile_eq hvr (f := { row with id := db.functions.freshId }) hd ht ho hl hlb hla]
    simp [NewFunction.profile, hp, hc, Except.toOption]

theorem revive_eq_ok (hdb : Consistent db) (hf : f ∈ db.functions.rows) {g : Function}
    (h : revive f n db = (.ok g, db')) :
    g.serviceId = f.serviceId ∧ g.name = f.name ∧ ∃ v, Created db db' g v ∧
      profile g v = { n.profile with publicSafe := f.publicSafe, cachePolicy := f.cachePolicy } := by
  obtain ⟨desc, hd, h⟩ := fetch_bind_eq_ok.mp h
  obtain ⟨tags, ht, h⟩ := fetch_bind_eq_ok.mp h
  rw [change, write_bind_apply, query_bind_apply] at h
  obtain ⟨w, s, ha, h⟩ := Session.bind_eq_ok.mp h
  cases h
  obtain ⟨vrow, hvr, rfl, rfl⟩ := addVersion_eq_ok ha
  obtain ⟨hfi, hve, -⟩ := versionRow_eq_ok hvr
  have hge : db.functions.get? f.id = some f := Table.get?_eq_some.mpr ⟨hf, rfl⟩
  refine ⟨rfl, rfl, _, ⟨⟨?_, Table.puts_insert _ _ _, rfl, rfl, hfi, ?_, hve, ?_, ?_⟩, rfl, hve⟩, ?_⟩
  · -- the row is written twice, the second time with the number of the version
    have hfr : db.functions.Puts (db.functions.update f.id (revived desc tags n.outputTrust) fun _ => rfl)
        (revived desc tags n.outputTrust f) := Table.puts_update _ hge
    have hg' : (db.functions.update f.id (revived desc tags n.outputTrust) fun _ => rfl).get? f.id =
        some (revived desc tags n.outputTrust f) :=
      Table.get?_update.trans (congrArg (Option.map _) hge)
    refine hfr.trans (Table.puts_update ?_ hg') rfl
    intro g
    rfl
  · intro v hv
    exact Table.freshId_ne hv
  · intro e he
    exact hdb.key_iff (f := f) hf e he
  · exact hdb.functions_refer f hf
  · exact profile_eq hvr hd ht rfl rfl rfl rfl _

theorem create_eq_ok (hdb : Consistent db) (h : create serviceId n db = (.ok f, db')) :
    ∃ name v, n.name = .str name ∧ f.serviceId = serviceId ∧ f.name.val = lower name ∧ Created db db' f v ∧
      .live (some (profile f v)) = Slot.place n.profile (slotIn db serviceId (lower name)) ∧
      n.language = .str v.language.text ∧ ∀ e ∈ rowsAt db serviceId (lower name), e.id = f.id ∧
        e.deletedAt ≠ none := by
  obtain ⟨name, hna, h⟩ := fetch_bind_eq_ok.mp h
  obtain ⟨found, hf, h⟩ := fetch_bind_eq_ok.mp h
  have hst := asName_eq_ok.mp hna
  cases found with
  | none =>
    have hni := scalarOneOrNone_eq_none.mp hf
    obtain ⟨hs, hn, v, hv, hp⟩ := createFresh_eq_ok hdb hni h
    refine ⟨name, v, hst, hs, hn, hv, ?_, (congrArg Profile.language hp).symm, ?_⟩
    · rw [slotIn, hni, hp]
      rfl
    · rw [hni]
      exact fun e he => absurd he List.not_mem_nil
  | some g =>
    have hsi := scalarOneOrNone_eq_some.mp hf
    obtain ⟨hg, hs, hn⟩ := mem_rowsAt.mp (hsi ▸ List.mem_singleton_self g)
    cases hd : g.deletedAt with
    | none =>
      simp only [hd, if_true] at h
      cases h
    | some t =>
      simp only [hd, reduceCtorEq, if_false] at h
      obtain ⟨hs', hn', v, hv, hp⟩ := revive_eq_ok hdb hg h
      refine ⟨name, v, hst, hs'.trans hs, (congrArg Name.val hn').trans hn, hv, ?_,
        (congrArg Profile.language hp).symm, ?_⟩
      · have hsl : slotIn db serviceId (lower name) = .removed g.publicSafe g.cachePolicy := by
          simp only [slotIn, hsi, slotOf, hd]
        rw [hsl, hp]
        rfl
      · intro e he
        rw [hsi] at he
        obtain rfl := List.mem_singleton.mp he
        exact ⟨(hv.key e hg).mpr ⟨hs'.symm, congrArg Name.val hn'.symm⟩, by rw [hd]; exact Option.some_ne_none t⟩

/-! ### How `create` fails -/

theorem fails_newName (k : NameKind) (what s : String) : Fails ApiError.IsPy (newName k what s) := by
  unfold newName
  split
  · exact Fails.error ⟨_, _, rfl⟩
  · split
    · exact Fails.ok _
    · exact Fails.error ⟨_, _, rfl⟩

theorem fails_versionRow_columns {fid ver : ℕ} {v : NewVersion} {be : Backend} {lang : Language}
    (hb : validateBackend v.backend = .ok be) (hl : validateLanguage v.language = .ok lang) :
    Fails ApiError.IsData (versionRow fid ver v) := by
  unfold versionRow
  rw [hb, hl]
  exact (fails_textColumn _).bind fun _ => (fails_arrayColumn _).bind fun _ => (fails_arrayColumn _).bind fun _ =>
    (fails_arrayColumn _).bind fun _ => (fails_varcharColumn _ _).bind fun _ => Fails.ok _

theorem fails_versionRow (fid ver : ℕ) (v : NewVersion) : Fails ApiError.IsPy (versionRow fid ver v) :=
  (fails_validateBackend _).bind fun _ => (fails_validateLanguage _).bind fun _ => Fails.isPy <|
    (fails_textColumn _).bind fun _ => (fails_arrayColumn _).bind fun _ => (fails_arrayColumn _).bind fun _ =>
      (fails_arrayColumn _).bind fun _ => (fails_varcharColumn _ _).bind fun _ => Fails.ok _

theorem fails_functionRow (name : String) : Fails ApiError.IsPy (functionRow serviceId name n) :=
  (fails_newName _ _ _).bind fun _ => ((fails_textColumn _).isPy).bind fun _ =>
    ((fails_arrayColumn _).isPy).bind fun _ =>
      ((fails_boolColumn _).isPy).bind fun _ => Fails.ok _

theorem raises_addVersion (fid ver : ℕ) (v : NewVersion) :
    (addVersion fid ver v).Raises ApiError.IsPy :=
  Raises.fetch_bind (fun _ => fails_versionRow fid ver v) fun _ =>
    Raises.query_bind fun _ => Raises.write_bind (Raises.pure _)

theorem fails_checkService (db : Db) : Fails ApiError.IsPy (checkService db serviceId) := by
  unfold checkService
  split
  · exact Fails.ok _
  · exact Fails.error ⟨_, _, rfl⟩

theorem raises_createFresh (name : String) : (createFresh serviceId name n).Raises ApiError.IsPy :=
  Raises.fetch_bind (fun _ => fails_functionRow name) fun _ =>
    Raises.fetch_bind (fun db => fails_checkService db) fun _ => Raises.query_bind fun _ =>
      Raises.write_bind ((raises_addVersion _ _ _).bind fun _ => Raises.pure _)

theorem raises_revive : (revive f n).Raises ApiError.IsPy :=
  Raises.fetch_bind (fun _ => (fails_textColumn _).isPy) fun _ =>
    Raises.fetch_bind (fun _ => (fails_arrayColumn _).isPy) fun _ => Raises.write_bind
      (Raises.query_bind fun _ => (raises_addVersion _ _ _).bind fun _ =>
        Raises.write_bind (Raises.pure _))

theorem create_conflict {msg : String} (h : create serviceId n db = (.error (conflict msg), db')) :
    db' = db ∧ ∃ name p, n.name = .str name ∧ slotIn db serviceId (lower name) = .live p := by
  have hn : ¬(conflict msg).IsPy := by
    rintro ⟨kind, text, heq⟩
    cases heq
  rcases fetch_bind_eq_error.mp h with ⟨hna, -⟩ | ⟨name, hna, h⟩
  · exact absurd (fails_asName _ _ hna) hn
  rcases fetch_bind_eq_error.mp h with ⟨hf, -⟩ | ⟨found, hf, h⟩
  · exact absurd (fails_scalarOneOrNone _ _ hf) hn
  cases found with
  | none => exact absurd (raises_createFresh name db _ (congrArg Prod.fst h)) hn
  | some g =>
    have hs := scalarOneOrNone_eq_some.mp hf
    cases hd : g.deletedAt with
    | some t =>
      simp only [hd, reduceCtorEq, if_false] at h
      exact absurd (raises_revive db _ (congrArg Prod.fst h)) hn
    | none =>
      simp only [hd, if_true] at h
      refine ⟨(Prod.mk.inj h).2.symm, name, (activeVersion db g).map (profile g), asName_eq_ok.mp hna, ?_⟩
      simp only [slotIn, hs, slotOf, hd]

end create

end McpworksApi.Services.Functions
