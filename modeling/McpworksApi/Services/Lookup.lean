import McpworksApi.Services.Namespaces

/-! How a function is found for execution. The names a caller gives are lower-cased and compared with the stored ones,
so many spellings lead to one function. -/

namespace McpworksApi.Services.Functions

open Models Py

def serviceOf (db : Db) (f : Function) : Option NamespaceService := db.services.get? f.serviceId

def activeVersion (db : Db) (f : Function) : Option FunctionVersion :=
  (db.versions.select (·.functionId = f.id)).find? (·.version = f.activeVersion)

def named (db : Db) (namespaceId : ℕ) (service function : String) : List Function :=
  db.functions.select fun f =>
    (serviceOf db f).any (fun s => s.namespaceId = namespaceId ∧ s.name.val = lower service) ∧
      f.name.val = lower function ∧ f.deletedAt = none

def getForExecution (db : Db) (namespaceId : ℕ) (service function : String) :
    Except ApiError (Function × FunctionVersion) := do
  match ← scalarOneOrNone (named db namespaceId service function) with
  | none => .error (notFound ("Function '" ++ service ++ "." ++ function ++ "' not found"))
  | some f =>
    match activeVersion db f with
    | none => .error (notFound ("Function '" ++ service ++ "." ++ function ++ "' has no active version"))
    | some v => .ok (f, v)

def listAllForNamespace (db : Db) (namespaceId : ℕ) : List (Function × FunctionVersion) :=
  (db.functions.select fun f =>
    (serviceOf db f).any (fun s => s.namespaceId = namespaceId) ∧ f.deletedAt = none).filterMap fun f =>
      (activeVersion db f).map (f, ·)

structure Stored (db : Db) (namespaceId : ℕ) where
  service : NamespaceService
  function : Function
  version : FunctionVersion
  mem : function ∈ db.functions.rows
  live : function.deletedAt = none
  serviceOf_eq : serviceOf db function = some service
  namespaceId_eq : service.namespaceId = namespaceId
  activeVersion_eq : activeVersion db function = some version

namespace Stored

variable {db : Db} {namespaceId : ℕ}

def ofRows (service : NamespaceService) (function : Function) (version : FunctionVersion)
    (h : function ∈ db.functions.rows ∧ function.deletedAt = none ∧ serviceOf db function = some service ∧
      service.namespaceId = namespaceId ∧ activeVersion db function = some version) : Stored db namespaceId :=
  ⟨service, function, version, h.1, h.2.1, h.2.2.1, h.2.2.2.1, h.2.2.2.2⟩

def SpelledAs (x : Stored db namespaceId) (service function : String) : Prop :=
  lower service = x.service.name.val ∧ lower function = x.function.name.val

def Unique (x : Stored db namespaceId) : Prop :=
  named db namespaceId x.service.name.val x.function.name.val = [x.function]

theorem spelledAs_self (x : Stored db namespaceId) : x.SpelledAs x.service.name.val x.function.name.val :=
  ⟨x.service.name.lower_val, x.function.name.lower_val⟩

theorem named_of_spelledAs {x : Stored db namespaceId} {sv fnn : String} (h : x.SpelledAs sv fnn) :
    named db namespaceId sv fnn = named db namespaceId x.service.name.val x.function.name.val := by
  obtain ⟨hs, hf⟩ := h
  simp only [named, hs, hf, Name.lower_val]

theorem getForExecution_of_spelledAs {x : Stored db namespaceId} (hx : x.Unique) {sv fnn : String}
    (h : x.SpelledAs sv fnn) : getForExecution db namespaceId sv fnn = .ok (x.function, x.version) := by
  refine bind_eq_ok.mpr ⟨some x.function, ?_, by simp only [x.activeVersion_eq]⟩
  rw [named_of_spelledAs h, hx, scalarOneOrNone]

end Stored

variable {db : Db} {nid : ℕ} {svc fn : String} {f : Function} {v : FunctionVersion}

theorem named_iff {g : Function} : g ∈ named db nid svc fn ↔
    g ∈ db.functions.rows ∧ (∃ s, serviceOf db g = some s ∧ s.namespaceId = nid ∧ s.name.val = lower svc) ∧
      g.name.val = lower fn ∧ g.deletedAt = none := by
  simp [named, Table.mem_select, Option.any_eq_true]

theorem stored_of_getForExecution (h : getForExecution db nid svc fn = .ok (f, v)) :
    ∃ x : Stored db nid, x.function = f ∧ x.version = v ∧ x.SpelledAs svc fn ∧ x.Unique := by
  obtain ⟨r, hq, h⟩ := bind_eq_ok.mp h
  cases r with
  | none => cases h
  | some g =>
    rcases hv : activeVersion db g with _ | w
    · simp only [hv] at h
      cases h
    · simp only [hv] at h
      cases h
      have hn := scalarOneOrNone_eq_some.mp hq
      obtain ⟨hm, ⟨s, hs, hns, hsn⟩, hfn, hl⟩ := named_iff.mp (by rw [hn]; exact List.mem_singleton_self f)
      refine ⟨⟨s, f, v, hm, hl, hs, hns, hv⟩, rfl, rfl, ⟨hsn.symm, hfn.symm⟩, ?_⟩
      rw [Stored.Unique, ← hn]
      exact (Stored.named_of_spelledAs ⟨hsn.symm, hfn.symm⟩).symm

theorem mem_listAllForNamespace : (f, v) ∈ listAllForNamespace db nid ↔
    ∃ x : Stored db nid, x.function = f ∧ x.version = v := by
  simp only [listAllForNamespace, List.mem_filterMap, Table.mem_select, Option.map_eq_some_iff, Prod.mk.injEq,
    Bool.decide_and, Bool.and_eq_true, decide_eq_true_eq, Option.any_eq_true]
  constructor
  · rintro ⟨g, ⟨hm, ⟨s, hs, hns⟩, hl⟩, w, hw, rfl, rfl⟩
    exact ⟨⟨s, g, w, hm, hl, hs, hns, hw⟩, rfl, rfl⟩
  · rintro ⟨x, rfl, rfl⟩
    exact ⟨x.function, ⟨x.mem, ⟨x.service, x.serviceOf_eq, x.namespaceId_eq⟩, x.live⟩, x.version,
      x.activeVersion_eq, rfl, rfl⟩

end McpworksApi.Services.Functions
