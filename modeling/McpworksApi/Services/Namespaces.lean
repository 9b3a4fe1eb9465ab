import McpworksApi.Models.Columns
import McpworksApi.Models.Db
import McpworksApi.Session.Invariant

/-! `NamespaceServiceManager` and `NamespaceServiceService`: lookups and the names of namespaces and services. Lookups
only read the database, so they are functions of it. -/

namespace McpworksApi.Services

open Models Py Session

def notFound (message : String) : ApiError := .app .notFound message

def conflict (message : String) : ApiError := .app .conflict message

def valueError (message : String) : ApiError := .py .valueError message

def accessDenied : ApiError := .app .forbidden "Access denied to this namespace"

def newName (k : NameKind) (what s : String) : Except ApiError (Name k) :=
  match validateName k what s with
  | .error m => .error (valueError m)
  | .ok () => if h : nameFormat k s.toList = true then .ok ⟨s, h⟩ else .error (.py .integrityError "name format")

theorem newName_val {k : NameKind} {what s : String} {name : Name k}
    (h : newName k what s = .ok name) : name.val = s := by
  unfold newName at h
  split at h
  · cases h
  · split at h
    · cases h
      rfl
    · cases h

theorem newName_of_val {k : NameKind} (what : String) (name : Name k) : newName k what name.val = .ok name := by
  have hl : ¬63 < name.val.length := by
    have := name.length_le
    rw [String.length_toList] at this
    omega
  have hv : validateName k what name.val = .ok () := by
    unfold validateName
    rw [if_neg name.val_ne_empty, if_neg hl, if_pos (by rw [name.format]; rfl)]
  rw [newName, hv]
  exact dif_pos name.format

def checkShareAccess (db : Db) (namespaceId userId : ℕ) (permission : String) : Except ApiError Bool := do
  let share ← scalarOneOrNone
    (db.shares.select fun s => s.namespaceId = namespaceId ∧ s.userId = userId ∧ s.status = .accepted)
  pure (share.any fun s => permission ∈ s.permissions)

namespace Namespaces

def named (db : Db) (name : String) : List Namespace :=
  db.namespaces.select fun n => n.name.val = lower name ∧ n.deletedAt = none

def checkAccess (db : Db) (accountId userId : Option ℕ) (permission : Option String) (n : Namespace) :
    Except ApiError Namespace :=
  match accountId with
  | none => .ok n
  | some a =>
    if n.accountId = a then .ok n
    else
      match userId, permission with
      | some u, some p => do
        if ← checkShareAccess db n.id u p then pure n else .error accessDenied
      | _, _ => .error accessDenied

def getByName (db : Db) (name : String) (accountId userId : Option ℕ := none) (permission : Option String := none) :
    Except ApiError Namespace := do
  match ← scalarOneOrNone (named db name) with
  | none => .error (notFound ("Namespace '" ++ name ++ "' not found"))
  | some n => checkAccess db accountId userId permission n

def getById (db : Db) (id : ℕ) (accountId userId : Option ℕ := none) (permission : Option String := none) :
    Except ApiError Namespace :=
  match db.namespaces.get? id with
  | none => .error (notFound ("Namespace '" ++ toString id ++ "' not found"))
  | some n =>
    if n.deletedAt = none then checkAccess db accountId userId permission n
    else .error (notFound ("Namespace '" ++ toString id ++ "' not found"))

def reservedNamespaceNames : List String :=
  ["admin", "api", "app", "auth", "billing", "blog", "cdn", "console", "create", "dashboard", "dev", "docs", "ftp",
    "git", "grafana", "help", "internal", "login", "mail", "manage", "mcpworks", "monitor", "ns", "null", "ops",
    "portal", "prometheus", "proxy", "redis", "register", "root", "run", "sandbox", "smtp", "staging", "static",
    "status", "support", "system", "test", "undefined", "www"]

def recoveryPeriod : Time := 30 * 24 * 60 * 60 * 1000000

def checkNewName (strftime : Time → String) (db : Db) (name : String) : Except ApiError Unit :=
  if lower name ∈ reservedNamespaceNames then .error (valueError ("Namespace name '" ++ name ++ "' is reserved"))
  else do
    match ← scalarOneOrNone (db.namespaces.select (·.name.val = lower name)) with
    | none => .ok ()
    | some found =>
      match found.deletedAt with
      | some t =>
        .error (conflict ("Namespace '" ++ name ++ "' was deleted and is in a 30-day recovery period until " ++
          strftime (t + recoveryPeriod) ++ ". Contact support to restore or wait for the recovery period to expire."))
      | none => .error (conflict ("Namespace '" ++ name ++ "' already exists"))

def create (strftime : Time → String) (accountId : ℕ) (name : String) (description : Json) : DbSession Namespace := do
  fetch fun db => checkNewName strftime db name
  let stored ← fetch fun _ => newName .dns "Namespace" (lower name)
  let text ← fetch fun _ => textColumn description
  let i ← query (·.namespaces.freshId)
  write fun db =>
    { db with
      namespaces := db.namespaces.insert fun i => { id := i, accountId, name := stored, description := text } }
  pure { id := i, accountId, name := stored, description := text }

theorem create_maintains {I : Db → Prop} (hI : ∀ db namespaces, I db → I { db with namespaces })
    {fmt : Time → String} {aid : ℕ} {name : String} {desc : Json} :
    Maintains I (create fmt aid name desc) fun _ => True := by
  refine .fetch_bind fun _ _ _ _ => .fetch_bind fun _ _ _ _ => .fetch_bind fun _ _ _ _ => .query_bind fun _ _ => ?_
  exact .write_bind (fun db h => hI db _ h) (.pure trivial)

variable {db : Db} {name : String} {aid uid : Option ℕ} {pe : Option String} {n : Namespace}

theorem checkAccess_eq_self {m : Namespace} (h : checkAccess db aid uid pe n = .ok m) : m = n := by
  unfold checkAccess at h
  split at h
  · cases h; rfl
  split at h
  · cases h; rfl
  split at h
  · obtain ⟨b, -, hb⟩ := bind_eq_ok.mp h
    cases b <;> cases hb
    rfl
  · cases h

theorem getByName_eq_ok : getByName db name aid uid pe = .ok n ↔
    named db name = [n] ∧ checkAccess db aid uid pe n = .ok n := by
  unfold getByName
  rw [bind_eq_ok]
  constructor
  · rintro ⟨r, hq, h⟩
    cases r with
    | none => cases h
    | some m =>
      obtain rfl := checkAccess_eq_self h
      exact ⟨scalarOneOrNone_eq_some.mp hq, h⟩
  · rintro ⟨hn, ha⟩
    exact ⟨some n, scalarOneOrNone_eq_some.mpr hn, ha⟩

theorem mem_of_getByName (h : getByName db name aid uid pe = .ok n) : n ∈ db.namespaces.rows := by
  have hm : n ∈ named db name := by
    rw [(getByName_eq_ok.mp h).1]
    exact List.mem_singleton_self n
  exact (Table.mem_select.mp hm).1

end Namespaces

namespace ServiceService

def rowsAt (db : Db) (namespaceId : ℕ) (stored : String) : List NamespaceService :=
  db.services.select fun s => s.namespaceId = namespaceId ∧ s.name.val = stored

def getByName (db : Db) (namespaceId : ℕ) (name : String) : Except ApiError NamespaceService := do
  match ← scalarOneOrNone (rowsAt db namespaceId (lower name)) with
  | none => .error (notFound ("Service '" ++ name ++ "' not found in namespace"))
  | some s => .ok s

def checkNewName (db : Db) (namespaceId : ℕ) (name : String) : Except ApiError Unit := do
  match ← scalarOneOrNone (rowsAt db namespaceId (lower name)) with
  | none => .ok ()
  | some _ => .error (conflict ("Service '" ++ name ++ "' already exists in this namespace"))

def create (namespaceId : ℕ) (name : String) (description : Json) : DbSession NamespaceService := do
  fetch fun db => checkNewName db namespaceId name
  let stored ← fetch fun _ => newName .slug "Service" (lower name)
  let text ← fetch fun _ => textColumn description
  let i ← query (·.services.freshId)
  write fun db =>
    { db with
      services := db.services.insert fun i => { id := i, namespaceId, name := stored, description := text } }
  pure { id := i, namespaceId, name := stored, description := text }

end ServiceService

end McpworksApi.Services
