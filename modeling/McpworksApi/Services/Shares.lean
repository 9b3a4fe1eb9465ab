import McpworksApi.Services.Namespaces
import McpworksApi.Session.Trace

/-! `NamespaceShareService`: the owner of a namespace invites a user, who accepts or declines, and the
owner revokes. There is one row for a namespace and a user: an invitation after a refusal or
a revocation reuses it. -/

namespace McpworksApi.Services.Shares

open Models Py Session

def forbidden (message : String) : ApiError := .app .forbidden message

def validationError (message : String) : ApiError := .app .validation message

def statusValue : ShareStatus → String
  | .pending => "pending"
  | .accepted => "accepted"
  | .declined => "declined"
  | .revoked => "revoked"

def validPermissions : List String := ["read", "execute"]

def rowsOf (db : Db) (namespaceId userId : ℕ) : List NamespaceShare :=
  db.shares.select fun s => s.namespaceId = namespaceId ∧ s.userId = userId

def checkAccess (db : Db) (namespaceId userId : ℕ) (permission : String) :
    Except ApiError (Option NamespaceShare) := do
  let share ← scalarOneOrNone
    (db.shares.select fun s => s.namespaceId = namespaceId ∧ s.userId = userId ∧ s.status = .accepted)
  pure (share.filter fun s => permission ∈ s.permissions)

def ownedBy (db : Db) (n : Namespace) (userId : ℕ) : Bool := (db.accounts.get? n.accountId).any (·.userId = userId)

def inviteTarget (db : Db) (namespaceId : ℕ) (inviteeEmail : String) (permissions : List String)
    (grantedByUserId : ℕ) : Except ApiError (User × Option NamespaceShare) := do
  let invalid := permissions.filter (· ∉ validPermissions)
  if invalid ≠ [] then .error (validationError ("Invalid permissions: " ++ ", ".intercalate invalid.dedup))
  else if permissions = [] then .error (validationError "At least one permission required")
  else
    match db.namespaces.get? namespaceId, db.users.get? grantedByUserId with
    | none, _ => .error (notFound "Namespace not found")
    | some _, none => .error (notFound "Owner user not found")
    | some n, some _ =>
      if ownedBy db n grantedByUserId then
        match ← scalarOneOrNone (db.users.select (·.email = lower inviteeEmail)) with
        | none => .error (notFound ("No user found with email '" ++ inviteeEmail ++ "'"))
        | some invitee =>
          if invitee.id = grantedByUserId then .error (validationError "Cannot share a namespace with yourself")
          else
            match ← scalarOneOrNone (rowsOf db namespaceId invitee.id) with
            | none => .ok (invitee, none)
            | some existing =>
              if existing.status = .pending ∨ existing.status = .accepted then
                .error (conflict "This user already has a pending or active share")
              else .ok (invitee, some existing)
      else .error (forbidden "Only the namespace owner can share it")

def newShare (namespaceId userId : ℕ) (permissions : List String) (grantedByUserId i : ℕ) : NamespaceShare :=
  { id := i, namespaceId, userId, grantedByUserId := some grantedByUserId,
    permissions, status := .pending }

def reinvited (permissions : List String) (grantedByUserId : ℕ) (s : NamespaceShare) : NamespaceShare :=
  { s with
    status := .pending
    permissions
    grantedByUserId := some grantedByUserId
    acceptedAt := none
    revokedAt := none }

theorem reinvited_id (perms : List String) (g : ℕ) (s : NamespaceShare) : (reinvited perms g s).id = s.id := rfl

def change (share : NamespaceShare) (f : NamespaceShare → NamespaceShare)
    (hf : ∀ s, (f s).id = s.id) : DbSession NamespaceShare := do
  write fun db => { db with shares := db.shares.update share.id f hf }
  pure (f share)

def createInvite (namespaceId : ℕ) (inviteeEmail : String) (permissions : List String) (grantedByUserId : ℕ) :
    DbSession NamespaceShare := do
  match ← fetch fun db => inviteTarget db namespaceId inviteeEmail permissions grantedByUserId with
  | (_, some existing) => change existing (reinvited permissions grantedByUserId) (reinvited_id _ _)
  | (invitee, none) =>
    let i ← query (·.shares.freshId)
    write fun db =>
      { db with shares := db.shares.insert (newShare namespaceId invitee.id permissions grantedByUserId) }
    pure (newShare namespaceId invitee.id permissions grantedByUserId i)

def getShare (db : Db) (shareId : ℕ) : Except ApiError NamespaceShare :=
  match db.shares.get? shareId with
  | none => .error (notFound "Share not found")
  | some s => .ok s

def accepted (now : Time) (s : NamespaceShare) : NamespaceShare :=
    { s with status := .accepted, acceptedAt := some now }

def declined (s : NamespaceShare) : NamespaceShare := { s with status := .declined }

def revoked (now : Time) (s : NamespaceShare) : NamespaceShare := { s with status := .revoked, revokedAt := some now }

theorem accepted_id (now : Time) (s : NamespaceShare) : (accepted now s).id = s.id := rfl

theorem declined_id (s : NamespaceShare) : (declined s).id = s.id := rfl

theorem revoked_id (now : Time) (s : NamespaceShare) : (revoked now s).id = s.id := rfl

def respond (verb : String) (f : NamespaceShare → NamespaceShare) (hf : ∀ s, (f s).id = s.id) (shareId userId : ℕ) :
    DbSession NamespaceShare := do
  let share ← fetch fun db => getShare db shareId
  if share.userId ≠ userId then raise (forbidden ("You can only " ++ verb ++ " invitations sent to you"))
  else if share.status ≠ .pending then
    raise (validationError ("Cannot " ++ verb ++ " a share with status '" ++ statusValue share.status ++ "'"))
  else change share f hf

def accept (now : Time) (shareId userId : ℕ) : DbSession NamespaceShare :=
  respond "accept" (accepted now) (accepted_id now) shareId userId

def decline (shareId userId : ℕ) : DbSession NamespaceShare :=
  respond "decline" declined declined_id shareId userId

def revoke (now : Time) (shareId ownerUserId : ℕ) : DbSession NamespaceShare := do
  let share ← fetch fun db => getShare db shareId
  match ← query fun db => db.namespaces.get? share.namespaceId with
  | none => raise (notFound "Namespace not found")
  | some n =>
    if ← query fun db => ownedBy db n ownerUserId then
      change share (revoked now) (revoked_id now)
    else raise (forbidden "Only the namespace owner can revoke shares")

end McpworksApi.Services.Shares
