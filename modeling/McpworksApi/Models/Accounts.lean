import McpworksApi.Models.Errors
import McpworksApi.Store.Table

/-! Users, accounts, API keys and the audit log. Only the columns that a modelled function
reads or writes are kept. -/

namespace McpworksApi.Models

inductive UserTier
  | trial
  | pro
  | enterprise
  | dedicated
  | trialAgent
  | proAgent
  | enterpriseAgent
  | dedicatedAgent
  deriving DecidableEq, Repr

def tierValue : UserTier → String
  | .trial => "trial"
  | .pro => "pro"
  | .enterprise => "enterprise"
  | .dedicated => "dedicated"
  | .trialAgent => "trial-agent"
  | .proAgent => "pro-agent"
  | .enterpriseAgent => "enterprise-agent"
  | .dedicatedAgent => "dedicated-agent"

inductive UserStatus
  | active
  | pendingVerification
  | pendingApproval
  | rejected
  | suspended
  | deleted
  deriving DecidableEq, Repr

structure User where
  id : ℕ
  email : String
  name : Option String := none
  tier : UserTier := .trialAgent
  status : UserStatus := .active
  emailVerified : Bool := false
  verificationToken : Option String := none
  verificationPinExpiresAt : Option Time := none
  verificationAttempts : ℕ := 0
  verificationResendCount : ℕ := 0
  tierOverride : Option UserTier := none
  tierOverrideExpiresAt : Option Time := none
  deriving DecidableEq, Repr

instance : Row User := ⟨User.id⟩

def User.effectiveTier (u : User) (now : Time) : UserTier :=
  match u.tierOverride with
  | none => u.tier
  | some t =>
    match u.tierOverrideExpiresAt with
    | none => t
    | some e => if now < e then t else u.tier

structure Account where
  id : ℕ
  userId : ℕ
  name : Option String := none
  deriving DecidableEq, Repr

instance : Row Account := ⟨Account.id⟩

structure ApiKey where
  id : ℕ
  userId : ℕ
  keyHash : String
  keyPrefix : String
  name : Option String := none
  scopes : List String := ["read", "write", "execute"]
  lastUsedAt : Option Time := none
  expiresAt : Option Time := none
  revokedAt : Option Time := none
  namespaceId : Option ℕ := none
  deriving DecidableEq, Repr

instance : Row ApiKey := ⟨ApiKey.id⟩

namespace ApiKey

def isValid (k : ApiKey) (now : Time) : Bool :=
  k.revokedAt.isNone &&
    match k.expiresAt with
    | none => true
    | some e => decide (now < e)

def hasScope (k : ApiKey) (scope : String) : Bool := decide (scope ∈ k.scopes)

end ApiKey

inductive AuditAction
  | userRegistered
  | userLogin
  | authFailed
  deriving DecidableEq, Repr

structure AuditLog where
  userId : Option ℕ
  action : AuditAction
  resourceType : String
  resourceId : Option ℕ := none
  ipAddress : Option String := none
  userAgent : Option String := none
  eventData : List (String × String) := []
  deriving DecidableEq, Repr

end McpworksApi.Models
