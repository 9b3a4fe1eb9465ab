import McpworksApi.Models.Errors
import McpworksApi.Models.Names
import McpworksApi.Py.Json
import McpworksApi.Store.Table

/-! Namespaces with their shares, services, functions and function versions. -/

namespace McpworksApi.Models

inductive ScannerType
  | builtin
  | webhook
  | python
  | unknown
  deriving DecidableEq, Repr

inductive ScanDirection
  | input
  | output
  | both
  deriving DecidableEq, Repr

structure ScannerConfig where
  url : String := ""
  timeoutMs : ℤ := 5000
  headers : List (String × String) := []
  module : String := ""
  function : String := "scan"
  initKwargs : List (String × String) := []
  deriving DecidableEq, Repr

structure ScannerEntry where
  id : String
  type : ScannerType
  name : String
  direction : ScanDirection := .output
  order : ℤ := 999
  enabled : Bool := true
  config : ScannerConfig := {}
  deriving DecidableEq, Repr

structure ScannerPipeline where
  failClosed : Bool := false
  scanners : List ScannerEntry := []
  deriving DecidableEq, Repr

structure Namespace where
  id : ℕ
  accountId : ℕ
  name : Name .dns
  description : Option String := none
  networkAllowlist : Option (List String) := none
  allowlistUpdatedAt : Option Time := none
  allowlistChangesToday : ℕ := 0
  scannerPipeline : Option ScannerPipeline := none
  telemetryWebhookUrl : Option String := none
  telemetryConfig : Option String := none
  callCount : ℕ := 0
  discoverable : Bool := false
  deletedAt : Option Time := none
  deriving DecidableEq

instance : Row Namespace := ⟨Namespace.id⟩

inductive ShareStatus
  | pending
  | accepted
  | declined
  | revoked
  deriving DecidableEq, Repr

structure NamespaceShare where
  id : ℕ
  namespaceId : ℕ
  userId : ℕ
  grantedByUserId : Option ℕ := none
  permissions : List String := ["read", "execute"]
  status : ShareStatus := .pending
  acceptedAt : Option Time := none
  revokedAt : Option Time := none
  deriving DecidableEq, Repr

instance : Row NamespaceShare := ⟨NamespaceShare.id⟩

structure NamespaceService where
  id : ℕ
  namespaceId : ℕ
  name : Name .slug
  description : Option String := none
  callCount : ℕ := 0
  deriving DecidableEq

instance : Row NamespaceService := ⟨NamespaceService.id⟩

structure CachePolicy where
  enabled : Bool := false
  ttlSeconds : ℤ := 300
  deriving DecidableEq, Repr

structure Function where
  id : ℕ
  serviceId : ℕ
  name : Name .slug
  description : Option String := none
  tags : Option (List String) := none
  outputTrust : String := "prompt"
  activeVersion : ℕ := 1
  callCount : ℕ := 0
  locked : Bool := false
  lockedBy : Option ℕ := none
  lockedAt : Option Time := none
  publicSafe : Bool := false
  cachePolicy : Option CachePolicy := none
  deletedAt : Option Time := none
  deriving DecidableEq

instance : Row Function := ⟨Function.id⟩

inductive Backend
  | codeSandbox
  | nanobot
  | githubRepo
  deriving DecidableEq, Repr

inductive Language
  | python
  | typescript
  deriving DecidableEq, Repr

structure FunctionVersion where
  id : ℕ
  functionId : ℕ
  version : ℕ := 1
  backend : Backend := .codeSandbox
  language : Language := .python
  code : Option String := none
  config : Option Py.Json := none
  inputSchema : Option Py.Json := none
  outputSchema : Option Py.Json := none
  requirements : Option (List String) := none
  requiredEnv : Option (List String) := none
  optionalEnv : Option (List String) := none
  createdBy : Option String := none

instance : Row FunctionVersion := ⟨FunctionVersion.id⟩

end McpworksApi.Models
