import McpworksApi.Models.Errors
import McpworksApi.Py.Json
import McpworksApi.Store.Table

/-! The MCP servers and REST APIs that a namespace has registered. Of the columns those are kept that
decide which tools and credentials an execution gets and how often a server is called. -/

namespace McpworksApi.Models

inductive McpAuthType
  | bearer
  | oauth2
  | none
  deriving DecidableEq, Repr

structure OauthConfig where
  flow : String := "device"
  deriving DecidableEq, Repr

structure OauthTokens where
  accessToken : String
  refreshToken : Option String := none
  expiresIn : Option ℕ := none
  deriving DecidableEq, Repr

structure OauthColumns where
  authType : McpAuthType := .bearer
  config : Option OauthConfig := none
  tokens : Option OauthTokens := none
  tokensExpiresAt : Option Time := none
  deriving DecidableEq, Repr

/-- A tool of a remote server, as `_discover_tools` stores it in `tool_schemas`. -/
structure ToolSchema where
  name : String
  inputSchema : Py.Json := .obj []

structure NamespaceMcpServer where
  id : ℕ
  namespaceId : ℕ
  name : String
  responseLimitBytes : ℤ := 1048576
  timeoutSeconds : ℤ := 30
  maxCallsPerExecution : ℤ := 50
  retryOnFailure : Bool := true
  retryCount : ℤ := 2
  toolTrustOverrides : Py.Json := .obj []
  requestRules : List Py.Args := []
  responseRules : List Py.Args := []
  enabled : Bool := true
  toolSchemas : List ToolSchema := []
  toolCount : ℕ := 0
  oauth : OauthColumns := {}

instance : Row NamespaceMcpServer := ⟨NamespaceMcpServer.id⟩

inductive CredentialSource
  | stored
  | passthrough
  deriving DecidableEq, Repr

structure Injection where
  name : String
  source : CredentialSource
  envVar : Option String := none
  deriving DecidableEq, Repr

inductive SpecSource
  | openapiUrl
  | openapiFile
  | manual
  deriving DecidableEq, Repr

structure NamespaceApiServer where
  id : ℕ
  namespaceId : ℕ
  name : String
  baseUrl : String := ""
  specSource : SpecSource := .manual
  openapiUrl : Option String := none
  auth : List Injection := []
  responseLimitBytes : ℤ := 1048576
  timeoutSeconds : ℤ := 30
  maxCallsPerExecution : ℤ := 50
  retryOnFailure : Bool := true
  retryCount : ℤ := 2
  enabled : Bool := true
  endpointCount : ℕ := 0
  lastRefreshedAt : Option Time := none
  deriving DecidableEq, Repr

instance : Row NamespaceApiServer := ⟨NamespaceApiServer.id⟩

inductive HttpMethod
  | get
  | post
  | put
  | patch
  | delete
  | head
  | options
  deriving DecidableEq, Repr

inductive EndpointSource
  | imported
  | manual
  deriving DecidableEq, Repr

structure ApiEndpoint where
  id : ℕ
  apiServerId : ℕ
  operationId : String
  method : HttpMethod := .get
  path : String := "/"
  summary : Option String := none
  paramSchema : Py.Json := .obj []
  requestBodySchema : Option Py.Json := none
  responseSchema : Option Py.Json := none
  enabled : Bool := false
  published : Bool := false
  source : EndpointSource := .imported

instance : Row ApiEndpoint := ⟨ApiEndpoint.id⟩

end McpworksApi.Models
