import McpworksApi.Models.Servers
import McpworksApi.Py.Str
import McpworksApi.Session.Basic
import McpworksApi.Store.Redis

/-! OAuth tokens of MCP servers, `services/mcp_oauth.py`: how token responses are stored, what the status of a server is,
and how the header for a call is found, from the stored tokens or by refreshing them. -/

namespace McpworksApi.Oauth

open Models Py

def refreshBuffer : Time := 300 * Redis.second

def decryptOauthConfig (name : String) (server : OauthColumns) : Except ApiError OauthConfig :=
  match server.config with
  | none => .error (.py .valueError ("No OAuth config for server '" ++ name ++ "'"))
  | some config => .ok config

def encryptAndStoreTokens (now : Time) (tokens : OauthTokens) (expiresIn : Option ℕ) (server : OauthColumns) :
    OauthColumns :=
  let server := { server with tokens := some tokens }
  match expiresIn.filter (· ≠ 0), tokens.expiresIn with
  | some n, _ | none, some n => { server with tokensExpiresAt := some (now + n * Redis.second) }
  | none, none => server

section Stored

variable (now : Time) (tokens : OauthTokens) (ei : Option ℕ) (sr : OauthColumns)

@[simp] theorem encryptAndStoreTokens_tokens : (encryptAndStoreTokens now tokens ei sr).tokens = some tokens := by
  unfold encryptAndStoreTokens
  split <;> rfl

@[simp] theorem encryptAndStoreTokens_authType :
    (encryptAndStoreTokens now tokens ei sr).authType = sr.authType := by
  unfold encryptAndStoreTokens
  split <;> rfl

@[simp] theorem encryptAndStoreTokens_config :
    (encryptAndStoreTokens now tokens ei sr).config = sr.config := by
  unfold encryptAndStoreTokens
  split <;> rfl

@[simp] theorem encryptAndStoreTokens_expiresAt : (encryptAndStoreTokens now tokens none sr).tokensExpiresAt =
    (tokens.expiresIn.map (now + · * Redis.second)).or sr.tokensExpiresAt := by
  unfold encryptAndStoreTokens
  cases tokens.expiresIn <;> rfl

end Stored

def clearTokens (server : OauthColumns) : OauthColumns := { server with tokens := none, tokensExpiresAt := none }

def hasRefreshToken (tokens : OauthTokens) : Bool := given tokens.refreshToken

inductive OauthStatus
  | notConfigured
  | pendingAuthorization
  | expired
  | authorized
  deriving DecidableEq, Repr

def getOauthStatus (now : Time) (server : OauthColumns) : OauthStatus :=
  if server.authType ≠ .oauth2 then .notConfigured
  else if server.config.isNone then .notConfigured
  else
    match server.tokens with
    | none => .pendingAuthorization
    | some tokens =>
      if server.tokensExpiresAt.any (· < now) then if hasRefreshToken tokens then .authorized else .expired
      else .authorized

def bearer (tokens : OauthTokens) : String := "Bearer " ++ tokens.accessToken

def isFresh (now : Time) (server : OauthColumns) : Bool := server.tokensExpiresAt.any (now + refreshBuffer < ·)

inductive RefreshAnswer
  | tokens (t : OauthTokens)
  | invalidGrant
  | failed
  deriving DecidableEq, Repr

def renewedTokens (old new : OauthTokens) : OauthTokens :=
  { new with refreshToken := new.refreshToken.or old.refreshToken }

def applyAnswer (now : Time) (old : OauthTokens) (answer : RefreshAnswer) (server : OauthColumns) : OauthColumns :=
  match answer with
  | .tokens new => encryptAndStoreTokens now (renewedTokens old new) none server
  | .invalidGrant => clearTokens server
  | .failed => server

def answerHeader : RefreshAnswer → Option String
  | .tokens new => some (bearer new)
  | .invalidGrant | .failed => none

end McpworksApi.Oauth
