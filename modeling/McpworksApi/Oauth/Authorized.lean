import McpworksApi.Oauth.Tokens

/-! When a stored access token can be used. A server is followed through the token responses that are stored for it,
and through the calls that need a header. -/

namespace McpworksApi.Oauth

open Models Py Session

structure Storage where
  time : Time
  response : OauthTokens
  /-- It answered a refresh. -/
  renewed : Bool

structure World where
  server : OauthColumns
  storages : List Storage := []

abbrev OauthSession := Session World ApiError

def World.exchanged (now : Time) (response : OauthTokens) (w : World) : World where
  server := encryptAndStoreTokens now response none w.server
  storages := ⟨now, response, false⟩ :: w.storages

def World.refreshed (now : Time) (old : OauthTokens) (answer : RefreshAnswer) (w : World) : World where
  server := applyAnswer now old answer w.server
  storages :=
    match answer with
    | .tokens response => ⟨now, response, true⟩ :: w.storages
    | .invalidGrant => []
    | .failed => w.storages

def exchangeCode (name : String) (now : Time) (response : Option OauthTokens) : OauthSession Bool := do
  let _ ← fetch fun w => decryptOauthConfig name w.server
  match response with
  | none => pure false
  | some tokens =>
    write (World.exchanged now tokens)
    pure true

structure HeaderCall where
  now : Time
  lockFree : Bool
  answeredAt : Time
  answer : RefreshAnswer

def refreshTokenIfNeeded (name : String) (c : HeaderCall) : OauthSession (Option String) := do
  let server ← query World.server
  match server.tokens with
  | none => pure none
  | some tokens =>
    if isFresh c.now server then pure (some (bearer tokens))
    else if c.lockFree = false then
      -- the row is read again when the lock is gone or six waits are over
      let again ← query World.server
      pure (again.tokens.map bearer)
    else if hasRefreshToken tokens then do
      let _ ← fetch fun w => decryptOauthConfig name w.server
      write (World.refreshed c.answeredAt tokens c.answer)
      pure (answerHeader c.answer)
    else pure none

def getOauthHeaders (name : String) (c : HeaderCall) : OauthSession (Option String) := do
  let server ← query World.server
  if server.authType ≠ .oauth2 then pure none
  else
    match getOauthStatus c.now server with
    | .notConfigured | .pendingAuthorization => pure none
    | .expired | .authorized => refreshTokenIfNeeded name c

inductive Credentials
  | header (value : String)
  | deviceFlow
  | authCodeFlow
  deriving DecidableEq, Repr

def resolveCredentials (name : String) (c : HeaderCall) : OauthSession Credentials := do
  let server ← query World.server
  match getOauthStatus c.now server with
  | .authorized =>
    let value ← getOauthHeaders name c
    pure (value.elim .deviceFlow .header)
  | .notConfigured | .pendingAuthorization | .expired =>
    pure (if (server.config.elim "device" OauthConfig.flow) = "device" then .deviceFlow else .authCodeFlow)

inductive Call
  | exchangeCode (now : Time) (response : Option OauthTokens)
  | proxy (c : HeaderCall)

def Call.perform (name : String) : Call → World → World
  | .exchangeCode now response, w => (Oauth.exchangeCode name now response w).2
  | .proxy c, w => (resolveCredentials name c w).2

def runCalls (name : String) (calls : List Call) (w : World) : World := calls.foldl (fun w c => c.perform name w) w

def lastExpiry : List Storage → Option Time
  | [] => none
  | s :: earlier => (s.response.expiresIn.map (s.time + · * Redis.second)).or (lastExpiry earlier)

def keptRefreshToken : List Storage → Option String
  | [] => none
  | s :: earlier => if s.renewed then s.response.refreshToken.or (keptRefreshToken earlier) else
      s.response.refreshToken

/-- The stored tokens are those of the last response, with the refresh token that is kept, and the column has the expiry
of the last response that named one. -/
structure World.Recorded (w : World) : Prop where
  authType : w.server.authType = .oauth2
  config : w.server.config.isSome
  expiry : w.server.tokensExpiresAt = lastExpiry w.storages
  tokens : w.server.tokens = w.storages.head?.map fun s =>
    { s.response with refreshToken := keptRefreshToken w.storages }

section Recorded

variable {name : String} {w : World}

theorem World.Recorded.exchanged (h : w.Recorded) (now : Time) (resp : OauthTokens) :
    (w.exchanged now resp).Recorded where
  authType := by simpa [World.exchanged] using h.authType
  config := by simpa [World.exchanged] using h.config
  expiry := by simp [World.exchanged, lastExpiry, h.expiry]
  tokens := by simp [World.exchanged, keptRefreshToken]

theorem World.Recorded.refreshed (h : w.Recorded) {old : OauthTokens} (ho : w.server.tokens = some old) (now : Time)
    (ans : RefreshAnswer) : (w.refreshed now old ans).Recorded := by
  have hk : old.refreshToken = keptRefreshToken w.storages := by
    have ht := h.tokens
    rw [ho] at ht
    obtain ⟨s, -, hs⟩ := Option.map_eq_some_iff.mp ht.symm
    rw [← hs]
  cases ans with
  | tokens new =>
    refine ⟨?_, ?_, ?_, ?_⟩
    · simpa [World.refreshed, applyAnswer] using h.authType
    · simpa [World.refreshed, applyAnswer] using h.config
    · simp [World.refreshed, applyAnswer, renewedTokens, lastExpiry, h.expiry]
    · simp [World.refreshed, applyAnswer, renewedTokens, keptRefreshToken, hk]
  | invalidGrant => exact ⟨h.authType, h.config, rfl, rfl⟩
  | failed => exact h

theorem refreshTokenIfNeeded_apply (h : w.Recorded) (c : HeaderCall) {ts : OauthTokens}
    (ht : w.server.tokens = some ts) :
    refreshTokenIfNeeded name c w =
      if isFresh c.now w.server = true ∨ c.lockFree = false then (.ok (some (bearer ts)), w)
      else if hasRefreshToken ts then (.ok (answerHeader c.answer), w.refreshed c.answeredAt ts c.answer)
      else (.ok none, w) := by
  obtain ⟨config, hc⟩ := Option.isSome_iff_exists.mp h.config
  have hd : decryptOauthConfig name w.server = .ok config := by rw [decryptOauthConfig, hc]
  unfold refreshTokenIfNeeded
  rw [query_bind_apply, ht]
  dsimp only
  by_cases hf : isFresh c.now w.server = true
  · rw [if_pos hf, if_pos (.inl hf)]
    rfl
  · rw [if_neg hf]
    by_cases hl : c.lockFree = false
    · rw [if_pos hl, if_pos (.inr hl), query_bind_apply, ht]
      rfl
    · rw [if_neg hl, if_neg (not_or.mpr ⟨hf, hl⟩)]
      split
      · rw [fetch_bind_of_ok (s := w) hd]
        rfl
      · rfl

theorem getOauthStatus_eq (h : w.Recorded) (now : Time) {ts : OauthTokens} (ht : w.server.tokens = some ts) :
    getOauthStatus now w.server =
      if w.server.tokensExpiresAt.any (· < now) = true ∧
        hasRefreshToken ts = false then .expired else .authorized := by
  have hc : w.server.config.isNone = false := by simpa using h.config
  cases he : w.server.tokensExpiresAt.any (· < now) <;> cases hr : hasRefreshToken ts <;>
    simp [getOauthStatus, h.authType, hc, ht, he, hr]

theorem getOauthStatus_pending (h : w.Recorded) (now : Time) (ht : w.server.tokens = none) :
    getOauthStatus now w.server = .pendingAuthorization := by
  have hc : w.server.config.isNone = false := by simpa using h.config
  simp [getOauthStatus, h.authType, hc, ht]

theorem getOauthHeaders_apply (h : w.Recorded) (c : HeaderCall) {ts : OauthTokens}
    (ht : w.server.tokens = some ts) : getOauthHeaders name c w = refreshTokenIfNeeded name c w := by
  unfold getOauthHeaders
  rw [query_bind_apply, if_neg (not_not.mpr h.authType), getOauthStatus_eq h c.now ht]
  split <;> rfl

theorem resolveCredentials_of_authorized (c : HeaderCall) (h : getOauthStatus c.now w.server = .authorized) :
    resolveCredentials name c w =
      (getOauthHeaders name c >>= fun value => pure (value.elim .deviceFlow .header)) w := by
  unfold resolveCredentials
  rw [query_bind_apply, h]

theorem resolveCredentials_state (c : HeaderCall) (h : getOauthStatus c.now w.server ≠ .authorized) :
    (resolveCredentials name c w).2 = w := by
  unfold resolveCredentials
  rw [query_bind_apply]
  cases hs : getOauthStatus c.now w.server with
  | authorized => exact absurd hs h
  | notConfigured => rfl
  | pendingAuthorization => rfl
  | expired => rfl

theorem World.Recorded.proxy (h : w.Recorded) (c : HeaderCall) : (resolveCredentials name c w).2.Recorded := by
  by_cases hs : getOauthStatus c.now w.server = .authorized
  · cases ht : w.server.tokens with
    | none =>
      rw [getOauthStatus_pending h c.now ht] at hs
      cases hs
    | some tokens =>
      rw [resolveCredentials_of_authorized c hs, bind_pure_snd, getOauthHeaders_apply h c ht,
        refreshTokenIfNeeded_apply h c ht]
      split_ifs
      · exact h
      · exact h.refreshed ht _ _
      · exact h
  · rw [resolveCredentials_state c hs]
    exact h

theorem World.Recorded.exchange (h : w.Recorded) (now : Time) (resp : Option OauthTokens) :
    (exchangeCode name now resp w).2.Recorded := by
  obtain ⟨config, hc⟩ := Option.isSome_iff_exists.mp h.config
  have hd : decryptOauthConfig name w.server = .ok config := by rw [decryptOauthConfig, hc]
  unfold exchangeCode
  rw [fetch_bind_of_ok (s := w) hd]
  cases resp with
  | none => exact h
  | some tokens => exact h.exchanged now tokens

theorem World.Recorded.run (h : w.Recorded) (name : String) (cs : List Call) : (runCalls name cs w).Recorded := by
  induction cs generalizing w with
  | nil => exact h
  | cons call cs ih =>
    cases call with
    | exchangeCode now resp => exact ih (h.exchange now resp)
    | proxy c => exact ih (h.proxy c)

end Recorded

structure Registered (server : OauthColumns) : Prop where
  authType : server.authType = .oauth2
  config : server.config.isSome
  tokens : server.tokens = none
  expiry : server.tokensExpiresAt = none

theorem Registered.recorded {server : OauthColumns} (h : Registered server) : World.Recorded { server } where
  authType := h.authType
  config := h.config
  expiry := h.expiry
  tokens := h.tokens

def Storage.Unexpired (now : Time) (s : Storage) : Prop :=
  ∀ n, s.response.expiresIn = some n → now < s.time + n * Redis.second

/-- The status is `authorized` and the call gets a header with the token that was delivered last or a newer one,
without a flow for the user. -/
structure Usable (name : String) (c : HeaderCall) (w : World) (s : Storage) : Prop where
  status : getOauthStatus c.now w.server = .authorized
  header : ∃ tokens, (tokens.accessToken = s.response.accessToken ∨ c.answer = .tokens tokens) ∧
    (getOauthHeaders name c w).1 = .ok (some (bearer tokens))
  proxied : ∃ value, (resolveCredentials name c w).1 = .ok (.header value)

/-- A refresh token is kept; or the last response that named a lifetime expires after the buffer; or somebody else
holds the lock and that response has not expired. -/
def Covered (c : HeaderCall) (storages : List Storage) : Prop :=
  given (keptRefreshToken storages) = true ∨ (∃ t, lastExpiry storages = some t ∧ c.now + refreshBuffer < t) ∨
    (c.lockFree = false ∧ ∀ t, lastExpiry storages = some t → c.now ≤ t)

section Usable

variable {name : String} {w : World} {s : Storage} {ear : List Storage}

theorem isFresh_iff {now : Time} {sr : OauthColumns} :
    isFresh now sr = true ↔ ∃ t, sr.tokensExpiresAt = some t ∧ now + refreshBuffer < t := by
  simp [isFresh, Option.any_eq_true]

theorem authorized_iff (h : w.Recorded) (now : Time) {ts : OauthTokens} (ht : w.server.tokens = some ts) :
    getOauthStatus now w.server = .authorized ↔
      hasRefreshToken ts = true ∨ ∀ t, w.server.tokensExpiresAt = some t → now ≤ t := by
  rw [getOauthStatus_eq h now ht]
  cases hasRefreshToken ts <;> cases w.server.tokensExpiresAt <;> simp

theorem header_iff (h : w.Recorded) (c : HeaderCall) {resp ts : OauthTokens} (ha : c.answer = .tokens resp)
    (ht : w.server.tokens = some ts) :
    (∃ t, (t.accessToken = ts.accessToken ∨ c.answer = .tokens t) ∧
      (getOauthHeaders name c w).1 = .ok (some (bearer t))) ↔
      (isFresh c.now w.server = true ∨ c.lockFree = false) ∨ hasRefreshToken ts = true := by
  rw [getOauthHeaders_apply h c ht, refreshTokenIfNeeded_apply h c ht]
  split_ifs with hk hr
  · exact ⟨fun _ => .inl hk, fun _ => ⟨ts, .inl rfl, rfl⟩⟩
  · exact ⟨fun _ => .inr hr, fun _ => ⟨resp, .inr ha, by rw [ha]; rfl⟩⟩
  · constructor
    · rintro ⟨t, -, hn⟩
      cases hn
    · rintro (hk' | hr')
      · exact absurd hk' hk
      · exact absurd hr' hr

theorem usable_iff_covered (h : w.Recorded) (c : HeaderCall) {resp : OauthTokens}
    (han : c.answer = .tokens resp) (hw : w.storages = s :: ear) :
    Usable name c w s ↔ Covered c w.storages := by
  have hto := h.tokens
  rw [hw, List.head?_cons, Option.map_some, ← hw] at hto
  have hs := authorized_iff h c.now hto
  have hh : (∃ t, _ ∧ (getOauthHeaders name c w).1 = _) ↔ _ := header_iff h c han hto
  rw [isFresh_iff] at hh
  rw [h.expiry] at hs hh
  constructor
  · intro hu
    rcases hh.mp hu.header with (⟨t, ht, hl⟩ | hlo) | hr
    · exact .inr (.inl ⟨t, ht, hl⟩)
    · rcases hs.mp hu.status with hr | hc
      · exact .inl hr
      · exact .inr (.inr ⟨hlo, hc⟩)
    · exact .inl hr
  · intro hco
    have ha : getOauthStatus c.now w.server = .authorized := by
      rw [hs]
      rcases hco with hr | ⟨t, ht, hl⟩ | ⟨-, hc⟩
      · exact .inl hr
      · refine .inr fun t' ht' => ?_
        obtain rfl : t = t' := Option.some.inj (ht.symm.trans ht')
        exact (Nat.le_add_right _ _).trans hl.le
      · exact .inr hc
    have hf : ∃ tokens : OauthTokens, (tokens.accessToken = s.response.accessToken ∨ c.answer = .tokens tokens) ∧
        (getOauthHeaders name c w).1 = .ok (some (bearer tokens)) := by
      refine hh.mpr ?_
      rcases hco with hr | hl | ⟨hlo, -⟩
      · exact .inr hr
      · exact .inl (.inl hl)
      · exact .inl (.inr hlo)
    refine ⟨ha, hf, ?_⟩
    obtain ⟨tokens, -, hv⟩ := hf
    refine ⟨bearer tokens, ?_⟩
    rw [resolveCredentials_of_authorized c ha, bind_of_ok (apply_of_ok hv)]
    rfl

end Usable

/-- An unexpired token is usable exactly when it is covered. -/
theorem authorized_usable_iff (name : String) {server : OauthColumns} (hserver : Registered server)
    (calls : List Call)
    (c : HeaderCall) {response : OauthTokens} (hanswer : c.answer = .tokens response) {s : Storage}
    {earlier : List Storage} (hstored : (runCalls name calls { server }).storages = s :: earlier) :
    (s.Unexpired c.now → Usable name c (runCalls name calls { server }) s) ↔
      (s.Unexpired c.now → Covered c (s :: earlier)) := by
  have hr := hserver.recorded.run name calls
  rw [← hstored]
  exact imp_congr_right fun _ => usable_iff_covered hr c hanswer hstored

def calendarServer : OauthColumns := { authType := .oauth2, config := some {} }

def calendarCall : HeaderCall :=
  { now := 10 * Redis.second, lockFree := true, answeredAt := 11 * Redis.second,
    answer := .tokens { accessToken := "new" } }

/-- The token never expires by its response, and yet the user is asked for access again with the next call. -/
theorem unlimited_token_unused :
    let w := runCalls "calendar" [.exchangeCode 0 (some { accessToken := "unlimited" })] { server := calendarServer }
    let s : Storage := ⟨0, { accessToken := "unlimited" }, false⟩
    w.storages = [s] ∧ s.Unexpired calendarCall.now ∧
      (resolveCredentials "calendar" calendarCall w).1 = .ok .deviceFlow ∧ ¬ Usable "calendar" calendarCall w s := by
  refine ⟨rfl, ?_, rfl, ?_⟩
  · intro n hn
    cases hn
  · intro hu
    obtain ⟨value, hv⟩ := hu.proxied
    cases hv

theorem renewable_token_used : Usable "calendar" calendarCall
      (runCalls "calendar" [.exchangeCode 0 (some { accessToken := "a", refreshToken := some "r" })]
        { server := calendarServer })
      ⟨0, { accessToken := "a", refreshToken := some "r" }, false⟩ := by
  refine (authorized_usable_iff "calendar" ⟨rfl, rfl, rfl, rfl⟩ _ calendarCall rfl rfl).mpr
    (fun _ => .inl (by decide)) ?_
  intro n hn
  cases hn

end McpworksApi.Oauth
