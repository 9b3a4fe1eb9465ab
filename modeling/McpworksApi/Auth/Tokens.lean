import McpworksApi.Auth.Keys

/-! JWT access and refresh tokens. A token is the payload that was signed: signing is taken to be perfect, so the
tokens that verify are the ones `create_access_token` and `create_refresh_token` made, and `decode_token` only checks
the registered claims, as PyJWT does. -/

namespace McpworksApi.Auth

open Models Session

structure JwtSettings where
  issuer : String
  audience : String
  accessTokenExpireMinutes : ℕ := 60
  refreshTokenExpireDays : ℕ := 7

inductive TokenType
  | access
  | refresh
  deriving DecidableEq, Repr

structure Token where
  sub : ℕ
  iat : ℕ
  exp : ℕ
  iss : String
  aud : String
  type : TokenType
  scopes : Option (List String) := none
  tier : Option UserTier := none
  email : Option String := none
  jti : Option String := none
  deriving DecidableEq, Repr

def Token.scopeList (t : Token) : List String := t.scopes.getD []

def second : ℕ := 1000000

def defaultScopes : List String := ["read", "write", "execute"]

def createAccessToken (cfg : JwtSettings) (now : Time) (user : User) (scopes : List String) : Token where
  sub := user.id
  iat := now / second
  exp := (now + cfg.accessTokenExpireMinutes * 60 * second) / second
  iss := cfg.issuer
  aud := cfg.audience
  type := .access
  scopes := if scopes = [] then none else some scopes
  tier := some user.tier
  email := some user.email

def createRefreshToken (cfg : JwtSettings) (now : Time) (userId : ℕ) (jti : String) : Token where
  sub := userId
  iat := now / second
  exp := (now + cfg.refreshTokenExpireDays * 86400 * second) / second
  iss := cfg.issuer
  aud := cfg.audience
  type := .refresh
  jti := some jti

@[simp] theorem createRefreshToken_sub (cfg : JwtSettings) (now : Time) (userId : ℕ) (jti : String) :
    (createRefreshToken cfg now userId jti).sub = userId := rfl

def decodeToken (cfg : JwtSettings) (now : Time) (t : Token) : Except ApiError Token :=
  if now < t.iat * second then .error (.app .invalidToken "The token is not yet valid (iat)")
  else if t.exp * second ≤ now then .error AppError.tokenExpired.raised
  else if t.iss ≠ cfg.issuer then .error (.app .invalidToken "Invalid issuer")
  else if t.aud ≠ cfg.audience then .error (.app .invalidToken "Audience doesn't match")
  else .ok t

def verifyRefreshToken (cfg : JwtSettings) (now : Time) (t : Token) : Except ApiError Token := do
  let payload ← decodeToken cfg now t
  if payload.type ≠ .refresh then throw (.app .invalidToken "Token is not a refresh token")
  pure payload

def userKeysWithPrefix (db : Db) (userId : ℕ) (raw : String) : List ApiKey :=
  db.apiKeys.select fun k => k.userId = userId && k.keyPrefix = lookupPrefix raw

def exchangeApiKeyForTokens (cfg : JwtSettings) (h : Hasher) (now : Time) (c : Client) (jti raw : String) :
    DbSession (Token × Token × ℕ) := do
  let user ← validateApiKey h now c raw
  let key ← fetch fun db =>
    scalarOne (userKeysWithPrefix db user.id raw)
  let scopes := if key.scopes = [] then defaultScopes else key.scopes
  pure (createAccessToken cfg now user scopes, createRefreshToken cfg now user.id jti,
    cfg.accessTokenExpireMinutes * 60)

def refreshAccessToken (cfg : JwtSettings) (now : Time) (refreshToken : Token) : DbSession (Token × ℕ) := do
  let payload ← fetch fun _ => verifyRefreshToken cfg now refreshToken
  let user? ← query fun db => db.users.get? payload.sub
  match user? with
  | none => raise (.app .invalidToken "User account is not active")
  | some user =>
    if user.status ≠ .active then raise (.app .invalidToken "User account is not active")
    else pure (createAccessToken cfg now user defaultScopes, cfg.accessTokenExpireMinutes * 60)

/-- The access tokens of a chain: one exchange, then refreshes with the issued refresh token, each
against the database and the clock of its moment. -/
def tokenChain (cfg : JwtSettings) (h : Hasher) (now : Time) (c : Client) (jti raw : String) (db : Db)
    (refreshes : List (Db × Time)) : List Token :=
  match (exchangeApiKeyForTokens cfg h now c jti raw db).1 with
  | .error _ => []
  | .ok (access, refresh, _) =>
    access :: refreshes.filterMap fun r =>
      match (refreshAccessToken cfg r.2 refresh r.1).1 with
      | .error _ => none
      | .ok (token, _) => some token

section Chain

variable {cfg : JwtSettings} {h : Hasher} {now : Time} {c : Client} {jti raw : String} {db : Db} {k : ApiKey}

/-- The clock and the database of a refresh make it fail: the token issued to `userId` at `now`
is not yet or no longer valid, or the user is not an active one. -/
def RefreshRefused (cfg : JwtSettings) (now : Time) (userId : ℕ) (r : Db × Time) : Prop :=
  r.2 < now / second * second ∨
    (now + cfg.refreshTokenExpireDays * 86400 * second) / second * second ≤ r.2 ∨
    ∀ u ∈ r.1.users.rows, u.id = userId → u.status ≠ .active

def ExchangeRefused (db : Db) (now : Time) (raw : String) (k : ApiKey) : Prop :=
  raw.length < 12 ∨ k.isValid now = false ∨
    (∀ u ∈ db.users.rows, u.id = k.userId → u.status ≠ .active) ∨
    ∃ k' ∈ db.apiKeys.rows, k' ≠ k ∧ k'.userId = k.userId ∧ k'.keyPrefix = k.keyPrefix

theorem verifyRefreshToken_issued (now' : Time) (uid : ℕ) :
    verifyRefreshToken cfg now' (createRefreshToken cfg now uid jti) =
      if now' < now / second * second then .error (.app .invalidToken "The token is not yet valid (iat)")
      else if (now + cfg.refreshTokenExpireDays * 86400 * second) / second * second ≤ now' then
        .error AppError.tokenExpired.raised
      else .ok (createRefreshToken cfg now uid jti) := by
  unfold verifyRefreshToken decodeToken createRefreshToken
  dsimp only
  split_ifs <;> simp_all
  all_goals rfl

theorem refreshAccessToken_of_error {t : Token} {e : ApiError} (hv : verifyRefreshToken cfg now t = .error e) :
    refreshAccessToken cfg now t db = (.error e, db) :=
  fetch_bind_of_error hv

theorem refreshAccessToken_of_ok {t p : Token} (hv : verifyRefreshToken cfg now t = .ok p) :
    refreshAccessToken cfg now t db =
      match db.users.get? p.sub with
      | none => (.error (.app .invalidToken "User account is not active"), db)
      | some user =>
        if user.status ≠ .active then (.error (.app .invalidToken "User account is not active"), db)
        else (.ok (createAccessToken cfg now user defaultScopes, cfg.accessTokenExpireMinutes * 60), db) := by
  have hf : (fetch fun _ => verifyRefreshToken cfg now t : DbSession Token) db = (.ok p, db) := by
    rw [fetch_apply, hv]
  rw [refreshAccessToken, bind_of_ok hf, query_bind_apply]
  rcases db.users.get? p.sub with _ | user
  · rfl
  · by_cases ha : user.status = .active <;> simp [ha]

theorem refresh_of_refused (jti : String) {uid : ℕ} {r : Db × Time} (hr : RefreshRefused cfg now uid r) :
    ∃ e, (refreshAccessToken cfg r.2 (createRefreshToken cfg now uid jti) r.1).1 = .error e := by
  by_cases hia : r.2 < now / second * second
  · exact ⟨_, by rw [refreshAccessToken_of_error (by rw [verifyRefreshToken_issued, if_pos hia])]⟩
  by_cases he : (now + cfg.refreshTokenExpireDays * 86400 * second) / second * second ≤ r.2
  · exact ⟨_, by rw [refreshAccessToken_of_error (by rw [verifyRefreshToken_issued, if_neg hia, if_pos he])]⟩
  have hin := (hr.resolve_left hia).resolve_left he
  rw [refreshAccessToken_of_ok (by rw [verifyRefreshToken_issued, if_neg hia, if_neg he]),
    createRefreshToken_sub]
  rcases hu : r.1.users.get? uid with _ | user
  · exact ⟨_, rfl⟩
  · obtain ⟨hm, hid⟩ := Table.get?_eq_some.mp hu
    simp [hin user hm hid]

theorem refresh_of_not_refused (jti : String) {uid : ℕ} {r : Db × Time}
    (hr : ¬ RefreshRefused cfg now uid r) :
    ∃ user, (refreshAccessToken cfg r.2 (createRefreshToken cfg now uid jti) r.1).1 =
      .ok (createAccessToken cfg r.2 user defaultScopes, cfg.accessTokenExpireMinutes * 60) := by
  simp only [RefreshRefused, not_or, not_forall, not_not] at hr
  obtain ⟨hia, he, user, hm, hid, ha⟩ := hr
  have hu : r.1.users.get? uid = some user := Table.get?_eq_some.mpr ⟨hm, hid⟩
  refine ⟨user, ?_⟩
  rw [refreshAccessToken_of_ok (by rw [verifyRefreshToken_issued, if_neg hia, if_neg he]),
    createRefreshToken_sub, hu]
  simp [ha]

theorem scopeList_createAccessToken (cfg : JwtSettings) (t : Time) (user : User) (scopes : List String) :
    (createAccessToken cfg t user scopes).scopeList = scopes := by
  by_cases hs : scopes = [] <;> simp [createAccessToken, Token.scopeList, hs]

theorem userKeysWithPrefix_touchKey (uid : ℕ) : userKeysWithPrefix (touchKey h raw now k db) uid raw =
      (userKeysWithPrefix db uid raw).map fun a => if Row.id a = k.id then usedKey h raw now a else a := by
  simp only [userKeysWithPrefix, touchKey, Table.update]
  rw [Table.select_updateWhere_map (f := usedKey h raw now) fun _ => rfl]
  simp only [decide_eq_true_eq]

theorem userKeysWithPrefix_eq_singleton (hk : FirstCandidate h db raw k) :
    userKeysWithPrefix db k.userId raw = [k] ↔
      ¬ ∃ k' ∈ db.apiKeys.rows, k' ≠ k ∧ k'.userId = k.userId ∧ k'.keyPrefix = k.keyPrefix := by
  have hp : k.keyPrefix = lookupPrefix raw := by
    obtain ⟨_, _, _, hc, _⟩ := hk
    exact hc.1
  have hm : ∀ k', k' ∈ userKeysWithPrefix db k.userId raw ↔
      k' ∈ db.apiKeys.rows ∧ k'.userId = k.userId ∧ k'.keyPrefix = k.keyPrefix := by
    intro k'
    simp [userKeysWithPrefix, Table.mem_select, hp]
  have hn : (userKeysWithPrefix db k.userId raw).Nodup := (db.apiKeys.nodup.of_map _).filter _
  constructor
  · rintro ho ⟨k', hk', hne, hs⟩
    exact hne (List.mem_singleton.mp (ho ▸ (hm k').mpr ⟨hk', hs⟩))
  · intro hno
    refine List.perm_singleton.mp ((List.perm_ext_iff_of_nodup hn (List.nodup_singleton k)).mpr fun k' => ?_)
    rw [hm, List.mem_singleton]
    constructor
    · rintro ⟨hk', hs⟩
      by_contra hne
      exact hno ⟨k', hk', hne, hs⟩
    · rintro rfl
      exact ⟨hk.mem, rfl, rfl⟩

theorem scalarOne_touched (hk : FirstCandidate h db raw k) {a : ApiKey} :
    scalarOne (userKeysWithPrefix (touchKey h raw now k db) k.userId raw) = .ok a ↔
      a = usedKey h raw now k ∧
        ¬ ∃ k' ∈ db.apiKeys.rows, k' ≠ k ∧ k'.userId = k.userId ∧ k'.keyPrefix = k.keyPrefix := by
  rw [scalarOne_eq_ok, userKeysWithPrefix_touchKey, ← userKeysWithPrefix_eq_singleton hk]
  have hm : k ∈ userKeysWithPrefix db k.userId raw := by
    obtain ⟨_, _, _, hc, _⟩ := id hk
    simp [userKeysWithPrefix, Table.mem_select, hk.mem, hc.1]
  constructor
  · intro hma
    obtain ⟨b, hb, rfl⟩ := List.map_eq_singleton_iff.mp hma
    obtain rfl := List.mem_singleton.mp (hb ▸ hm)
    exact ⟨if_pos rfl, hb⟩
  · rintro ⟨rfl, ho⟩
    rw [ho, List.map_singleton]
    exact congrArg (fun a => [a]) (if_pos rfl)

theorem exchange_eq_ok (cfg : JwtSettings) (c : Client) (jti : String)
    (hk : FirstCandidate h db raw k) {r : Token × Token × ℕ} :
    (exchangeApiKeyForTokens cfg h now c jti raw db).1 = .ok r ↔
      ¬ ExchangeRefused db now raw k ∧ ∃ user, db.users.get? k.userId = some user ∧ r =
        (createAccessToken cfg now user (if k.scopes = [] then defaultScopes else k.scopes),
          createRefreshToken cfg now k.userId jti, cfg.accessTokenExpireMinutes * 60) := by
  have hun : k.revokedAt = none := by
    obtain ⟨_, _, _, hc, _⟩ := id hk
    exact hc.2.1
  unfold exchangeApiKeyForTokens
  constructor
  · intro hok
    rcases hv : validateApiKey h now c raw db with ⟨_ | user, db'⟩
    · rw [bind_of_error hv] at hok
      cases hok
    obtain ⟨hl, k', hk', he, hus, hac, rfl⟩ := validateApiKey_eq_ok.mp hv
    obtain rfl := hk.unique hk'
    obtain ⟨hm, hid⟩ := Table.get?_eq_some.mp hus
    have hid : user.id = k.userId := hid
    rw [bind_of_ok hv, hid] at hok
    obtain ⟨a, ha, hok⟩ := fetch_bind_fst_eq_ok.mp hok
    obtain ⟨rfl, ho⟩ := (scalarOne_touched hk).mp ha
    refine ⟨?_, user, hus, (Except.ok.inj hok).symm⟩
    rintro (hs | hin | hic | hot)
    · omega
    · rw [isValid_of_not_keyExpired hun he] at hin
      cases hin
    · exact hic user hm hid hac
    · exact ho hot
  · rintro ⟨hn, user, hus, rfl⟩
    simp only [ExchangeRefused, not_or, Nat.not_lt, Bool.not_eq_false] at hn
    obtain ⟨hl, hva, hac, ho⟩ := hn
    obtain ⟨hm, hid⟩ := Table.get?_eq_some.mp hus
    have hid : user.id = k.userId := hid
    have hac : user.status = .active := by
      by_contra hne
      refine hac fun u hu huk => ?_
      rw [Table.eq_of_id_eq hu hm (huk.trans hid.symm)]
      exact hne
    rw [bind_of_ok (validateApiKey_eq_ok.mpr
      ⟨hl, k, hk, not_keyExpired_of_isValid hva, hus, hac, rfl⟩), hid]
    exact fetch_bind_fst_eq_ok.mpr ⟨usedKey h raw now k, (scalarOne_touched hk).mpr ⟨rfl, ho⟩, rfl⟩

theorem tokenChain_of_refused (hk : FirstCandidate h db raw k) (hx : ExchangeRefused db now raw k)
    (rfs : List (Db × Time)) : tokenChain cfg h now c jti raw db rfs = [] := by
  unfold tokenChain
  rcases hr : (exchangeApiKeyForTokens cfg h now c jti raw db).1 with e | r
  · rfl
  · exact absurd hx ((exchange_eq_ok cfg c jti hk).mp hr).1

theorem mem_tokenChain (cfg : JwtSettings) (c : Client) (jti : String) (hk : FirstCandidate h db raw k)
    (hne : k.scopes ≠ []) (hx : ¬ ExchangeRefused db now raw k) (rfs : List (Db × Time)) :
    (∀ t ∈ tokenChain cfg h now c jti raw db rfs, t.scopeList = k.scopes ∨ t.scopeList = defaultScopes) ∧
      ((∃ r ∈ rfs, ¬ RefreshRefused cfg now k.userId r) →
        ∃ t ∈ tokenChain cfg h now c jti raw db rfs, t.scopeList = defaultScopes) ∧
      ((∀ r ∈ rfs, RefreshRefused cfg now k.userId r) →
        ∀ t ∈ tokenChain cfg h now c jti raw db rfs, t.scopeList = k.scopes) := by
  have ho : ∃ user, db.users.get? k.userId = some user := by
    simp only [ExchangeRefused, not_or, not_forall] at hx
    obtain ⟨-, -, ⟨user, hm, hid, -⟩, -⟩ := hx
    exact ⟨user, Table.get?_eq_some.mpr ⟨hm, hid⟩⟩
  obtain ⟨user, hus⟩ := ho
  have hr := (exchange_eq_ok cfg c jti hk).mpr ⟨hx, user, hus, rfl⟩
  rw [if_neg hne] at hr
  have hs := scopeList_createAccessToken cfg now user k.scopes
  unfold tokenChain
  rw [hr]
  simp only [List.mem_cons, List.mem_filterMap]
  refine ⟨?_, ?_, ?_⟩
  · rintro t (rfl | ⟨r, hm, ht⟩)
    · exact .inl hs
    · by_cases hrr : RefreshRefused cfg now k.userId r
      · obtain ⟨e, he⟩ := refresh_of_refused jti hrr
        simp [he] at ht
      · obtain ⟨u, hu⟩ := refresh_of_not_refused jti hrr
        simp only [hu, Option.some.injEq] at ht
        exact .inr (ht ▸ scopeList_createAccessToken _ _ _ _)
  · rintro ⟨r, hm, hrr⟩
    obtain ⟨u, hu⟩ := refresh_of_not_refused jti hrr
    exact ⟨_, .inr ⟨r, hm, by rw [hu]⟩, scopeList_createAccessToken _ _ _ _⟩
  · rintro ha t (rfl | ⟨r, hm, ht⟩)
    · exact hs
    · obtain ⟨e, he⟩ := refresh_of_refused jti (ha r hm)
      simp [he] at ht

/-- Every access token of a chain stays within the scopes of the exchanged key exactly when the
exchange fails, the key has the default scopes anyway, or every refresh fails. -/
theorem tokenChain_scopes_iff (cfg : JwtSettings) (c : Client) (jti : String)
    (hk : FirstCandidate h db raw k) (hne : k.scopes ≠ []) (refreshes : List (Db × Time)) :
    (∀ t ∈ tokenChain cfg h now c jti raw db refreshes, ∀ s ∈ t.scopeList, s ∈ k.scopes) ↔
      ExchangeRefused db now raw k ∨ (∀ s ∈ defaultScopes, s ∈ k.scopes) ∨
        ∀ r ∈ refreshes, RefreshRefused cfg now k.userId r := by
  by_cases hx : ExchangeRefused db now raw k
  · simp [tokenChain_of_refused hk hx, hx]
  obtain ⟨hb, hg, hke⟩ := mem_tokenChain cfg c jti hk hne hx refreshes
  simp only [hx, false_or]
  constructor
  · intro hin
    by_cases ha : ∀ r ∈ refreshes, RefreshRefused cfg now k.userId r
    · exact .inr ha
    · push Not at ha
      obtain ⟨t, ht, hd⟩ := hg ha
      exact .inl fun s hs => hin t ht s (hd ▸ hs)
  · rintro (hd | ha) t ht s hs
    · rcases hb t ht with heq | heq
      · exact heq ▸ hs
      · exact hd s (heq ▸ hs)
    · exact hke ha t ht ▸ hs

def readOnlyKeyDb : Db where
  users := .single { id := 1, email := "user@example.com" }
  accounts := .single { id := 2, userId := 1 }
  apiKeys := .single { id := 3, userId := 1, keyHash := "mcpw_0123456789", keyPrefix := "mcpw_0123456", scopes := ["read"] }

theorem readOnlyKeyDb_firstCandidate :
    FirstCandidate plainHasher readOnlyKeyDb "mcpw_0123456789" (readOnlyKeyDb.apiKeys.rows.head (by decide)) :=
  firstVerified_eq_some.mp (by decide)

theorem tokenChain_read_only_without_refresh : readOnlyKeyDb.apiKeys.rows.map (·.scopes) = [["read"]] ∧
      ∀ t ∈ tokenChain ⟨"issuer", "audience", 60, 7⟩ plainHasher 0 {} "jti" "mcpw_0123456789" readOnlyKeyDb [],
        ∀ s ∈ t.scopeList, s ∈ ["read"] :=
  ⟨by decide, (tokenChain_scopes_iff ⟨"issuer", "audience", 60, 7⟩ {} "jti" readOnlyKeyDb_firstCandidate
    (by decide) []).mpr (.inr (.inr (by simp)))⟩

theorem refreshed_read_only_key_may_write :
    ∃ t ∈ tokenChain ⟨"issuer", "audience", 60, 7⟩ plainHasher 0 {} "jti" "mcpw_0123456789" readOnlyKeyDb
        [(readOnlyKeyDb, 5000000)],
      "write" ∈ t.scopeList ∧ ∀ k ∈ readOnlyKeyDb.apiKeys.rows, "write" ∉ k.scopes := by
  decide

end Chain

end McpworksApi.Auth
