import McpworksApi.Models.Db

/-! API-key authentication. The platform has two authenticators, written apart from each other:
`get_account_from_api_key` in front of the MCP endpoints and `AuthService.validate_api_key` in front of the REST API.
-/

namespace McpworksApi.Auth

open Models Py Session

structure Hasher where
  verify : (raw hashed : String) → Bool
  needsRehash : String → Bool
  hash : String → String

structure Client where
  ipAddress : Option String := none
  userAgent : Option String := none

def lookupPrefix (raw : String) : String := String.ofList (raw.toList.take 12)

def keysWithPrefix (db : Db) (raw : String) : List ApiKey :=
  db.apiKeys.select fun k => k.keyPrefix = lookupPrefix raw && k.revokedAt.isNone

def firstVerified (h : Hasher) (raw : String) (keys : List ApiKey) : Option ApiKey :=
  keys.find? fun k => h.verify raw k.keyHash

def getAccountFromApiKey (h : Hasher) (authorization : Option String) : DbSession (Account × ApiKey) :=
  fetch fun db =>
    let authHeader := authorization.getD ""
    if !startsWith authHeader "Bearer " then
      .error (.http 401 "Missing or invalid Authorization header")
    else
      let raw := String.ofList (authHeader.toList.drop 7)
      if raw.length < 12 then .error (.http 401 "Invalid API key format")
      else
        let keys := keysWithPrefix db raw
        if keys.isEmpty then .error (.http 401 "Invalid API key")
        else
          match firstVerified h raw keys with
          | none => .error (.http 401 "Invalid API key")
          | some key =>
            match db.users.get? key.userId with
            | none => .error (.http 403 "API key not associated with an account")
            | some user =>
              match db.accountOf user.id with
              | none => .error (.http 403 "API key not associated with an account")
              | some account => .ok (account, key)

def authFailure (userId : Option ℕ) (c : Client) (reason : String) : AuditLog where
  userId := userId
  action := .authFailed
  resourceType := "api_key"
  ipAddress := c.ipAddress
  userAgent := c.userAgent
  eventData := [("reason", reason)]

def authSuccess (userId keyId : ℕ) (c : Client) : AuditLog where
  userId := some userId
  action := .userLogin
  resourceType := "api_key"
  resourceId := some keyId
  ipAddress := c.ipAddress
  userAgent := c.userAgent
  eventData := [("method", "api_key")]

def refuse {α : Type} (userId : Option ℕ) (c : Client) (reason message : String) : DbSession α := do
  Db.addAudit (authFailure userId c reason)
  raise (.app .invalidApiKey message)

def keyExpired (k : ApiKey) (now : Time) : Bool :=
  match k.expiresAt with
  | none => false
  | some e => decide (e ≤ now)

def usedKey (h : Hasher) (raw : String) (now : Time) (k : ApiKey) : ApiKey :=
  { k with
    keyHash := if h.needsRehash k.keyHash then h.hash raw else k.keyHash
    lastUsedAt := some now }

def touchKey (h : Hasher) (raw : String) (now : Time) (key : ApiKey) (db : Db) : Db :=
  { db with apiKeys := db.apiKeys.update key.id (usedKey h raw now) }

def validateApiKey (h : Hasher) (now : Time) (c : Client) (raw : String) : DbSession User :=
  if raw.length < 12 then refuse none c "Key too short" AppError.invalidApiKey.defaultMessage
  else do
    let keys ← query fun db => keysWithPrefix db raw
    if keys.isEmpty then
      refuse none c "No matching key prefix" AppError.invalidApiKey.defaultMessage
    else
      match firstVerified h raw keys with
      | none => refuse none c "Hash verification failed" AppError.invalidApiKey.defaultMessage
      | some key =>
        if keyExpired key now then
          refuse (some key.userId) c "Key expired" "API key has expired"
        else do
          write (touchKey h raw now key)
          let user? ← query fun db => db.users.get? key.userId
          match user? with
          | none => refuse (some key.userId) c "User inactive" "User account is not active"
          | some user =>
            if user.status ≠ .active then
              refuse (some key.userId) c "User inactive" "User account is not active"
            else do
              Db.addAudit (authSuccess user.id key.id c)
              pure user

section Matching

variable {h : Hasher} {db : Db} {raw : String}

def Candidate (h : Hasher) (raw : String) (k : ApiKey) : Prop :=
  k.keyPrefix = lookupPrefix raw ∧ k.revokedAt = none ∧ h.verify raw k.keyHash = true

def FirstCandidate (h : Hasher) (db : Db) (raw : String) (k : ApiKey) : Prop :=
  ∃ before after, db.apiKeys.rows = before ++ k :: after ∧ Candidate h raw k ∧
    ∀ k' ∈ before, ¬ Candidate h raw k'

theorem firstVerified_eq_some {k : ApiKey} :
    firstVerified h raw (keysWithPrefix db raw) = some k ↔ FirstCandidate h db raw k := by
  have hc : ∀ k : ApiKey, (decide ((decide (k.keyPrefix = lookupPrefix raw) && k.revokedAt.isNone) = true ∧
      h.verify raw k.keyHash = true) = true) ↔ Candidate h raw k := by
    intro k
    simp [Candidate, and_assoc]
  rw [firstVerified, keysWithPrefix, Table.select, List.find?_filter, List.find?_eq_some_iff_append, hc]
  simp only [Bool.not_eq_eq_eq_not, Bool.not_true, ← Bool.not_eq_true, hc]
  constructor
  · rintro ⟨hk, before, after, heq, hb⟩
    exact ⟨before, after, heq, hk, hb⟩
  · rintro ⟨before, after, heq, hk, hb⟩
    exact ⟨hk, before, after, heq, hb⟩

theorem FirstCandidate.unique {k k' : ApiKey} (hk : FirstCandidate h db raw k)
    (hk' : FirstCandidate h db raw k') : k = k' := by
  rw [← firstVerified_eq_some] at hk hk'
  exact Option.some.inj (hk.symm.trans hk')

theorem FirstCandidate.mem {k : ApiKey} (hk : FirstCandidate h db raw k) : k ∈ db.apiKeys.rows := by
  obtain ⟨before, after, heq, -⟩ := hk
  simp [heq]

theorem keysWithPrefix_ne_nil {k : ApiKey} (hk : FirstCandidate h db raw k) :
    (keysWithPrefix db raw).isEmpty = false := by
  rw [← firstVerified_eq_some] at hk
  rcases hl : keysWithPrefix db raw with _ | ⟨a, l⟩
  · simp [hl, firstVerified] at hk
  · rfl

theorem getAccountFromApiKey_eq_ok {account : Account} {key : ApiKey} :
    (getAccountFromApiKey h (some ("Bearer " ++ raw)) db).1 = .ok (account, key) ↔
      12 ≤ raw.length ∧ FirstCandidate h db raw key ∧
        ∃ user, db.users.get? key.userId = some user ∧ db.accountOf user.id = some account := by
  have hp : startsWith ("Bearer " ++ raw) "Bearer " = true := by
    simp [startsWith]
  have hr : String.ofList (("Bearer " ++ raw).toList.drop 7) = raw := by simp
  simp only [getAccountFromApiKey, fetch_apply, Option.getD_some, hp, hr, Bool.not_true,
    Bool.false_eq_true, if_false]
  rw [← firstVerified_eq_some]
  split_ifs with hl he
  · simp [Nat.not_le.mpr hl]
  · have : firstVerified h raw (keysWithPrefix db raw) = none := by
      rw [List.isEmpty_iff.mp he]
      rfl
    simp [this]
  · rcases hf : firstVerified h raw (keysWithPrefix db raw) with _ | k
    · simp
    · simp only [Nat.not_lt.mp hl, true_and]
      constructor
      · intro hok
        rcases hu : db.users.get? k.userId with _ | user
        · simp [hu] at hok
        · rcases ha : db.accountOf user.id with _ | a
          · simp [hu, ha] at hok
          · simp only [hu, ha, Except.ok.injEq, Prod.mk.injEq] at hok
            obtain ⟨rfl, rfl⟩ := hok
            exact ⟨rfl, user, hu, ha⟩
      · rintro ⟨heq, user, hu, ha⟩
        cases heq
        simp [hu, ha]

theorem refuse_apply {α : Type} (userId : Option ℕ) (c : Client) (reason message : String) (db : Db) :
    (refuse userId c reason message : DbSession α) db =
      (.error (.app .invalidApiKey message), { db with auditLogs := db.auditLogs ++ [authFailure userId c reason] }) :=
  rfl

theorem validateApiKey_eq_ok {now : Time} {c : Client} {user : User} {db' : Db} :
    validateApiKey h now c raw db = (.ok user, db') ↔
      12 ≤ raw.length ∧ ∃ key, FirstCandidate h db raw key ∧ keyExpired key now = false ∧
        db.users.get? key.userId = some user ∧ user.status = .active ∧
        db' = { touchKey h raw now key db with
          auditLogs := db.auditLogs ++ [authSuccess user.id key.id c] } := by
  unfold validateApiKey
  split_ifs with hl
  · simp [refuse_apply, Nat.not_le.mpr hl]
  simp only [Nat.not_lt.mp hl, true_and, query_bind_apply]
  constructor
  · intro hok
    split_ifs at hok with hem
    · simp [refuse_apply] at hok
    rcases hf : firstVerified h raw (keysWithPrefix db raw) with _ | key
    · simp [hf, refuse_apply] at hok
    refine ⟨key, firstVerified_eq_some.mp hf, ?_⟩
    simp only [hf] at hok
    split_ifs at hok with he
    · simp [refuse_apply] at hok
    simp only [write_bind_apply, query_bind_apply] at hok
    rcases hu : (touchKey h raw now key db).users.get? key.userId with _ | u
    · simp [hu, refuse_apply] at hok
    simp only [hu] at hok
    split_ifs at hok with ha
    · simp [refuse_apply] at hok
    simp only [Db.addAudit, write_bind_apply, pure_apply, Prod.mk.injEq, Except.ok.injEq] at hok
    obtain ⟨rfl, rfl⟩ := hok
    exact ⟨by simpa using he, hu, not_not.mp ha, rfl⟩
  · rintro ⟨key, hk, he, hu, ha, rfl⟩
    have hu' : (touchKey h raw now key db).users.get? key.userId = some user := hu
    simp only [keysWithPrefix_ne_nil hk, firstVerified_eq_some.mpr hk, he, Bool.false_eq_true, if_false,
      write_bind_apply, query_bind_apply, hu', ha, ne_eq, not_true_eq_false, Db.addAudit,
      pure_apply]
    rfl

end Matching

section Agreement

variable {h : Hasher} {db : Db} {raw : String} {now : Time} {c : Client}

def McpAccepts (h : Hasher) (db : Db) (raw : String) (i : ℕ) : Prop :=
  ∃ account key, (getAccountFromApiKey h (some ("Bearer " ++ raw)) db).1 = .ok (account, key) ∧ key.id = i

/-- The service authenticator accepts `raw`, having matched the key with id `i`: it returns a
user and the login it records names that key. -/
def ServiceAccepts (h : Hasher) (db : Db) (now : Time) (c : Client) (raw : String) (i : ℕ) : Prop :=
  ∃ user db', validateApiKey h now c raw db = (.ok user, db') ∧
    db'.auditLogs = db.auditLogs ++ [authSuccess user.id i c]

theorem not_keyExpired_of_isValid {k : ApiKey} (hk : k.isValid now = true) : keyExpired k now = false := by
  unfold ApiKey.isValid at hk
  unfold keyExpired
  rcases he : k.expiresAt with _ | e
  · rfl
  · simp only [he, Bool.and_eq_true, decide_eq_true_eq] at hk
    simpa using hk.2

theorem isValid_of_not_keyExpired {k : ApiKey} (hr : k.revokedAt = none) (hk : keyExpired k now = false) :
    k.isValid now = true := by
  unfold keyExpired at hk
  unfold ApiKey.isValid
  rcases he : k.expiresAt with _ | e
  · simp [hr]
  · simp only [he, decide_eq_false_iff_not] at hk
    simpa [hr] using hk

theorem serviceAccepts_iff {i : ℕ} :
    ServiceAccepts h db now c raw i ↔ 12 ≤ raw.length ∧ ∃ key user, FirstCandidate h db raw key ∧ key.id = i ∧
      key.isValid now = true ∧ db.users.get? key.userId = some user ∧ user.status = .active := by
  constructor
  · rintro ⟨user, db', hok, hlo⟩
    obtain ⟨hl, key, hk, he, hu, ha, rfl⟩ := validateApiKey_eq_ok.mp hok
    obtain ⟨_, _, _, hc, _⟩ := id hk
    refine ⟨hl, key, user, hk, ?_, isValid_of_not_keyExpired hc.2.1 he, hu, ha⟩
    simpa [authSuccess] using hlo
  · rintro ⟨hl, key, user, hk, rfl, hv, hu, ha⟩
    exact ⟨user, _, validateApiKey_eq_ok.mpr
      ⟨hl, key, hk, not_keyExpired_of_isValid hv, hu, ha, rfl⟩, rfl⟩

/-- With an account for every user, the two authenticators accept the same keys exactly when the
matched key, if it has an owner at all, is unexpired and its owner active. -/
theorem authenticators_agree_iff (haccount : ∀ u ∈ db.users.rows, ∃ a ∈ db.accounts.rows, a.userId = u.id) :
    (∀ i, McpAccepts h db raw i ↔ ServiceAccepts h db now c raw i) ↔
      (12 ≤ raw.length → ∀ k, FirstCandidate h db raw k → ∀ u ∈ db.users.rows, u.id = k.userId →
        k.isValid now = true ∧ u.status = .active) := by
  have hm : ∀ i, McpAccepts h db raw i ↔ 12 ≤ raw.length ∧ ∃ key user, FirstCandidate h db raw key ∧
      key.id = i ∧ db.users.get? key.userId = some user := by
    intro i
    constructor
    · rintro ⟨account, key, hok, rfl⟩
      obtain ⟨hl, hke, user, hus, -⟩ := getAccountFromApiKey_eq_ok.mp hok
      exact ⟨hl, key, user, hke, rfl, hus⟩
    · rintro ⟨hl, key, user, hke, rfl, hus⟩
      obtain ⟨a, ha, hau⟩ := haccount user (Table.get?_eq_some.mp hus).1
      -- the relationship loads the first account of the user, whichever it is
      rcases hacc : db.accountOf user.id with _ | account
      · exact absurd hau (by simpa using List.find?_eq_none.mp hacc a ha)
      · exact ⟨account, key, getAccountFromApiKey_eq_ok.mpr ⟨hl, hke, user, hus, hacc⟩, rfl⟩
  constructor
  · intro hag hl k hk u hu huk
    have hus : db.users.get? k.userId = some u := Table.get?_eq_some.mpr ⟨hu, huk⟩
    obtain ⟨-, k', u', hk', -, hv, hu', hac⟩ := serviceAccepts_iff.mp
      ((hag k.id).mp ((hm k.id).mpr ⟨hl, k, u, hk, rfl, hus⟩))
    obtain rfl := hk.unique hk'
    rw [hus] at hu'
    exact ⟨hv, Option.some.inj hu' ▸ hac⟩
  · intro hf i
    rw [hm, serviceAccepts_iff]
    constructor
    · rintro ⟨hl, key, user, hke, hi, hus⟩
      obtain ⟨hu, hid⟩ := Table.get?_eq_some.mp hus
      obtain ⟨hv, hac⟩ := hf hl key hke user hu hid
      exact ⟨hl, key, user, hke, hi, hv, hus, hac⟩
    · rintro ⟨hl, key, user, hke, hi, -, hus, -⟩
      exact ⟨hl, key, user, hke, hi, hus⟩

def plainHasher : Hasher := ⟨fun raw hashed => raw = hashed, fun _ => false, id⟩

def expiringKeyDb : Db where
  users := .single { id := 1, email := "user@example.com" }
  accounts := .single { id := 2, userId := 1 }
  apiKeys := .single { id := 3, userId := 1, keyHash := "mcpw_0123456789", keyPrefix := "mcpw_0123456", expiresAt := some 5 }

theorem authenticators_agree_before_expiry :
    (∀ u ∈ expiringKeyDb.users.rows, ∃ a ∈ expiringKeyDb.accounts.rows, a.userId = u.id) ∧
      (∀ i, McpAccepts plainHasher expiringKeyDb "mcpw_0123456789" i ↔
        ServiceAccepts plainHasher expiringKeyDb 4 {} "mcpw_0123456789" i) := by
  have ha : ∀ u ∈ expiringKeyDb.users.rows, ∃ a ∈ expiringKeyDb.accounts.rows, a.userId = u.id := by decide
  refine ⟨ha, (authenticators_agree_iff ha).mpr fun _ k hk u hu _ => ?_⟩
  obtain rfl := List.mem_singleton.mp hk.mem
  obtain rfl := List.mem_singleton.mp hu
  decide

theorem expired_key_accepted_by_mcp_only : McpAccepts plainHasher expiringKeyDb "mcpw_0123456789" 3 ∧
      ¬ ServiceAccepts plainHasher expiringKeyDb 9 {} "mcpw_0123456789" 3 := by
  refine ⟨⟨_, _, rfl, rfl⟩, fun ha => ?_⟩
  obtain ⟨-, key, user, hk, -, hv, -⟩ := serviceAccepts_iff.mp ha
  obtain rfl := List.mem_singleton.mp hk.mem
  exact absurd hv (by decide)

end Agreement

end McpworksApi.Auth
