import McpworksApi.Auth.Keys
import McpworksApi.Py.Hash
import McpworksApi.Session.Invariant

/-! Email verification by PIN. A request runs its handler inside a database session that is committed when the handler
returns and rolled back when it raises. -/

namespace McpworksApi.Auth

open Models Py Session

structure PinState where
  db : Db
  compared : Option Bool := none

def pinLifetime : Time := 10 * 60 * 1000000

def pinHash (sha : Sha256) (pin : String) : String := sha.hexdigest (encode pin)

def PinState.setUser (userId : ℕ) (f : User → User) (hf : ∀ u, Row.id (f u) = Row.id u := by intro; exact id rfl)
    (s : PinState) : PinState :=
  { s with db := { s.db with users := s.db.users.update userId f hf } }

def PinState.addAudit (log : AuditLog) (s : PinState) : PinState :=
  { s with db := { s.db with auditLogs := s.db.auditLogs ++ [log] } }

def accountName (name : Option String) (email : String) : String :=
  match name with
  | some n => if n = "" then String.ofList (email.toList.takeWhile (· ≠ '@')) else n
  | none => String.ofList (email.toList.takeWhile (· ≠ '@'))

def pendingUser (sha : Sha256) (now : Time) (email : String) (name : Option String) (pin : String)
    (i : ℕ) : User where
  id := i
  email := lower email
  name := name
  tier := .trialAgent
  status := .pendingVerification
  emailVerified := false
  verificationToken := some (pinHash sha pin)
  verificationPinExpiresAt := some (now + pinLifetime)
  verificationAttempts := 0
  verificationResendCount := 0

def registerUser (sha : Sha256) (now : Time) (c : Client) (email : String) (name : Option String) (pin : String) :
    Session PinState ApiError User := do
  let existing ← query fun s => s.db.users.select (·.email = lower email)
  if existing ≠ [] then raise AppError.emailExists.raised
  else do
    let userId ← query fun s => s.db.users.freshId
    write fun s =>
      { s with db := { s.db with
        users := s.db.users.insert (pendingUser sha now email name pin)
        accounts := s.db.accounts.insert fun i =>
          { id := i, userId, name := some (accountName name email) } } }
    write (PinState.addAudit
      { userId := some userId, action := .userRegistered, resourceType := "user", resourceId := some userId,
        ipAddress := c.ipAddress, userAgent := c.userAgent,
        eventData := [("email", lower email), ("status", "pending_verification")] })
    pure (pendingUser sha now email name pin userId)

def verifiedUser (u : User) : User :=
  { u with
    emailVerified := true
    status := .active
    verificationToken := none
    verificationPinExpiresAt := none
    verificationAttempts := 0 }

def verifyEmailPin (sha : Sha256) (now : Time) (c : Client) (userId : ℕ) (pin : String) :
    Session PinState ApiError User := do
  let user? ← query fun s => s.db.users.get? userId
  match user? with
  | none => raise AppError.userNotFound.raised
  | some user =>
    if user.emailVerified then raise AppError.alreadyVerified.raised
    else
      match user.verificationToken, user.verificationPinExpiresAt with
      | some token, some expiresAt =>
        if token = "" then raise AppError.verificationPinExpired.raised
        else if 5 ≤ user.verificationAttempts then raise AppError.verificationAttemptsExceeded.raised
        else if expiresAt ≤ now then raise AppError.verificationPinExpired.raised
        else do
          write fun s => { s with compared := some (pinHash sha pin = token) }
          if pinHash sha pin ≠ token then do
            write (PinState.setUser userId fun u =>
              { u with verificationAttempts := u.verificationAttempts + 1 })
            write (PinState.addAudit
              { userId := some userId, action := .authFailed, resourceType := "user", resourceId := some userId,
                ipAddress := c.ipAddress, userAgent := c.userAgent,
                eventData := [("reason", "invalid_verification_pin"),
                  ("attempts", toString (user.verificationAttempts + 1))] })
            raise AppError.invalidVerificationPin.raised
          else do
            write (PinState.setUser userId verifiedUser)
            write (PinState.addAudit
              { userId := some userId, action := .userLogin, resourceType := "user", resourceId := some userId,
                ipAddress := c.ipAddress, userAgent := c.userAgent,
                eventData := [("method", "email_verification"), ("email", user.email)] })
            pure (verifiedUser user)
      | _, _ => raise AppError.verificationPinExpired.raised

def resentUser (sha : Sha256) (now : Time) (pin : String) (u : User) : User :=
  { u with
    verificationToken := some (pinHash sha pin)
    verificationPinExpiresAt := some (now + pinLifetime)
    verificationAttempts := 0
    verificationResendCount := u.verificationResendCount + 1 }

def maxResends : ℕ := 5

def resendVerificationPin (sha : Sha256) (now : Time) (c : Client) (userId : ℕ) (pin : String) :
    Session PinState ApiError ℕ := do
  let user? ← query fun s => s.db.users.get? userId
  match user? with
  | none => raise AppError.userNotFound.raised
  | some user =>
    if user.emailVerified then raise AppError.alreadyVerified.raised
    else if maxResends ≤ user.verificationResendCount then raise AppError.verificationResendLimit.raised
    else do
      write (PinState.setUser userId (resentUser sha now pin))
      write (PinState.addAudit
        { userId := some userId, action := .userLogin, resourceType := "user", resourceId := some userId,
          ipAddress := c.ipAddress, userAgent := c.userAgent,
          eventData := [("method", "resend_verification_pin"),
            ("resend_count", toString (user.verificationResendCount + 1))] })
      pure (maxResends - (user.verificationResendCount + 1))

inductive PinRequest
  | register (now : Time) (email : String) (name : Option String) (pin : String)
  | verify (now : Time) (userId : ℕ) (pin : String)
  | resend (now : Time) (userId : ℕ) (pin : String)
  deriving DecidableEq

inductive PinReply
  | registered (userId : ℕ)
  | verified (userId : ℕ)
  | resent (remaining : ℕ)
  deriving DecidableEq

def translate (status : AppError → Option ℕ) : ApiError → ApiError
  | .app k m => (status k).elim (.app k m) fun n => .httpApp n k m
  | e => e

def withSession {α : Type} (m : Session PinState ApiError α) : Session PinState ApiError α :=
  transaction (fun before after => { after with db := before.db }) m

def endpoint (sha : Sha256) (c : Client) : PinRequest → Session PinState ApiError PinReply
  | .register now email name pin => withSession do
    let user ← handle (registerUser sha now c email name pin) fun e =>
      raise (translate (fun | .emailExists => some 409 | _ => none) e)
    pure (.registered user.id)
  | .verify now userId pin => withSession do
    let user ← handle (verifyEmailPin sha now c userId pin) fun e =>
      raise (translate (fun
        | .alreadyVerified => some 409
        | .verificationPinExpired => some 400
        | .verificationAttemptsExceeded => some 429
        | .invalidVerificationPin => some 400
        | _ => none) e)
    pure (.verified user.id)
  | .resend now userId pin => withSession do
    let remaining ← handle (resendVerificationPin sha now c userId pin) fun e =>
      raise (translate (fun
        | .alreadyVerified => some 409
        | .verificationResendLimit => some 429
        | _ => none) e)
    pure (.resent remaining)

structure Outcome where
  request : PinRequest
  compared : Option Bool
  result : Except ApiError PinReply

def serve (sha : Sha256) (c : Client) (r : PinRequest) (db : Db) : Outcome × Db :=
  let (result, s) := endpoint sha c r { db }
  (⟨r, s.compared, result⟩, s.db)

def serveAll (sha : Sha256) (c : Client) : Db → List PinRequest → List Outcome
  | _, [] => []
  | db, r :: rs => (serve sha c r db).1 :: serveAll sha c (serve sha c r db).2 rs

def dbAfter (sha : Sha256) (c : Client) (db : Db) (rs : List PinRequest) : Db :=
  rs.foldl (fun db r => (serve sha c r db).2) db

section Serving

variable {sha : Sha256} {c : Client} {db : Db} {u : ℕ}

structure AwaitingPin (db : Db) (u : ℕ) (h : String) (e : Time) : Prop where
  row : ∃ user, db.users.get? u = some user ∧ user.emailVerified = false ∧ user.verificationToken = some h ∧
    user.verificationPinExpiresAt = some e ∧ user.verificationAttempts = 0
  hash_ne : h ≠ ""

def Verified (db : Db) (u : ℕ) : Prop := ∃ user, db.users.get? u = some user ∧ user.emailVerified = true

variable {user : User} {s : PinState} {e : ApiError} {h : String} {now : Time} {α : Type} {v : ℕ}

theorem withSession_rolls_back {m : Session PinState ApiError α}
    (h : (withSession m s).1 = .error e) : (withSession m s).2.db = s.db := by
  unfold withSession transaction at h ⊢
  rcases hm : m s with ⟨r, s'⟩
  cases r with
  | ok a => simp [hm] at h
  | error e' => rfl

theorem serve_of_error {r : PinRequest} (h : (serve sha c r db).1.result = .error e) :
    (serve sha c r db).2 = db := by
  cases r <;> exact withSession_rolls_back h

theorem withSession_of_ok {m : Session PinState ApiError α} {h : ApiError → Session PinState ApiError α}
    {reply : α → PinReply} {s' : PinState} {a : α} (hm : m s = (.ok a, s')) :
    withSession (handle m h >>= fun a => pure (reply a)) s = (.ok (reply a), s') := by
  simp [withSession, transaction, handle, bind_apply, hm]

theorem withSession_of_error {m : Session PinState ApiError α} {t : ApiError → ApiError}
    {reply : α → PinReply} {s' : PinState} (hm : m s = (.error e, s')) :
    withSession (handle m (fun e => raise (t e)) >>= fun a => pure (reply a)) s =
      (.error (t e), { s' with db := s.db }) := by
  simp [withSession, transaction, handle, bind_apply, hm]

theorem serve_verify_expired {e : Time} (ha : AwaitingPin db u h e) (hn : e ≤ now) (pin : String) :
    serve sha c (.verify now u pin) db = (⟨.verify now u pin, none,
      .error (.httpApp 400 .verificationPinExpired AppError.verificationPinExpired.defaultMessage)⟩, db) := by
  obtain ⟨⟨user, hu, hv, ht, he, hat⟩, hne⟩ := ha
  have hm : verifyEmailPin sha now c u pin { db } =
      (.error AppError.verificationPinExpired.raised, { db }) := by
    simp [verifyEmailPin, hu, hv, ht, he, hat, hne, hn]
  rw [serve, endpoint, withSession_of_error hm]
  rfl

theorem serve_verify_wrong {e : Time} {pin : String} (ha : AwaitingPin db u h e) (hn : now < e)
    (hp : pinHash sha pin ≠ h) :
    serve sha c (.verify now u pin) db = (⟨.verify now u pin, some false,
      .error (.httpApp 400 .invalidVerificationPin AppError.invalidVerificationPin.defaultMessage)⟩, db) := by
  obtain ⟨⟨user, hu, hv, ht, he, hat⟩, hne⟩ := ha
  have hm : ∃ db', verifyEmailPin sha now c u pin { db } =
      (.error AppError.invalidVerificationPin.raised, { db := db', compared := some false }) := by
    simp [verifyEmailPin, hu, hv, ht, he, hat, hne, Nat.not_le.mpr hn, hp, PinState.setUser,
      PinState.addAudit]
  obtain ⟨db', hm⟩ := hm
  rw [serve, endpoint, withSession_of_error hm]
  rfl

theorem serve_verify_right {e : Time} {pin : String} (ha : AwaitingPin db u h e) (hn : now < e)
    (hp : pinHash sha pin = h) :
    (serve sha c (.verify now u pin) db).1.compared = some true ∧
      Verified (serve sha c (.verify now u pin) db).2 u := by
  obtain ⟨⟨user, hu, hv, ht, he, hat⟩, hne⟩ := ha
  have hm : ∃ audit, verifyEmailPin sha now c u pin { db } =
      (.ok (verifiedUser user),
        { db := { db with users := db.users.update u verifiedUser, auditLogs := audit },
          compared := some true }) := by
    simp [verifyEmailPin, hu, hv, ht, he, hat, hne, Nat.not_le.mpr hn, hp, PinState.setUser,
      PinState.addAudit]
  obtain ⟨audit, hm⟩ := hm
  rw [serve, endpoint, withSession_of_ok hm]
  exact ⟨rfl, verifiedUser user, by rw [Table.get?_update, hu]; rfl, rfl⟩

theorem serve_verify_verified (hv : Verified db u) (now : Time) (pin : String) :
    serve sha c (.verify now u pin) db = (⟨.verify now u pin, none,
      .error (.httpApp 409 .alreadyVerified AppError.alreadyVerified.defaultMessage)⟩, db) := by
  obtain ⟨user, hu, hve⟩ := hv
  have hm : verifyEmailPin sha now c u pin { db } = (.error AppError.alreadyVerified.raised, { db }) := by
    simp [verifyEmailPin, hu, hve]
  rw [serve, endpoint, withSession_of_error hm]
  rfl

def PinRequest.target : PinRequest → Option ℕ
  | .register .. => none
  | .verify _ v _ => some v
  | .resend _ v _ => some v

theorem setUser_keeps_row {f : User → User} {hf : ∀ u, Row.id (f u) = Row.id u} (hv : v ≠ u)
    (s : PinState) (hs : s.db.users.get? u = some user) :
    (PinState.setUser v f hf s).db.users.get? u = some user := by
  have hg : (s.db.users.update v f hf).get? u = s.db.users.get? u := Table.get?_update_of_ne hv.symm
  exact hg.trans hs

theorem registerUser_keeps_row (now : Time) (em : String) (name : Option String) (pin : String) :
    Maintains (fun s => s.db.users.get? u = some user) (registerUser sha now c em name pin) fun _ => True := by
  refine .query_bind fun _ _ => ?_
  split
  · exact .raise
  · refine .query_bind fun _ _ => .write_bind (fun _ hs => Table.get?_insert_of_some (fun _ => rfl) hs) ?_
    exact .write_bind (fun _ hs => hs) (.pure trivial)

theorem verifyEmailPin_keeps_row (hv : v ≠ u) (now : Time) (pin : String) :
    Maintains (fun s => s.db.users.get? u = some user) (verifyEmailPin sha now c v pin) fun _ => True := by
  refine .query_bind fun _ _ => ?_
  split
  · exact .raise
  split
  · exact .raise
  split
  · iterate 3
      split
      · exact .raise
    refine .write_bind (fun _ hs => hs) ?_
    split
    all_goals refine .write_bind (setUser_keeps_row hv) (.write_bind (fun _ hs => hs) ?_)
    · exact .raise
    · exact .pure trivial
  · exact .raise

theorem resendVerificationPin_keeps_row (hv : v ≠ u) (now : Time) (pin : String) :
    Maintains (fun s => s.db.users.get? u = some user) (resendVerificationPin sha now c v pin)
      fun _ => True := by
  refine .query_bind fun _ _ => ?_
  split
  · exact .raise
  split_ifs
  · exact .raise
  · exact .raise
  · exact .write_bind (setUser_keeps_row hv) (.write_bind (fun _ hs => hs) (.pure trivial))

theorem serve_other {r : PinRequest} (hr : r.target ≠ some u) (hu : db.users.get? u = some user) :
    (serve sha c r db).2.users.get? u = some user := by
  have hk : Maintains (fun s => s.db.users.get? u = some user) (endpoint sha c r) fun _ => True := by
    cases r with
    | register now em name pin =>
      exact .transaction (.map (.handle (registerUser_keeps_row now em name pin) fun _ => .raise)) fun _ _ hs _ => hs
    | verify now v pin =>
      have hv : v ≠ u := fun h => hr (congrArg some h)
      exact .transaction (.map (.handle (verifyEmailPin_keeps_row hv now pin) fun _ => .raise)) fun _ _ hs _ => hs
    | resend now v pin =>
      have hv : v ≠ u := fun h => hr (congrArg some h)
      exact .transaction (.map (.handle (resendVerificationPin_keeps_row hv now pin) fun _ => .raise)) fun _ _ hs _ => hs
  exact (hk { db } hu).1

end Serving

end McpworksApi.Auth
