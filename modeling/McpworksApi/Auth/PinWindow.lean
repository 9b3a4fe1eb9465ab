import McpworksApi.Auth.Pins

/-! Runs of verification requests. A window is what happens between the issuance of a PIN to a user and the next one.
The documented limit is five wrong PINs per window, and every later request of the user answered with
`VerificationAttemptsExceededError` before any comparison. -/

namespace McpworksApi.Auth

open Models Py

variable {sha : Sha256} {c : Client} {db : Db} {u : ℕ}

def Outcome.Issues (o : Outcome) (u : ℕ) : Prop :=
  match o.request, o.result with
  | .register .., .ok (.registered v) => v = u
  | .resend _ v _, .ok _ => v = u
  | _, _ => False

def PinRequest.drawn : PinRequest → String × Time
  | .register now _ _ pin => (pin, now)
  | .verify now _ pin => (pin, now)
  | .resend now _ pin => (pin, now)

theorem serve_register_cases (now : Time) (em : String) (name : Option String) (pin : String) :
    (∃ e, (serve sha c (.register now em name pin) db).1.result = .error e) ∨
      (serve sha c (.register now em name pin) db).1.result = .ok (.registered db.users.freshId) ∧
      (serve sha c (.register now em name pin) db).2.users =
        db.users.insert (pendingUser sha now em name pin) := by
  by_cases hf : db.users.select (·.email = lower em) = []
  · right
    have hm : ∃ db', registerUser sha now c em name pin { db } =
        (.ok (pendingUser sha now em name pin db.users.freshId), { db := db' }) ∧
          db'.users = db.users.insert (pendingUser sha now em name pin) := by
      simp [registerUser, hf, PinState.addAudit]
    obtain ⟨db', hm, hu⟩ := hm
    rw [serve, endpoint, withSession_of_ok hm]
    exact ⟨rfl, hu⟩
  · left
    have hm : registerUser sha now c em name pin { db } = (.error AppError.emailExists.raised, { db }) := by
      simp [registerUser, hf]
    rw [serve, endpoint, withSession_of_error hm]
    exact ⟨_, rfl⟩

theorem serve_resend_cases (now : Time) (v : ℕ) (pin : String) :
    (∃ e, (serve sha c (.resend now v pin) db).1.result = .error e) ∨
      (∃ user, db.users.get? v = some user ∧ user.emailVerified = false) ∧
      (serve sha c (.resend now v pin) db).2.users = db.users.update v (resentUser sha now pin) := by
  have hr (k : AppError) (hm : resendVerificationPin sha now c v pin { db } = (.error k.raised, { db })) :
      ∃ e, (serve sha c (.resend now v pin) db).1.result = .error e := by
    rw [serve, endpoint, withSession_of_error hm]
    exact ⟨_, rfl⟩
  rcases hu : db.users.get? v with _ | user
  · exact .inl (hr .userNotFound (by simp [resendVerificationPin, hu]))
  by_cases hv : user.emailVerified = true
  · exact .inl (hr .alreadyVerified (by simp [resendVerificationPin, hu, hv]))
  by_cases hma : maxResends ≤ user.verificationResendCount
  · exact .inl (hr .verificationResendLimit (by simp [resendVerificationPin, hu, hv, hma]))
  right
  have hm : ∃ n db', resendVerificationPin sha now c v pin { db } = (.ok n, { db := db' }) ∧
      db'.users = db.users.update v (resentUser sha now pin) := by
    simp [resendVerificationPin, hu, hv, hma, PinState.addAudit, PinState.setUser]
  obtain ⟨n, db', hm, hus⟩ := hm
  rw [serve, endpoint, withSession_of_ok hm]
  exact ⟨⟨user, rfl, Bool.eq_false_of_not_eq_true hv⟩, hus⟩

theorem awaitingPin_of_register {now : Time} {em : String} {name : Option String} {pin : String}
    (h : (serve sha c (.register now em name pin) db).1.Issues u) :
    AwaitingPin (serve sha c (.register now em name pin) db).2 u (pinHash sha pin) (now + pinLifetime) := by
  unfold Outcome.Issues at h
  rcases serve_register_cases now em name pin with ⟨e, he⟩ | ⟨hr, hus⟩
  · rw [he] at h
    exact h.elim
  · rw [hr] at h
    have hu : db.users.freshId = u := h
    subst hu
    exact ⟨⟨_, hus ▸ Table.get?_insert, rfl, rfl, rfl, rfl⟩, sha.hexdigest_ne_empty _⟩

theorem awaitingPin_of_resend {now : Time} {v : ℕ} {pin : String}
    (h : (serve sha c (.resend now v pin) db).1.Issues u) :
    AwaitingPin (serve sha c (.resend now v pin) db).2 u (pinHash sha pin) (now + pinLifetime) := by
  unfold Outcome.Issues at h
  rcases serve_resend_cases now v pin with ⟨e, he⟩ | ⟨⟨user, hu, hve⟩, hus⟩
  · rw [he] at h
    exact h.elim
  · have hv : v = u := by
      split at h <;> simp_all [serve]
    subst hv
    refine ⟨⟨resentUser sha now pin user, ?_, hve, rfl, rfl, rfl⟩, sha.hexdigest_ne_empty _⟩
    rw [hus, Table.get?_update, hu]
    rfl

variable {l : List PinRequest} {r : PinRequest} {h : String} {e : Time}

theorem awaitingPin_of_issues (h : (serve sha c r db).1.Issues u) :
    AwaitingPin (serve sha c r db).2 u (pinHash sha r.drawn.1) (r.drawn.2 + pinLifetime) := by
  cases r with
  | register now em name pin => exact awaitingPin_of_register h
  | verify now v pin => exact absurd h (by simp [Outcome.Issues, serve])
  | resend now v pin => exact awaitingPin_of_resend h

theorem serveAll_append (db : Db) (l l' : List PinRequest) :
    serveAll sha c db (l ++ l') = serveAll sha c db l ++ serveAll sha c (dbAfter sha c db l) l' := by
  induction l generalizing db with
  | nil => rfl
  | cons r l ih => simp [serveAll, dbAfter, ih]

theorem serveAll_split (db : Db) (l : List PinRequest) (r : PinRequest) (l' : List PinRequest) :
    serveAll sha c db (l ++ r :: l') = serveAll sha c db l ++ (serve sha c r (dbAfter sha c db l)).1 ::
      serveAll sha c (serve sha c r (dbAfter sha c db l)).2 l' := by
  rw [serveAll_append, serveAll]

theorem serveAll_eq_append {db : Db} {rs : List PinRequest} {pre post : List Outcome} {o : Outcome}
    (h : serveAll sha c db rs = pre ++ o :: post) :
    ∃ l r l', rs = l ++ r :: l' ∧ pre = serveAll sha c db l ∧ o = (serve sha c r (dbAfter sha c db l)).1 := by
  induction rs generalizing db pre with
  | nil => simp [serveAll] at h
  | cons r rs ih =>
    rw [serveAll] at h
    rcases pre with _ | ⟨p, pre⟩
    · rw [List.nil_append, List.cons.injEq] at h
      exact ⟨[], r, rs, rfl, rfl, h.1.symm⟩
    · rw [List.cons_append, List.cons.injEq] at h
      obtain ⟨l, r', l', hrs, hp, ho⟩ := ih h.2
      exact ⟨r :: l, r', l', by rw [hrs, List.cons_append], by rw [serveAll, ← h.1, ← hp], ho⟩

def PinRequest.verifies (u : ℕ) : PinRequest → Bool
  | .verify _ v _ => v = u
  | _ => false

def PinRequest.guesses (sha : Sha256) (h : String) (e : Time) (u : ℕ) (right : Bool) : PinRequest → Bool
  | .verify now v pin => decide (v = u) && decide (now < e) && (decide (pinHash sha pin = h) == right)
  | _ => false

def wrongPins (u : ℕ) (os : List Outcome) : ℕ :=
  os.countP fun o => o.request.verifies u && o.compared == some false

theorem wrongPins_cons (u : ℕ) (o : Outcome) (os : List Outcome) :
    wrongPins u (o :: os) = wrongPins u os + if o.request.verifies u && o.compared == some false then 1 else 0 :=
  List.countP_cons

theorem exists_verify (hr : r.verifies u = true) : ∃ now pin, r = .verify now u pin := by
  cases r with
  | register | resend => cases hr
  | verify now v pin => exact ⟨now, pin, by rw [of_decide_eq_true hr]⟩

theorem wrongPins_append (u : ℕ) (os os' : List Outcome) :
    wrongPins u (os ++ os') = wrongPins u os + wrongPins u os' :=
  List.countP_append

theorem serve_keeps_row {user : User} (hr : r.verifies u = false) (hi : ¬ (serve sha c r db).1.Issues u)
    (hu : db.users.get? u = some user) : (serve sha c r db).2.users.get? u = some user := by
  by_cases ht : r.target = some u
  · cases r with
    | register now em name pin => cases ht
    | verify now v pin => simp_all [PinRequest.verifies, PinRequest.target]
    | resend now v pin =>
      rcases hre : (serve sha c (.resend now v pin) db).1.result with e | reply
      · rw [serve_of_error hre]
        exact hu
      · refine absurd ?_ hi
        have hv : v = u := by simpa [PinRequest.target] using ht
        simp only [Outcome.Issues, hre]
        exact hv
  · exact serve_other ht hu

theorem AwaitingPin.of_row {db' : Db} (ha : AwaitingPin db u h e)
    (hr : ∀ user, db.users.get? u = some user → db'.users.get? u = some user) : AwaitingPin db' u h e := by
  obtain ⟨⟨user, hu, hre⟩, hne⟩ := ha
  exact ⟨⟨user, hr user hu, hre⟩, hne⟩

theorem awaitingPin_dbAfter (ha : AwaitingPin db u h e)
    (hi : ∀ o ∈ serveAll sha c db l, ¬ o.Issues u) (hl : ∀ r ∈ l, r.guesses sha h e u true = false) :
    AwaitingPin (dbAfter sha c db l) u h e ∧
      wrongPins u (serveAll sha c db l) = l.countP (PinRequest.guesses sha h e u false) := by
  induction l generalizing db with
  | nil => exact ⟨ha, rfl⟩
  | cons r l ih =>
    simp only [serveAll, List.mem_cons, forall_eq_or_imp] at hi hl
    have hs : AwaitingPin (serve sha c r db).2 u h e ∧
        ((r.verifies u && (serve sha c r db).1.compared == some false) = r.guesses sha h e u false) := by
      by_cases hv : r.verifies u = true
      · obtain ⟨now, pin, rfl⟩ := exists_verify hv
        by_cases hn : now < e
        · have hp : pinHash sha pin ≠ h := by
            have := hl.1
            simpa [PinRequest.guesses, hn] using this
          rw [serve_verify_wrong ha hn hp]
          exact ⟨ha, by simp [PinRequest.verifies, PinRequest.guesses, hn, hp]⟩
        · rw [serve_verify_expired ha (Nat.not_lt.mp hn) pin]
          exact ⟨ha, by simp [PinRequest.guesses, hn]⟩
      · have hv : r.verifies u = false := Bool.eq_false_of_not_eq_true hv
        refine ⟨ha.of_row fun user hu => serve_keeps_row hv hi.1 hu, ?_⟩
        cases r with
        | register | resend => rfl
        | verify now v pin =>
          have hne : v ≠ u := by simpa [PinRequest.verifies] using hv
          simp [PinRequest.verifies, PinRequest.guesses, hne]
    obtain ⟨haw, hc⟩ := ih hs.1 hi.2 hl.2
    refine ⟨haw, ?_⟩
    rw [serveAll, wrongPins_cons, List.countP_cons, hc, ← hs.2]
    rfl

theorem wrongPins_of_verified (hv : Verified db u)
    (hi : ∀ o ∈ serveAll sha c db l, ¬ o.Issues u) : wrongPins u (serveAll sha c db l) = 0 := by
  induction l generalizing db with
  | nil => rfl
  | cons r l ih =>
    simp only [serveAll, List.mem_cons, forall_eq_or_imp] at hi
    have hs : Verified (serve sha c r db).2 u ∧
        (r.verifies u && (serve sha c r db).1.compared == some false) = false := by
      by_cases hr : r.verifies u = true
      · obtain ⟨now, pin, rfl⟩ := exists_verify hr
        rw [serve_verify_verified hv now pin]
        exact ⟨hv, by simp⟩
      · have hr : r.verifies u = false := Bool.eq_false_of_not_eq_true hr
        obtain ⟨user, hu, hve⟩ := hv
        exact ⟨⟨user, serve_keeps_row hr hi.1 hu, hve⟩, by simp [hr]⟩
    rw [serveAll, wrongPins_cons, ih hs.1 hi.2, Nat.zero_add]
    exact if_neg (Bool.eq_false_iff.mp hs.2)

def attemptsExceeded : ApiError :=
  .httpApp 429 .verificationAttemptsExceeded AppError.verificationAttemptsExceeded.defaultMessage

/-- The limit, for the requests of a window: at most five wrong PINs of `u` are compared, and after
five of them every verification request of `u` is turned away without a comparison. -/
structure AttemptLimit (u : ℕ) (os : List Outcome) : Prop where
  atMostFive : wrongPins u os ≤ 5
  later : ∀ pre o post, os = pre ++ o :: post → o.request.verifies u = true → 5 ≤ wrongPins u pre →
    o.compared = none ∧ o.result = .error attemptsExceeded

theorem AttemptLimit.of_later {os : List Outcome}
    (h : ∀ pre o post, os = pre ++ o :: post → o.request.verifies u = true → 5 ≤ wrongPins u pre →
      o.compared = none ∧ o.result = .error attemptsExceeded) : AttemptLimit u os := by
  refine ⟨?_, h⟩
  induction os using List.reverseRecOn with
  | nil => simp [wrongPins]
  | append_singleton os o ih =>
    have hle := ih fun pre o' post heq => h pre o' (post ++ [o]) (by rw [heq]; simp)
    rw [wrongPins_append]
    by_cases hv : o.request.verifies u = true
    · by_cases hf : 5 ≤ wrongPins u os
      · obtain ⟨hn, -⟩ := h os o [] rfl hv hf
        have : wrongPins u [o] = 0 := by simp [wrongPins, hn]
        omega
      · have : wrongPins u [o] ≤ 1 := List.countP_le_length
        omega
    · have : wrongPins u [o] = 0 := by simp [wrongPins, hv]
      omega

/-- After the PIN with hash `h`, good until `e`, user `u` sends no verification request once five
wrong PINs came in time, unless the right one came before. -/
def QuietAfterFive (sha : Sha256) (h : String) (e : Time) (u : ℕ) (rs : List PinRequest) : Prop :=
  ∀ l r l', rs = l ++ r :: l' → r.verifies u = true →
    (∃ r' ∈ l, r'.guesses sha h e u true = true) ∨ l.countP (PinRequest.guesses sha h e u false) < 5

theorem exists_first_right (hl : ∃ r ∈ l, r.guesses sha h e u true = true) :
    ∃ l₁ r l₂, l = l₁ ++ r :: l₂ ∧ r.guesses sha h e u true = true ∧
      ∀ r' ∈ l₁, r'.guesses sha h e u true = false := by
  obtain ⟨r, hr⟩ := Option.isSome_iff_exists.mp (List.find?_isSome.mpr hl)
  obtain ⟨hri, l₁, l₂, heq, hb⟩ := List.find?_eq_some_iff_append.mp hr
  exact ⟨l₁, r, l₂, heq, hri, fun r' hr' => by simpa using hb r' hr'⟩

theorem verifies_of_guesses {right : Bool} (hr : r.guesses sha h e u right = true) : r.verifies u = true := by
  cases r with
  | register | resend => cases hr
  | verify now v pin =>
    simp only [PinRequest.guesses, Bool.and_eq_true] at hr
    exact hr.1.1

theorem wrongPins_from_right (ha : AwaitingPin db u h e)
    (hr : r.guesses sha h e u true = true) (hi : ∀ o ∈ serveAll sha c db (r :: l), ¬ o.Issues u) :
    wrongPins u (serveAll sha c db (r :: l)) = 0 := by
  cases r with
  | register | resend => cases hr
  | verify now v pin =>
    simp only [PinRequest.guesses, Bool.and_eq_true, decide_eq_true_eq, beq_true] at hr
    obtain ⟨⟨rfl, hn⟩, hp⟩ := hr
    obtain ⟨hc, hv⟩ := serve_verify_right (c := c) ha hn hp
    rw [serveAll, wrongPins_cons, wrongPins_of_verified hv fun o ho => hi o (List.mem_cons_of_mem _ ho), hc]
    simp

theorem wrongPins_lt_five (ha : AwaitingPin db u h e) {l' : List PinRequest}
    (hq : QuietAfterFive sha h e u (l ++ r :: l')) (hr : r.verifies u = true)
    (hi : ∀ o ∈ serveAll sha c db l, ¬ o.Issues u) : wrongPins u (serveAll sha c db l) < 5 := by
  by_cases hri : ∃ r' ∈ l, r'.guesses sha h e u true = true
  · -- only the wrong PINs before the first right one were compared, and they were fewer than five
    obtain ⟨l₁, r₁, l₂, rfl, hr₁, hn⟩ := exists_first_right hri
    rw [serveAll_append] at hi ⊢
    obtain ⟨haw, hc⟩ := awaitingPin_dbAfter ha (fun o ho => hi o (List.mem_append_left _ ho)) hn
    have ht := wrongPins_from_right haw hr₁ fun o ho => hi o (List.mem_append_right _ ho)
    rw [wrongPins_append, hc, ht]
    rcases hq l₁ r₁ (l₂ ++ r :: l') (by simp) (verifies_of_guesses hr₁) with ⟨r', hr', hr'right⟩ | hf
    · rw [hn r' hr'] at hr'right
      cases hr'right
    · exact hf
  · have hn : ∀ r' ∈ l, r'.guesses sha h e u true = false := fun r' hr' =>
      Bool.eq_false_of_not_eq_true fun h' => hri ⟨r', hr', h'⟩
    rw [(awaitingPin_dbAfter ha hi hn).2]
    exact (hq l r l' rfl hr).resolve_left hri

theorem AwaitingPin.not_exceeded (ha : AwaitingPin db u h e) (hr : r.verifies u = true) :
    ¬ ((serve sha c r db).1.compared = none ∧ (serve sha c r db).1.result = .error attemptsExceeded) := by
  obtain ⟨now, pin, rfl⟩ := exists_verify hr
  by_cases hn : now < e
  · by_cases hp : pinHash sha pin = h
    · simp [(serve_verify_right ha hn hp).1]
    · simp [serve_verify_wrong ha hn hp]
  · simp [serve_verify_expired ha (Nat.not_lt.mp hn) pin, attemptsExceeded]

/-- In the window after request `r₀` issued a PIN to `u`, the attempt limit holds exactly when `u`
is quiet after five wrong PINs. -/
theorem pin_window_iff (sha : Sha256) (c : Client) (db : Db) (r₀ : PinRequest) (window : List PinRequest) (u : ℕ)
    (hissue : (serve sha c r₀ db).1.Issues u)
    (hwindow : ∀ o ∈ serveAll sha c (serve sha c r₀ db).2 window, ¬ o.Issues u) :
    AttemptLimit u (serveAll sha c (serve sha c r₀ db).2 window) ↔
      QuietAfterFive sha (pinHash sha r₀.drawn.1) (r₀.drawn.2 + pinLifetime) u window := by
  have ha := awaitingPin_of_issues hissue
  have hp : ∀ {l l'}, window = l ++ l' → ∀ o ∈ serveAll sha c (serve sha c r₀ db).2 l, ¬ o.Issues u := by
    intro l l' heq o ho
    refine hwindow o ?_
    rw [heq, serveAll_append]
    exact List.mem_append_left _ ho
  constructor
  · intro hl l r l' heq hr
    by_contra hn
    simp only [not_or, not_exists, not_and, Bool.not_eq_true, Nat.not_lt] at hn
    obtain ⟨ha', hc⟩ := awaitingPin_dbAfter ha (hp heq) hn.1
    subst heq
    exact ha'.not_exceeded hr (hl.later _ _ _ (serveAll_split _ l r l') hr (hc ▸ hn.2))
  · intro hq
    refine AttemptLimit.of_later fun pre o post heq ho hf => ?_
    obtain ⟨l, r, l', rfl, rfl, rfl⟩ := serveAll_eq_append heq
    exact absurd (wrongPins_lt_five ha hq ho (hp rfl)) (Nat.not_lt.mpr hf)

def paddingHash : Sha256 := ⟨fun b i => b.getD i 0⟩

def firstRegistration : PinRequest := .register 0 "user@example.com" none "271828"

theorem pin_window_two_guesses : (serve paddingHash {} firstRegistration {}).1.Issues 1 ∧
      AttemptLimit 1 (serveAll paddingHash {} (serve paddingHash {} firstRegistration {}).2
        [.verify 1 1 "000000", .verify 2 1 "271828"]) := by
  refine ⟨rfl, (pin_window_iff paddingHash {} {} firstRegistration _ 1 rfl fun o ho => ?_).mpr ?_⟩
  · simp only [serveAll, List.mem_cons, List.not_mem_nil, or_false] at ho
    rcases ho with rfl | rfl <;> simp [Outcome.Issues, serve]
  · intro l r l' heq _
    have hl := congrArg List.length heq
    simp only [List.length_cons, List.length_append, List.length_nil] at hl
    exact .inr (List.countP_le_length.trans_lt (by omega))

theorem six_wrong_pins_compared : (serve paddingHash {} firstRegistration {}).1.Issues 1 ∧
      ¬ AttemptLimit 1 (serveAll paddingHash {} (serve paddingHash {} firstRegistration {}).2
        (List.replicate 6 (.verify 1 1 "000000"))) :=
  ⟨rfl, fun hl => absurd hl.atMostFive (by decide)⟩

end McpworksApi.Auth
