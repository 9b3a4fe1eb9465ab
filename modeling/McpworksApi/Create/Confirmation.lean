import McpworksApi.Create.Tools
import McpworksApi.Models.Accounts
import McpworksApi.Session.Process
import McpworksApi.Store.Redis

/-! The gates in front of the management tools, and the confirmation tokens of the destructive ones. Each Redis command
is one step of the calling process, so that calls interleave between the commands. -/

namespace McpworksApi.Create

open Models Py Redis

structure CreateHandler where
  namespaceName : String
  account : Account
  apiKey : ApiKey
  agent : Option Agent := none

def forbidden (message : String) : ApiError := .app .forbidden message

def checkScope (h : CreateHandler) (tool : Tool) : Except ApiError Unit :=
  if h.apiKey.hasScope tool.scope then .ok ()
  else .error (.py .valueError
    ("API key missing required scope '" ++ tool.scope ++ "' for tool '" ++ tool.name ++ "'"))

def tierName : ToolTier → String
  | .executeOnly => "execute_only"
  | .standard => "standard"
  | .builder => "builder"
  | .admin => "admin"

def authorizeAgentTool (h : CreateHandler) (tool : Tool) : Except ApiError Unit :=
  match h.agent with
  | none => .ok ()
  | some agent =>
    if Access.isToolAllowed agent.toolTier tool.name then .ok ()
    else .error (forbidden ("Agent '" ++ agent.name ++ "' (tier: " ++ tierName agent.toolTier ++
      ") is not authorized to call '" ++ tool.name ++ "'"))

abbrev RedisProc := Proc Command Reply ApiError

def check (r : Except ApiError Unit) : RedisProc Unit := .ret r

def isRateLimited (key : String) (limit window : ℕ) : RedisProc (Bool × ℤ) := do
  match ← Proc.perform (.incr key) with
  | .int current =>
    if current = 1 then
      let _ ← Proc.perform (.expire key window)
      pure (decide ((limit : ℤ) < current), current)
    else pure (decide ((limit : ℤ) < current), current)
  | .error m => Proc.fail (.py .responseError m)
  | _ => Proc.fail (.py .responseError "unexpected reply")

def checkManagementRateLimit (h : CreateHandler) (tool : Tool) : RedisProc Unit :=
  match Access.managementRateLimit tool.name with
  | none => pure ()
  | some (limit, window) => do
    let (limited, current) ← isRateLimited ("mgmt:" ++ toString h.account.id ++ ":" ++ tool.name) limit window
    if limited then
      Proc.fail (forbidden ("Rate limit exceeded for " ++ tool.name ++ ": " ++ toString limit ++ " calls per " ++
        toString window ++ "s (current: " ++ toString current ++ ")"))
    else pure ()

def confirmTarget (args : Args) : Json :=
  (args.get? "name").getD ((args.get? "agent_name").getD (.str "unknown"))

def confirmToken (args : Args) : Option Json :=
  match args.get? "confirmation_token" with
  | some .null => none
  | t => t

def confirmKey (fmt : Json → String) (account : ℕ) (tool : Tool) (target : Json) : String :=
  "confirm:" ++ toString account ++ ":" ++ tool.name ++ ":" ++ fmt target

structure ConfirmationRequired where
  confirmationToken : String
  expiresIn : ℕ
  message : String

def confirmationMatches (stored : Reply) (token : Json) : Except ApiError Bool :=
  match stored with
  | .nil => .ok false
  | .str s => if s = "" then .ok false else .error (.py .attributeError "'str' object has no attribute 'decode'")
  | .bytes b =>
    match token with
    | .str t => .ok (decide (b ≠ [] ∧ b = encode t))
    | _ => .ok false
  | .ok => .ok false
  | .int _ => .error (.py .attributeError "'int' object has no attribute 'decode'")
  | .error m => .error (.py .responseError m)

def redeem (key : String) (token : Json) (stored : Reply) : RedisProc (Option ConfirmationRequired) :=
  match confirmationMatches stored token with
  | .error e => Proc.fail e
  | .ok true => do
    let _ ← Proc.perform (.delete key)
    pure none
  | .ok false => Proc.fail (forbidden "Invalid or expired confirmation token")

def checkConfirmationToken (fmt : Json → String) (h : CreateHandler) (newToken : String) (tool : Tool) (args : Args) :
    RedisProc (Option ConfirmationRequired) :=
  if !Access.requiresConfirmation tool.name then pure none
  else
    let key := confirmKey fmt h.account.id tool (confirmTarget args)
    match confirmToken args with
    | some token => do
      let stored ← Proc.perform (.get key)
      redeem key token stored
    | none => do
      let _ ← Proc.perform (.setex key 60 newToken)
      pure (some
        { confirmationToken := newToken
          expiresIn := 60
          message := tool.name ++ "('" ++ fmt (confirmTarget args) ++ "') is irreversible. " ++
            "Call again with confirmation_token to proceed." })

structure Call where
  handler : CreateHandler
  tool : Tool
  args : Args
  newToken : String

def dispatchGates (fmt : Json → String) (c : Call) : RedisProc (Option ConfirmationRequired) := do
  check (checkScope c.handler c.tool)
  check (authorizeAgentTool c.handler c.tool)
  checkManagementRateLimit c.handler c.tool
  checkConfirmationToken fmt c.handler c.newToken c.tool c.args

section Single

variable {fmt : Json → String} {c : Call}

def IsGet : Command → Prop
  | .get _ => True
  | _ => False

def Decoded (_ : Command) (r : Reply) : Prop := r.IsDecoded

def Proceeds (x : Except ApiError (Option ConfirmationRequired)) : Prop := x = .ok none

def Fails {α : Type} (x : Except ApiError α) : Prop := ∃ e, x = .error e

theorem redeem_fails {sto : Reply} (h : sto.IsDecoded) (key : String) (tk : Json) :
    ∃ e, redeem key tk sto = .ret (.error e) := by
  have hno : confirmationMatches sto tk ≠ .ok true := by
    cases sto with
    | bytes b => exact h.elim
    | str s => by_cases hs : s = "" <;> simp [confirmationMatches, hs]
    | nil | ok | int | error => simp [confirmationMatches]
  unfold redeem
  rcases hm : confirmationMatches sto tk with e | b
  · exact ⟨e, rfl⟩
  · cases b with
    | true => exact absurd hm hno
    | false => exact ⟨_, rfl⟩

theorem isRateLimited_avoids_get (key : String) (lim window : ℕ) :
    (isRateLimited key lim window).EndsAt Decoded IsGet fun _ => False := by
  refine Proc.EndsAt.bind (Proc.EndsAt.perform id) fun reply => ?_
  cases reply with
  | int cur =>
    dsimp only
    split
    · exact Proc.EndsAt.bind (Proc.EndsAt.perform id) fun _ => trivial
    · trivial
  | nil | ok | str | bytes | error => trivial

theorem checkManagementRateLimit_avoids_get (h : CreateHandler) (tool : Tool) :
    (checkManagementRateLimit h tool).EndsAt Decoded IsGet fun _ => False := by
  unfold checkManagementRateLimit
  split
  · trivial
  · refine Proc.EndsAt.bind (isRateLimited_avoids_get _ _ _) fun lim => ?_
    dsimp only
    split <;> trivial

theorem checkConfirmationToken_ends_at_get (h : CreateHandler) (nt : String) (tool : Tool) (args : Args) :
    (checkConfirmationToken fmt h nt tool args).EndsAt Decoded IsGet Fails := by
  unfold checkConfirmationToken
  split
  · trivial
  dsimp only
  split
  · rename_i token _
    intro stored hs
    obtain ⟨e, he⟩ := redeem_fails hs (confirmKey fmt h.account.id tool (confirmTarget args)) token
    change Proc.EndsAt _ _ _ (redeem _ token stored) ∧ (_ → ∃ x, redeem _ token stored = _ ∧ _)
    rw [he]
    exact ⟨trivial, fun _ => ⟨_, rfl, e, rfl⟩⟩
  · exact Proc.EndsAt.bind (Proc.EndsAt.perform id) fun _ => trivial

theorem dispatchGates_ends_at_get (fmt : Json → String) (c : Call) :
    (dispatchGates fmt c).EndsAt Decoded IsGet Fails := by
  refine Proc.EndsAt.bind trivial fun _ => Proc.EndsAt.bind trivial fun _ => ?_
  exact Proc.EndsAt.bind (checkManagementRateLimit_avoids_get _ _) fun _ =>
    checkConfirmationToken_ends_at_get _ _ _ _

theorem checkConfirmationToken_never_proceeds (h : CreateHandler) (nt : String) {tool : Tool} (args : Args)
    (ht : Access.requiresConfirmation tool.name = true) :
    (checkConfirmationToken fmt h nt tool args).All Decoded fun x => ¬ Proceeds x := by
  unfold checkConfirmationToken
  rw [ht, if_neg (by simp)]
  dsimp only
  split
  · rename_i token _
    intro stored hs
    obtain ⟨e, he⟩ := redeem_fails hs (confirmKey fmt h.account.id tool (confirmTarget args)) token
    change Proc.All _ _ (redeem _ token stored)
    rw [he]
    exact fun hp => by cases hp
  · intro r _ hp
    cases hp

theorem dispatchGates_never_proceeds (fmt : Json → String) {c : Call}
    (hc : Access.requiresConfirmation c.tool.name = true) :
    (dispatchGates fmt c).All Decoded fun x => ¬ Proceeds x := by
  have hg : ∀ m : RedisProc Unit, m.All Decoded fun _ => True := Proc.All.of_forall fun _ => trivial
  have he : ∀ e : ApiError, True → ¬ Proceeds (.error e) := fun e _ hp => by cases hp
  refine Proc.All.bind (hg _) (fun _ _ => ?_) he
  refine Proc.All.bind (hg _) (fun _ _ => ?_) he
  refine Proc.All.bind (hg _) (fun _ _ => ?_) he
  exact checkConfirmationToken_never_proceeds _ _ _ hc

end Single

abbrev Calls := System Store Command Reply ApiError (Option ConfirmationRequired)

def start (fmt : Json → String) (store : Store) (calls : List Call) : Calls where
  store := store
  procs := calls.map (dispatchGates fmt)

def Presents (fmt : Json → String) (calls : List Call) (e₀ e : Event Command Reply) : Prop :=
  ∃ c₀ c, calls[e₀.thread]? = some c₀ ∧ calls[e.thread]? = some c ∧
    e₀.command = .setex (confirmKey fmt c₀.handler.account.id c₀.tool (confirmTarget c₀.args)) 60 c₀.newToken ∧
    e.command = .get (confirmKey fmt c.handler.account.id c.tool (confirmTarget c.args)) ∧
    c.handler.account.id = c₀.handler.account.id ∧ c.tool = c₀.tool ∧ confirmTarget c.args = confirmTarget c₀.args ∧
    confirmToken c.args = some (.str c₀.newToken) ∧ e.time < e₀.time + 60 * second

def Authorised (s : Calls) (i : ℕ) : Prop := ∃ x, s.procs[i]? = some (.ret x) ∧ Proceeds x

def FirstPresentation (fmt : Json → String) (calls : List Call) (s : Calls) (e₀ e : Event Command Reply) : Prop :=
  ∃ a b d, s.trace = a ++ e₀ :: (b ++ e :: d) ∧ Presents fmt calls e₀ e ∧ ∀ e' ∈ b, ¬ Presents fmt calls e₀ e'

/-- The law of confirmation tokens, for a run: a token authorises the first call that presents it
for its tool and target in time, and nothing else is authorised. -/
structure ConfirmationLaw (fmt : Json → String) (calls : List Call) (s : Calls) : Prop where
  first : ∀ e₀ e, FirstPresentation fmt calls s e₀ e →
    ∀ x, s.procs[e.thread]? = some (.ret x) → Proceeds x
  only : ∀ i, Authorised s i → ∃ e₀ e, FirstPresentation fmt calls s e₀ e ∧ e.thread = i

theorem Presents.isGet {fmt : Json → String} {cs : List Call} {e₀ e : Event Command Reply}
    (h : Presents fmt cs e₀ e) : IsGet e.command := by
  obtain ⟨_, _, -, -, -, hg, -⟩ := h
  rw [hg]
  trivial

theorem exists_firstPresentation {fmt : Json → String} {cs : List Call} {s : Calls} {e₀ e : Event Command Reply}
    {a b d : List (Event Command Reply)} (ht : s.trace = a ++ e₀ :: (b ++ e :: d))
    (hp : Presents fmt cs e₀ e) : ∃ e', FirstPresentation fmt cs s e₀ e' := by
  classical
  obtain ⟨e', he'⟩ := Option.isSome_iff_exists.mp (List.find?_isSome (p := fun e' => decide (Presents fmt cs e₀ e'))
    |>.mpr ⟨e, show e ∈ b ++ e :: d by simp, by simpa using hp⟩)
  obtain ⟨hp', b', d', heq, hb⟩ := List.find?_eq_some_iff_append.mp he'
  exact ⟨e', a, b', d', by rw [ht, heq], by simpa using hp', fun x hx => by simpa using hb x hx⟩

theorem start_never_proceeds (fmt : Json → String) (store : Store) {cs : List Call}
    (hca : ∀ c ∈ cs, Access.requiresConfirmation c.tool.name = true) :
    ∀ p ∈ (start fmt store cs).procs, p.All Decoded fun x => ¬ Proceeds x := by
  intro p hp
  obtain ⟨c, hc, rfl⟩ := List.mem_map.mp hp
  exact dispatchGates_never_proceeds fmt (hca c hc)

theorem start_ends_at_get (fmt : Json → String) (store : Store) (cs : List Call) :
    ∀ p ∈ (start fmt store cs).procs, p.EndsAt Decoded IsGet Fails := by
  intro p hp
  obtain ⟨c, -, rfl⟩ := List.mem_map.mp hp
  exact dispatchGates_ends_at_get fmt c

/-- With a decoding client the law holds in a run exactly when no call presents, in time, a token
that was issued for its tool and target. -/
theorem confirmationLaw_iff (fmt : Json → String) (store : Store) (calls : List Call) (schedule : List (ℕ × ℕ))
    (hcalls : ∀ c ∈ calls, Access.requiresConfirmation c.tool.name = true) :
    ConfirmationLaw fmt calls ((start fmt store calls).run (exec true) schedule) ↔
      ∀ a e₀ b e d, ((start fmt store calls).run (exec true) schedule).trace = a ++ e₀ :: (b ++ e :: d) →
        ¬ Presents fmt calls e₀ e := by
  have hP : ∀ t c st, Decoded c (exec true t c st).1 := fun t c st => exec_isDecoded t c st
  have hn := System.run_all hP (start_never_proceeds fmt store hcalls) schedule
  have he := System.run_endsAt hP (start_ends_at_get fmt store calls) rfl schedule
  constructor
  · intro hl a e₀ b e d ht hp
    obtain ⟨e', hf⟩ := exists_firstPresentation ht hp
    obtain ⟨a', b', d', ht', hp', -⟩ := id hf
    obtain ⟨x, hx, her, rfl⟩ := he e' (by simp [ht']) hp'.isGet
    exact (by simp [Proceeds] : ¬ Proceeds (.error her)) (hl.first e₀ e' hf _ hx)
  · intro hno
    refine ⟨fun e₀ e hf => ?_, fun i ha => ?_⟩
    · obtain ⟨a, b, d, ht, hp, -⟩ := hf
      exact absurd hp (hno a e₀ b e d ht)
    · obtain ⟨x, hx, hpr⟩ := ha
      exact absurd hpr (hn _ (List.mem_of_getElem? hx))

section Instances

def plainText : Json → String
  | .str s => s
  | _ => ""

def owner : CreateHandler where
  namespaceName := "acme"
  account := { id := 2, userId := 1 }
  apiKey := { id := 3, userId := 1, keyHash := "", keyPrefix := "" }

def destroyTwice : List Call :=
  [⟨owner, .destroyAgent, [("agent_name", .str "bot")], "tok"⟩,
    ⟨owner, .destroyAgent, [("agent_name", .str "bot"), ("confirmation_token", .str "tok")], "unused"⟩]

def oneAfterTheOther : List (ℕ × ℕ) := [(0, 1), (0, 2), (0, 3), (1, 4), (1, 5)]

def destroyed : Calls := (start plainText (fun _ => none) destroyTwice).run (exec true) oneAfterTheOther

theorem destroyed_trace : destroyed.trace =
    [⟨0, 1, .incr "mgmt:2:destroy_agent", .int 1⟩, ⟨0, 2, .expire "mgmt:2:destroy_agent" 3600, .int 1⟩,
      ⟨0, 3, .setex "confirm:2:destroy_agent:bot" 60 "tok", .ok⟩, ⟨1, 4, .incr "mgmt:2:destroy_agent", .int 2⟩,
      ⟨1, 5, .get "confirm:2:destroy_agent:bot", .str "tok"⟩] := rfl

theorem destroyed_firstPresentation :
    ∃ e₀ e, FirstPresentation plainText destroyTwice destroyed e₀ e ∧ e.thread = 1 := by
  refine ⟨_, _, ⟨[_, _], [_], [], destroyed_trace, ?_, ?_⟩, rfl⟩
  · exact ⟨_, _, rfl, rfl, rfl, rfl, rfl, rfl, rfl, rfl, by decide⟩
  · rintro e he ⟨_, _, -, -, -, hg, -⟩
    obtain rfl := List.mem_singleton.mp he
    cases hg

/-- The token is presented two microseconds after it was issued, and the call fails. -/
theorem fresh_confirmation_refused :
    destroyed.procs[1]? = some (.ret (.error (.py .attributeError "'str' object has no attribute 'decode'"))) ∧
      ¬ ConfirmationLaw plainText destroyTwice destroyed := by
  refine ⟨rfl, fun hl => ?_⟩
  obtain ⟨e₀, e, hf, ht⟩ := destroyed_firstPresentation
  have hp := hl.first e₀ e hf _ (by rw [ht]; rfl)
  cases hp

theorem confirmationLaw_without_presentation :
    (∀ c ∈ destroyTwice, Access.requiresConfirmation c.tool.name = true) ∧
      ConfirmationLaw plainText destroyTwice
        ((start plainText (fun _ => none) destroyTwice).run (exec true) (oneAfterTheOther.take 4)) := by
  have hca : ∀ c ∈ destroyTwice, Access.requiresConfirmation c.tool.name = true := by
    intro c hc
    fin_cases hc <;> rfl
  refine ⟨hca, (confirmationLaw_iff _ _ _ _ hca).mpr fun a e₀ b e d ht hp => ?_⟩
  -- no `GET` has been executed yet
  have he : e ∈ destroyed.trace.take 4 := by
    have : e ∈ a ++ e₀ :: (b ++ e :: d) := by simp
    rwa [← ht] at this
  have hg := hp.isGet
  rw [destroyed_trace] at he
  fin_cases he <;> exact hg

end Instances

end McpworksApi.Create
