import McpworksApi.Run.Dispatch

/-! Webhooks of agents. `acceptWebhook` is `handle_agent_webhook` up to the signature: it finds the webhook, checks that
its agent is running and checks the signature of a webhook that has a secret. `executeWebhookFunctionDirect` is the
function that runs a handler. -/

namespace McpworksApi.Agents

open Models Py Run Services Services.Functions Session

structure WebhookEnv where
  run : RunEnv
  str : Json → String

structure WebhookRequest where
  agentName : Option String
  path : String
  body : Option Bytes
  signature : Option String

inductive Refusal
  | response (status : ℕ) (detail : String)
  | error (e : ApiError)

def secretHash (sha : Sha256) (secret : Option String) : Option String :=
  match secret with
  | none => none
  | some s => if s = "" then none else some (sha.hexdigest (encode s))

def withSecret (sha : Sha256) (db : Db) (webhookId : ℕ) (secret : String) : Db :=
  { db with webhooks := db.webhooks.update webhookId fun w => { w with secretHash := secretHash sha (some secret) } }

def resolveWebhook (db : Db) (agentName path : String) : Except ApiError (Option AgentWebhook) :=
  scalarOneOrNone (db.webhooks.select fun w =>
    (db.agents.get? w.agentId).any (·.name = agentName) ∧ w.path = path ∧ w.enabled = true)

def compareDigest (a b : String) : Except ApiError Bool :=
  if a.toList.all (·.toNat < 128) ∧ b.toList.all (·.toNat < 128) then .ok (a = b)
  else .error (.py .typeError "comparing strings with non-ASCII characters is not supported")

def checkSignature (sha : Sha256) (webhook : AgentWebhook) (body : Bytes) (signature : Option String) :
    Except Refusal Unit :=
  if given webhook.secretHash then
    match compareDigest (signature.getD "") (sha.hexdigest body) with
    | .error e => .error (.error e)
    | .ok true => .ok ()
    | .ok false => .error (.response 401 "Invalid webhook signature")
  else .ok ()

def findWebhook (db : Db) (agentName path : String) : Except Refusal (AgentWebhook × Agent) :=
  match resolveWebhook db agentName path with
  | .error e => .error (.error e)
  | .ok none => .error (.response 404 ("Webhook path '/" ++ path ++ "' not found"))
  | .ok (some webhook) =>
    match db.agents.get? webhook.agentId with
    | some agent =>
      if agent.status = .running ∨ agent.status = .degraded then .ok (webhook, agent)
      else .error (.response 503 "Agent is not running")
    | none => .error (.response 503 "Agent is not running")

/-- `handle_agent_webhook` up to the signature. What follows the check reads the payload, the account and then the
lazily loaded `account.user`, which raises in an async session, so the accepted request is the last that it decides. -/
def acceptWebhook (sha : Sha256) (db : Db) (req : WebhookRequest) : Except Refusal (AgentWebhook × Agent) :=
  if !given req.agentName then .error (.response 404 "Not found")
  else
    match req.body with
    | none => .error (.response 400 "Failed to read request body")
    | some body => do
      let (webhook, agent) ← findWebhook db (req.agentName.getD "") req.path
      checkSignature sha webhook body req.signature
      pure (webhook, agent)

def errorObject (message : String) : Json := .obj [("error", .str message)]

/-- The text columns of a run take its error and its summary. -/
def endRunCheck (env : RunEnv) (error summary : Option String) : Except ApiError Unit :=
  if error.all (env.storable <| clip 1000 ·) && summary.all (env.storable <| clip 1000 ·) then .ok ()
  else .error (.py .dataError "invalid byte sequence for encoding \"UTF8\"")

def endRun (env : RunEnv) (runId : ℕ) (status : RunStatus) (error summary : Option String) : Api Unit := do
  fetch fun _ => endRunCheck env error summary
  write fun w => { w with db := { w.db with
    agentRuns := w.db.agentRuns.update runId fun r =>
      { r with status, error := error.map (clip 1000), resultSummary := summary.map (clip 1000) } } }

def executeWebhookFunctionDirect (env : WebhookEnv) (webhook : AgentWebhook) (agent : Agent) (payload : Json) :
    Api Json :=
  match splitOnce "." webhook.handlerFunctionName with
  | none => pure (errorObject ("Invalid function name format: " ++ webhook.handlerFunctionName))
  | some (service, function) => transaction (fun before after => { after with db := before.db }) do
    let runId ← query fun w => w.db.agentRuns.freshId
    write fun w => { w with db := { w.db with
      agentRuns := w.db.agentRuns.insert fun i =>
        { id := i, agentId := agent.id, triggerType := "webhook", triggerDetail := some ("webhook:" ++ webhook.path),
          functionName := some webhook.handlerFunctionName } } }
    match ← query fun w => getForExecution w.db agent.namespaceId service function with
    | .error e =>
      endRun env.run runId .failed (some e.text) none
      pure (errorObject e.text)
    | .ok (f, v) =>
      if env.run.sandbox.registered v.backend then
        let state ← query fun w =>
          (w.db.agentStates.select (·.agentId = agent.id)).map fun s => (s.key, s.value)
        let r ← executeFunction env.run.sandbox .python f v payload [] (some (stateContext state))
        if r.success then
          endRun env.run runId .completed none (if r.output.truthy then some (env.str r.output) else none)
          pure (.obj [("status", .str "ok"), ("output", r.output)])
        else
          let message := if given r.error then r.error.getD "" else "Unknown error"
          endRun env.run runId .failed (some message) none
          pure (errorObject message)
      else
        let message := "Backend not available: " ++ backendName v.backend
        endRun env.run runId .failed (some message) none
        pure (errorObject message)

structure Secret where
  text : String
  ne_empty : text ≠ ""

/-- The webhook takes the signature of the request. -/
def Accepts (sha : Sha256) (db : Db) (webhookId : ℕ) (req : WebhookRequest) : Prop :=
  ∃ webhook agent, acceptWebhook sha db req = .ok (webhook, agent) ∧ webhook.id = webhookId

/-- A request to the path of the agent gets as far as the signature of the webhook. -/
def Reaches (db : Db) (webhookId : ℕ) (agentName : Option String) (path : String) : Prop :=
  given agentName = true ∧ ∃ webhook agent, webhook.id = webhookId ∧
    resolveWebhook db (agentName.getD "") path = .ok (some webhook) ∧
    db.agents.get? webhook.agentId = some agent ∧ (agent.status = .running ∨ agent.status = .degraded)

section Signing

variable {sha : Sha256} {db : Db} {webhookId : ℕ} {agentName : Option String} {path : String} {body : Bytes}

theorem given_secretHash (sha : Sha256) (s : Secret) : given (secretHash sha (some s.text)) = true := by
  simp [secretHash, s.ne_empty, given, Sha256.hexdigest_ne_empty]

theorem resolveWebhook_withSecret {name s : String} :
    resolveWebhook (withSecret sha db webhookId s) name path = (resolveWebhook db name path).map
      (Option.map fun w => if w.id = webhookId then { w with secretHash := secretHash sha (some s) } else w) := by
  rw [resolveWebhook, resolveWebhook, ← scalarOneOrNone_map]
  congr 1
  exact Table.select_update_map (f := fun w : AgentWebhook => { w with secretHash := secretHash sha (some s) })
    (fun _ => rfl) fun _ => rfl

theorem checkSignature_eq_ok {hook : AgentWebhook} {sig : String}
    (hse : given hook.secretHash = true) :
    checkSignature sha hook body (some sig) = .ok () ↔ sig = sha.hexdigest body := by
  unfold checkSignature
  rw [if_pos hse, Option.getD_some]
  have ha : (sha.hexdigest body).toList.all (·.toNat < 128) = true := by
    simpa using sha.hexdigest_ascii body
  unfold compareDigest
  by_cases hs : sig = sha.hexdigest body
  · subst hs
    simp [ha]
  · by_cases hal : sig.toList.all (·.toNat < 128) = true
    · simp [ha, hal, hs]
    · simp [hal, hs]

theorem findWebhook_eq_ok {name : String} {hook : AgentWebhook} {ag : Agent} :
    findWebhook db name path = .ok (hook, ag) ↔ resolveWebhook db name path = .ok (some hook) ∧
      db.agents.get? hook.agentId = some ag ∧ (ag.status = .running ∨ ag.status = .degraded) := by
  unfold findWebhook
  rcases resolveWebhook db name path with e | _ | w
  · simp
  · simp
  · rcases ha : db.agents.get? w.agentId with _ | a
    · constructor
      · intro h
        simp [ha] at h
      · rintro ⟨h, h', -⟩
        cases h
        rw [ha] at h'
        cases h'
    · by_cases hs : a.status = .running ∨ a.status = .degraded
      · simp only [ha, hs, if_true, Except.ok.injEq, Prod.mk.injEq, Option.some.injEq]
        constructor
        · rintro ⟨rfl, rfl⟩
          exact ⟨rfl, ha, hs⟩
        · rintro ⟨rfl, h', -⟩
          rw [ha] at h'
          exact ⟨rfl, Option.some.inj h'⟩
      · simp only [ha, hs, if_false, reduceCtorEq, false_iff, not_and, Except.ok.injEq, Option.some.injEq]
        rintro rfl h'
        rw [ha] at h'
        cases h'
        exact hs

theorem acceptWebhook_eq_ok {sig : Option String} {hook : AgentWebhook} {ag : Agent} :
    acceptWebhook sha db ⟨agentName, path, some body, sig⟩ = .ok (hook, ag) ↔ given agentName = true ∧
      findWebhook db (agentName.getD "") path = .ok (hook, ag) ∧ checkSignature sha hook body sig = .ok () := by
  unfold acceptWebhook
  by_cases hn : given agentName = true
  · rw [if_neg (by simp [hn])]
    dsimp only
    constructor
    · intro h
      obtain ⟨⟨hook, ag⟩, hf, h⟩ := bind_eq_ok.mp h
      obtain ⟨⟨⟩, hs, h⟩ := bind_eq_ok.mp h
      cases h
      exact ⟨hn, hf, hs⟩
    · rintro ⟨-, hf, hs⟩
      exact bind_eq_ok.mpr ⟨_, hf, bind_eq_ok.mpr ⟨(), hs, rfl⟩⟩
  · rw [if_pos (by simp [hn])]
    simp [hn]

theorem accepts_withSecret_iff {s : Secret} {sig : String} :
    Accepts sha (withSecret sha db webhookId s.text) webhookId ⟨agentName, path, some body, some sig⟩ ↔
      Reaches db webhookId agentName path ∧ sig = sha.hexdigest body := by
  simp only [Accepts, acceptWebhook_eq_ok, findWebhook_eq_ok, resolveWebhook_withSecret]
  constructor
  · rintro ⟨hook, ag, ⟨hn, ⟨hr, ha, hs⟩, hsg⟩, hid⟩
    rcases hw : resolveWebhook db (agentName.getD "") path with e | _ | w
    · rw [hw] at hr
      cases hr
    · rw [hw] at hr
      cases hr
    · rw [hw] at hr
      simp only [Except.map, Option.map_some, Except.ok.injEq, Option.some.injEq] at hr
      by_cases hwi : w.id = webhookId
      · rw [if_pos hwi] at hr
        rw [← hr] at ha hsg
        exact ⟨⟨hn, w, ag, hwi, hw, ha, hs⟩, (checkSignature_eq_ok (given_secretHash sha s)).mp hsg⟩
      · rw [if_neg hwi] at hr
        exact absurd (hr ▸ hid) hwi
  · rintro ⟨⟨hn, hook, ag, hid, hr, ha, hs⟩, hsi⟩
    refine ⟨{ hook with secretHash := secretHash sha (some s.text) }, ag, ⟨hn, ⟨?_, ha, hs⟩, ?_⟩, hid⟩
    · rw [hr]
      simp [Except.map, hid]
    · exact (checkSignature_eq_ok (given_secretHash _ s)).mpr hsi

/-- No signature that depends on the body alone is accepted under both secrets exactly when no request to the path gets
as far as the signature of the webhook. -/
theorem signature_needs_secret_iff (sha : Sha256) (db : Db) (webhookId : ℕ) (agentName : Option String)
    (path : String) (body : Bytes) (s₁ s₂ : Secret) :
    (∀ sign : Bytes → String,
      ¬ (Accepts sha (withSecret sha db webhookId s₁.text) webhookId
          ⟨agentName, path, some body, some (sign body)⟩ ∧
        Accepts sha (withSecret sha db webhookId s₂.text) webhookId
          ⟨agentName, path, some body, some (sign body)⟩)) ↔
      ¬ Reaches db webhookId agentName path := by
  simp only [accepts_withSecret_iff]
  constructor
  · intro h hr
    exact h sha.hexdigest ⟨⟨hr, rfl⟩, hr, rfl⟩
  · rintro h sign ⟨⟨hr, -⟩, -⟩
    exact h hr

def webhookDb : Db where
  accounts := .single { id := 2, userId := 1 }
  agents := .single { id := 6, accountId := 2, namespaceId := 1, name := "acme", status := .running }
  webhooks := .single { id := 8, agentId := 6, path := "in", handlerFunctionName := "mail.send" }

/-- The hash of the body is accepted under two different secrets. -/
theorem body_hash_signs_for_both : Accepts plainEnv.sha (withSecret plainEnv.sha webhookDb 8 "alpha") 8
        ⟨some "acme", "in", some [123, 125], some (plainEnv.sha.hexdigest [123, 125])⟩ ∧
      Accepts plainEnv.sha (withSecret plainEnv.sha webhookDb 8 "beta") 8
        ⟨some "acme", "in", some [123, 125], some (plainEnv.sha.hexdigest [123, 125])⟩ := by
  have hr : Reaches webhookDb 8 (some "acme") "in" := ⟨by decide, _, _, rfl, rfl, rfl, .inl rfl⟩
  exact ⟨accepts_withSecret_iff (s := ⟨"alpha", by decide⟩).mpr ⟨hr, rfl⟩,
    accepts_withSecret_iff (s := ⟨"beta", by decide⟩).mpr ⟨hr, rfl⟩⟩

end Signing

end McpworksApi.Agents
