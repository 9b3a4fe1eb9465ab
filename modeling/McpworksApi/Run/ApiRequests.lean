import McpworksApi.Py.Hash
import McpworksApi.Py.Regex
import McpworksApi.Run.ApiProxy
import McpworksApi.Session.Retries

/-! The requests of one call through the REST proxy. Once a call is admitted, its path is filled in, its address is
checked, and the request is sent; a request to an idempotent method is sent again when it times out, fails or is
answered by a gateway error. -/

namespace McpworksApi.Run

open Models Py

def pathParameter : Regex :=
  .seq (.char (· = '\x7b')) (.seq (.plus (.char (· ≠ '\x7d'))) (.char (· = '\x7d')))

inductive PathError
  | missing (key : String)
  | raised (e : ApiError)

def lookupPath (path : Json) (key : String) : Except PathError Json :=
  match path with
  | .obj fields => (Args.get? fields key).elim (.error (.missing key)) .ok
  | .arr items =>
    if items.any (fun | .str s => s = key | _ => false) then
      .error (.raised (.py .typeError "list indices must be integers or slices, not str"))
    else .error (.missing key)
  | .str s =>
    if contains s key then .error (.raised (.py .typeError "string indices must be integers, not 'str'"))
    else .error (.missing key)
  | j => .error (.raised (.py .typeError ("argument of type '" ++ j.typeName ++ "' is not iterable")))

def fillPiece (path : Json) : Char ⊕ List Char → Except PathError (List Char)
  | .inl c => .ok [c]
  | .inr found => (lookupPath path (String.ofList found.tail.dropLast)).map (·.text.toList)

def buildPath (template : String) (path : Json) : Except PathError String := do
  let filled ← (pathParameter.pieces template.toList.length none template.toList).mapM (fillPiece path)
  pure (String.ofList filled.flatten)

def joinUrl (baseUrl relPath : String) : String :=
  String.ofList ((baseUrl.toList.reverse.dropWhile (· = '/')).reverse ++ '/' :: relPath.toList.dropWhile (· = '/'))

inductive UrlCheck
  | allowed
  | blocked (message : String)
  | raised (e : ApiError)

structure Response where
  status : ℕ
  content : Bytes
  contentType : String
  json : Except JsonError Json
  text : String

inductive Outcome
  | response (r : Response)
  | timeout (message : String)
  | httpError (message : String)
  | raised (e : ApiError)

structure ApiResponse where
  statusCode : ℕ
  jsonBody : Json := .null
  text : Option String := none
  contentType : String
  truncated : Bool

structure UpstreamEnv where
  headers : NamespaceApiServer → Args → Except ApiError Bool
  secrets : NamespaceApiServer → Option (List (String × String))
  assertUrlAllowed : String → UrlCheck
  decode : Bytes → String
  scan : Name .dns → Option ScannerPipeline → String → String

def readResponse (env : UpstreamEnv) (server : NamespaceApiServer) (r : Response) : Except ApiError ApiResponse :=
  let truncated : Bool := server.responseLimitBytes < r.content.length
  let result : ApiResponse := { statusCode := r.status, contentType := r.contentType, truncated }
  if contains r.contentType "application/json" && !truncated then
    match r.json with
    | .ok j => .ok { result with jsonBody := j }
    | .error .jsonDecodeError =>
      .ok { result with text := some (String.ofList (sliceTo server.responseLimitBytes r.text.toList)) }
    | .error (.other e) => .error e
  else .ok { result with text := some (env.decode (sliceTo server.responseLimitBytes r.content)) }

def idempotentMethods : List HttpMethod := [.get, .head, .put, .delete, .options]

def retryableStatuses : List ℕ := [502, 503, 504]

def retriesOnFailure (server : NamespaceApiServer) (endpoint : ApiEndpoint) : Bool :=
  server.retryOnFailure && endpoint.method ∈ idempotentMethods

def attemptsOf (server : NamespaceApiServer) (endpoint : ApiEndpoint) : ℕ :=
  (1 + if retriesOnFailure server endpoint then server.retryCount else 0).toNat

abbrev ApiAnswer := Except ApiError (Except ProxyError ApiResponse)

def afterRequest (env : UpstreamEnv) (server : NamespaceApiServer) (endpoint : ApiEndpoint) (attempt : ℕ) :
    Outcome → Retries.Decision ApiAnswer
  | .response r =>
    if retriesOnFailure server endpoint ∧ r.status ∈ retryableStatuses ∧ attempt + 1 < attemptsOf server endpoint then
      .again
    else .stop ((readResponse env server r).map .ok)
  | .timeout _ =>
    if attemptsOf server endpoint ≤ attempt + 1 then
      .stop (.ok (.error ⟨"timeout", "upstream timed out after " ++ toString server.timeoutSeconds ++ "s",
        "increase timeout_seconds"⟩))
    else .again
  | .httpError _ => .again
  | .raised e => .stop (.error e)

def Outcome.exception? : Outcome → Option String
  | .timeout message | .httpError message => some message
  | _ => none

structure ApiCall where
  sent : List Outcome := []
  answer : ApiAnswer

def sendRequests (env : UpstreamEnv) (server : NamespaceApiServer) (endpoint : ApiEndpoint) (upstream : ℕ → Outcome) :
    ApiCall :=
  let ending := Retries.loop (afterRequest env server endpoint) upstream (attemptsOf server endpoint) 0
  { sent := ending.tried
    answer := ending.result.getD (.ok (.error ⟨"upstream_error",
      "request failed: " ++ clip 200 ((ending.tried.filterMap Outcome.exception?).getLast?.getD "None"),
      "check the API host"⟩)) }

def pathArguments (args : Args) : Json := ((args.get? "path").getD .null).orElse (.obj [])

def performCall (env : UpstreamEnv) (server : NamespaceApiServer) (endpoint : ApiEndpoint) (args : Args)
    (upstream : ℕ → Outcome) : ApiCall :=
  match buildPath endpoint.path (pathArguments args) with
  | .error (.raised e) => { answer := .error e }
  | .error (.missing key) =>
    { answer := .ok (.error ⟨"upstream_error", "missing path parameter " ++ Py.repr key, "provide all path params"⟩) }
  | .ok relPath =>
    match env.assertUrlAllowed (joinUrl server.baseUrl relPath) with
    | .raised e => { answer := .error e }
    | .blocked message => { answer := .ok (.error ⟨"ssrf_blocked", message, "use a public API host"⟩) }
    | .allowed => sendRequests env server endpoint upstream

def ApiResponse.payload (r : ApiResponse) : Json :=
  .obj ([("status_code", .int r.statusCode), ("truncated", .bool r.truncated),
    ("content_type", .str r.contentType)] ++
    (match r.jsonBody with | .null => [] | j => [("json", j)]) ++
    (match r.text with | none => [] | some t => [("text", .str t)]))

def exchangeOf (sent : List Outcome) : Except ProxyError ApiResponse → Exchange
  | .ok r => .answered r.payload
  | .error e => if sent.isEmpty then .refused e else .failed e

def ApiCall.exchange (c : ApiCall) : Except ApiError Exchange := c.answer.map (exchangeOf c.sent)

def gatewayOf (env : UpstreamEnv) (upstream : ℕ → Outcome) : ApiGateway where
  headers := env.headers
  secrets := env.secrets
  exchange server endpoint args := (performCall env server endpoint args upstream).exchange
  scan := env.scan

structure ApiInvocation where
  namespaceId : ℕ
  passthroughEnv : List (String × String) := []
  apiCallsCount : ℤ := 0
  serverName : String
  operationId : String
  args : Args := []

def ApiInvocation.admitted (env : UpstreamEnv) (db : Db) (i : ApiInvocation) :
    Except ApiError (Except ProxyError (NamespaceApiServer × ApiEndpoint)) :=
  admitCall (gatewayOf env fun _ => .timeout "") db i.namespaceId i.passthroughEnv i.apiCallsCount
    i.serverName i.operationId i.args

def ApiInvocation.run (env : UpstreamEnv) (upstream : ℕ → Outcome) (db : Db) (i : ApiInvocation) : ApiCall :=
  match i.admitted env db with
  | .error e => { answer := .error e }
  | .ok (.error e) => { answer := .ok (.error e) }
  | .ok (.ok (server, endpoint)) => performCall env server endpoint i.args upstream

def ApiInvocation.AddressPasses (env : UpstreamEnv) (db : Db) (i : ApiInvocation) : Prop :=
  ∃ server endpoint relPath, i.admitted env db = .ok (.ok (server, endpoint)) ∧
    buildPath endpoint.path (pathArguments i.args) = .ok relPath ∧
      env.assertUrlAllowed (joinUrl server.baseUrl relPath) = .allowed

section Requests

variable {env : UpstreamEnv} {server : NamespaceApiServer} {endpoint : ApiEndpoint} {upstream : ℕ → Outcome}

theorem attemptsOf_eq_one (h : endpoint.method ∉ idempotentMethods) : attemptsOf server endpoint = 1 := by
  simp [attemptsOf, retriesOnFailure, h]

theorem attemptsOf_le (endpoint : ApiEndpoint) (h : 0 ≤ server.retryCount) :
    (attemptsOf server endpoint : ℤ) ≤ 1 + server.retryCount := by
  unfold attemptsOf
  split_ifs <;> omega

theorem length_sent_le (env : UpstreamEnv) (server : NamespaceApiServer) (endpoint : ApiEndpoint)
    (upstream : ℕ → Outcome) :
    (sendRequests env server endpoint upstream).sent.length ≤ attemptsOf server endpoint :=
  Retries.length_tried_le _ upstream _ 0

theorem response_of_stop {att : ℕ} {o : Outcome} {r : ApiResponse}
    (h : afterRequest env server endpoint att o = .stop (.ok (.ok r))) :
    ∃ received, o = .response received ∧ readResponse env server received = .ok r := by
  cases o with
  | response received =>
    refine ⟨received, rfl, ?_⟩
    simp only [afterRequest] at h
    split at h
    · cases h
    · injection h with h
      cases hr : readResponse env server received with
      | error e =>
        rw [hr] at h
        cases h
      | ok r' =>
        rw [hr] at h
        cases h
        rfl
  | timeout msg =>
    simp only [afterRequest] at h
    split at h <;> cases h
  | httpError msg => cases h
  | raised e => cases h

theorem answer_of_last {r : ApiResponse} (h : (sendRequests env server endpoint upstream).answer = .ok (.ok r)) :
    ∃ received, (sendRequests env server endpoint upstream).sent.getLast? = some (.response received) ∧
      readResponse env server received = .ok r := by
  unfold sendRequests at h ⊢
  dsimp only at h ⊢
  cases hr : (Retries.loop (afterRequest env server endpoint) upstream (attemptsOf server endpoint) 0).result with
  | none =>
    rw [hr] at h
    cases h
  | some result =>
    rw [hr] at h
    obtain ⟨k, -, -, hs, hl⟩ := Retries.stopped_last hr
    cases h
    obtain ⟨received, hre, hrd⟩ := response_of_stop hs
    rw [hre] at hl
    exact ⟨received, hl, hrd⟩

theorem performCall_cases (env : UpstreamEnv) (server : NamespaceApiServer) (endpoint : ApiEndpoint) (args : Args)
    (upstream : ℕ → Outcome) :
    ((performCall env server endpoint args upstream).sent = [] ∧
        ∀ r, (performCall env server endpoint args upstream).answer ≠ .ok (.ok r)) ∨
      (performCall env server endpoint args upstream = sendRequests env server endpoint upstream ∧
        ∃ rel, buildPath endpoint.path (pathArguments args) = .ok rel ∧
          env.assertUrlAllowed (joinUrl server.baseUrl rel) = .allowed) := by
  unfold performCall
  cases hp : buildPath endpoint.path (pathArguments args) with
  | error e =>
    cases e with
    | missing key => exact .inl ⟨rfl, fun r h => by cases h⟩
    | raised e => exact .inl ⟨rfl, fun r h => by cases h⟩
  | ok rel =>
    dsimp only
    cases hu : env.assertUrlAllowed (joinUrl server.baseUrl rel) with
    | allowed => exact .inr ⟨rfl, rel, rfl, hu⟩
    | blocked msg => exact .inl ⟨rfl, fun r h => by cases h⟩
    | raised e => exact .inl ⟨rfl, fun r h => by cases h⟩

end Requests

section Calls

variable {env : UpstreamEnv} {upstream : ℕ → Outcome} {db : Db} {i : ApiInvocation}

theorem ApiInvocation.run_of_admitted {server : NamespaceApiServer} {endpoint : ApiEndpoint}
    (h : i.admitted env db = .ok (.ok (server, endpoint))) :
    i.run env upstream db = performCall env server endpoint i.args upstream := by
  unfold ApiInvocation.run
  rw [h]

theorem ApiInvocation.run_of_refused (h : ∀ target, i.admitted env db ≠ .ok (.ok target)) :
    (i.run env upstream db).sent = [] ∧ ∀ r, (i.run env upstream db).answer ≠ .ok (.ok r) := by
  unfold ApiInvocation.run
  rcases ha : i.admitted env db with e | e | target
  · exact ⟨rfl, fun r hr => by cases hr⟩
  · exact ⟨rfl, fun r hr => by cases hr⟩
  · exact absurd ha (h target)

/-- What is said of one call: no request before the address has passed, one request at most for a method that is not
idempotent, one and the retries at most for any, and a response only from the last request. -/
structure SendsWithin (env : UpstreamEnv) (upstream : ℕ → Outcome) (db : Db) (i : ApiInvocation) : Prop where
  none_before : ¬ i.AddressPasses env db → (i.run env upstream db).sent = []
  once : ∀ server endpoint, i.admitted env db = .ok (.ok (server, endpoint)) → endpoint.method ∉ idempotentMethods →
    (i.run env upstream db).sent.length ≤ 1
  bounded : ∀ server endpoint, i.admitted env db = .ok (.ok (server, endpoint)) →
    ((i.run env upstream db).sent.length : ℤ) ≤ 1 + server.retryCount
  last : ∀ r, (i.run env upstream db).answer = .ok (.ok r) → ∃ server endpoint received,
    i.admitted env db = .ok (.ok (server, endpoint)) ∧
      (i.run env upstream db).sent.getLast? = some (.response received) ∧ readResponse env server received = .ok r

/-- Every call sends at most what it may, whatever comes of its requests. -/
theorem api_call_sends_within (env : UpstreamEnv) (upstream : ℕ → Outcome) (db : Db) (i : ApiInvocation)
    (hretry : ∀ server endpoint, i.admitted env db = .ok (.ok (server, endpoint)) → 0 ≤ server.retryCount) :
    SendsWithin env upstream db i := by
  have hl {server : NamespaceApiServer} {endpoint : ApiEndpoint}
      (h : i.admitted env db = .ok (.ok (server, endpoint))) :
      (i.run env upstream db).sent.length ≤ attemptsOf server endpoint := by
    rw [ApiInvocation.run_of_admitted h]
    rcases performCall_cases env server endpoint i.args upstream with ⟨hs, -⟩ | ⟨hal, -⟩
    · rw [hs]
      exact Nat.zero_le _
    · rw [hal]
      exact length_sent_le env server endpoint upstream
  refine ⟨?_, ?_, ?_, ?_⟩
  · intro hf
    by_cases ha : ∃ target, i.admitted env db = .ok (.ok target)
    · obtain ⟨⟨server, endpoint⟩, h⟩ := ha
      rw [ApiInvocation.run_of_admitted h]
      rcases performCall_cases env server endpoint i.args upstream with ⟨hs, -⟩ | ⟨-, relPath, hp, hu⟩
      · exact hs
      · exact absurd ⟨server, endpoint, relPath, h, hp, hu⟩ hf
    · exact (ApiInvocation.run_of_refused fun target h => ha ⟨target, h⟩).1
  · intro server endpoint h hm
    have hb := hl h
    rwa [attemptsOf_eq_one hm] at hb
  · intro server endpoint h
    have hb := attemptsOf_le endpoint (hretry server endpoint h)
    have := hl h
    omega
  · intro r han
    by_cases ha : ∃ target, i.admitted env db = .ok (.ok target)
    · obtain ⟨⟨server, endpoint⟩, h⟩ := ha
      rw [ApiInvocation.run_of_admitted h] at han ⊢
      rcases performCall_cases env server endpoint i.args upstream with ⟨-, hn⟩ | ⟨hal, -⟩
      · exact absurd han (hn r)
      · rw [hal] at han ⊢
        obtain ⟨received, hla, hr⟩ := answer_of_last han
        exact ⟨server, endpoint, received, h, hla, hr⟩
    · exact absurd han ((ApiInvocation.run_of_refused fun target h => ha ⟨target, h⟩).2 r)

def plainUpstreamEnv : UpstreamEnv where
  headers _ _ := .ok true
  secrets _ := some []
  assertUrlAllowed _ := .allowed
  decode _ := ""
  scan _ _ text := text

def apiDb (method : HttpMethod) : Db :=
  { apiServers := .single { id := 1, namespaceId := 1, name := "billing", baseUrl := "https://api.example.com" }
    apiEndpoints := .single { id := 2, apiServerId := 1, operationId := "invoices", method, path := "/invoices",
                              enabled := true } }

def invoices : ApiInvocation := { namespaceId := 1, serverName := "billing", operationId := "invoices" }

def unavailable : Outcome := .response { status := 503, content := [], contentType := "", json := .ok .null, text := "" }

theorem unavailable_sends_within :
    (invoices.run plainUpstreamEnv (fun _ => unavailable) (apiDb .get)).sent.length = 3 ∧
      (invoices.run plainUpstreamEnv (fun _ => unavailable) (apiDb .post)).sent.length = 1 ∧
      SendsWithin plainUpstreamEnv (fun _ => unavailable) (apiDb .get) invoices ∧
      SendsWithin plainUpstreamEnv (fun _ => unavailable) (apiDb .post) invoices := by
  have hr (meth : HttpMethod) (server : NamespaceApiServer) (endpoint : ApiEndpoint)
      (h : invoices.admitted plainUpstreamEnv (apiDb meth) = .ok (.ok (server, endpoint))) :
      0 ≤ server.retryCount := by
    cases h
    decide
  exact ⟨by rfl, by rfl, api_call_sends_within _ _ _ _ (hr .get), api_call_sends_within _ _ _ _ (hr .post)⟩

end Calls

end McpworksApi.Run
