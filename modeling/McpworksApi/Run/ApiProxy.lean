import McpworksApi.Run.Sandbox

/-! The proxy through which the REST APIs of a namespace are called (`core/api_proxy.py`). It looks up the server by
its name within the namespace and the endpoint by its operation, whoever calls; what the caller was offered plays no
part. -/

namespace McpworksApi.Run

open Models Py Session

structure ProxyError where
  error : String
  reason : String
  action : String
  deriving DecidableEq, Repr

/-- How an exchange with a server ends: it is refused before anything is sent (a path parameter is
missing, or the address is not allowed), it fails, or there is an answer. -/
inductive Exchange
  | refused (e : ProxyError)
  | failed (e : ProxyError)
  | answered (payload : Json)

structure ApiGateway where
  headers : NamespaceApiServer → Args → Except ApiError Bool
  secrets : NamespaceApiServer → Option (List (String × String))
  exchange : NamespaceApiServer → ApiEndpoint → Args → Except ApiError Exchange
  scan : Name .dns → Option ScannerPipeline → String → String

def resolveServer (db : Db) (namespaceId : ℕ) (serverName : String) :
    Except ApiError (Except ProxyError NamespaceApiServer) := do
  match ← scalarOneOrNone (db.apiServers.select fun s => s.namespaceId = namespaceId ∧ s.name = serverName) with
  | none => pure (.error ⟨"endpoint_not_found", "API server '" ++ serverName ++ "' not found", "check name"⟩)
  | some server =>
    if server.enabled then pure (.ok server)
    else pure (.error ⟨"endpoint_disabled", "API server '" ++ serverName ++ "' is disabled", "enable it"⟩)

def resolveOperation (db : Db) (server : NamespaceApiServer) (serverName operationId : String) :
    Except ApiError (Except ProxyError ApiEndpoint) := do
  match ← scalarOneOrNone
      (db.apiEndpoints.select fun e => e.apiServerId = server.id ∧ e.operationId = operationId) with
  | none =>
    pure (.error ⟨"endpoint_not_found", "endpoint '" ++ operationId ++ "' not found on '" ++ serverName ++ "'",
      "list_endpoints to see available operations"⟩)
  | some endpoint =>
    if endpoint.enabled || endpoint.published then pure (.ok endpoint)
    else
      pure (.error ⟨"endpoint_disabled", "endpoint '" ++ operationId ++
        "' is disabled", "enable_endpoint before calling it"⟩)

def Injection.value (secrets passthroughEnv : List (String × String)) (i : Injection) : Option String :=
  match i.source with
  | .stored => secrets.lookup i.name
  | .passthrough => if given i.envVar then passthroughEnv.lookup (i.envVar.getD "") else none

def missingCredential (secrets passthroughEnv : List (String × String)) (auth : List Injection) : Option String :=
  (auth.find? fun i => (Injection.value secrets passthroughEnv i).isNone).map (·.name)

def credentialError (auth : List Injection) (name : String) : ProxyError :=
  let envVar := (auth.find? (·.name = name)).bind (·.envVar)
  ⟨"missing_credential", "credential '" ++ name ++ "' unavailable",
    if given envVar then "set " ++ envVar.getD "" ++ " in execution env" else "set credential '" ++ name ++ "'"⟩

def checkRequest (gateway : ApiGateway) (server : NamespaceApiServer) (passthroughEnv : List (String × String))
    (apiCallsCount : ℤ) (args : Args) : Except ApiError (Except ProxyError Unit) := do
  if server.maxCallsPerExecution ≤ apiCallsCount then
    pure (.error ⟨"max_calls_exceeded",
      "exceeded " ++ toString server.maxCallsPerExecution ++ " API calls for this execution",
      "reduce calls or raise max_calls_per_execution"⟩)
  else if ← gateway.headers server args then
    match gateway.secrets server with
    | none => pure (.error ⟨"upstream_error", "failed to decrypt credentials", "re-set credentials"⟩)
    | some secrets =>
      match missingCredential secrets passthroughEnv server.auth with
      -- a credential with an empty name is not missed
      | some name => pure (if name = "" then .ok () else .error (credentialError server.auth name))
      | none => pure (.ok ())
  else pure (.error ⟨"upstream_error", "failed to decrypt default headers", "re-add the server"⟩)

def admitCall (gateway : ApiGateway) (db : Db) (namespaceId : ℕ) (passthroughEnv : List (String × String))
    (apiCallsCount : ℤ) (serverName operationId : String) (args : Args) :
    Except ApiError (Except ProxyError (NamespaceApiServer × ApiEndpoint)) := do
  match ← resolveServer db namespaceId serverName with
  | .error e => pure (.error e)
  | .ok server =>
    match ← resolveOperation db server serverName operationId with
    | .error e => pure (.error e)
    | .ok endpoint =>
      match ← checkRequest gateway server passthroughEnv apiCallsCount args with
      | .error e => pure (.error e)
      | .ok () => pure (.ok (server, endpoint))

def sendRequest (gateway : ApiGateway) (serverName operationId : String) (target : NamespaceApiServer × ApiEndpoint)
    (args : Args) : Api (Except ProxyError Json) := do
  match ← fetch fun _ => gateway.exchange target.1 target.2 args with
  | .refused e => pure (.error e)
  | .failed e => do
    write (·.request (.api serverName operationId))
    pure (.error e)
  | .answered payload => do
    write (·.request (.api serverName operationId))
    pure (.ok payload)

def proxyApiCall (gateway : ApiGateway) (namespaceId : ℕ) (passthroughEnv : List (String × String))
    (apiCallsCount : ℤ)
    (serverName operationId : String) (args : Args) : Api (Except ProxyError Json) := do
  match ← fetch fun w =>
      admitCall gateway w.db namespaceId passthroughEnv apiCallsCount serverName operationId args with
  | .error e => pure (.error e)
  | .ok target => sendRequest gateway serverName operationId target args

def formatOutcome (dumps : Json → String) (gateway : ApiGateway) (ns : Option Namespace) :
    Except ProxyError Json → String
  | .error e => dumps (.obj [("error", .str e.error), ("reason", .str e.reason), ("action", .str e.action)])
  | .ok payload =>
    match ns with
    | none => dumps payload
    | some ns => gateway.scan ns.name ns.scannerPipeline (dumps payload)

def Exchange.sent : Exchange → Prop
  | refused _ => False
  | failed _ => True
  | answered _ => True

section Calls

variable {gw : ApiGateway} {nid : ℕ} {penv : List (String × String)} {cs : ℤ}
  {server op : String} {args : Args} {tgt : NamespaceApiServer × ApiEndpoint} {w : World}

theorem mem_of_resolveServer {db : Db} {found : NamespaceApiServer}
    (h : resolveServer db nid server = .ok (.ok found)) : found ∈ db.apiServers.rows := by
  unfold resolveServer at h
  rcases hq : scalarOneOrNone (db.apiServers.select fun s => s.namespaceId = nid ∧ s.name = server) with e | row
  · rw [hq] at h
    cases h
  rw [hq] at h
  cases row with
  | none => cases h
  | some row =>
    have hr := mem_of_scalarOneOrNone hq
    cases he : row.enabled with
    | false => simp [bind, Except.bind, pure, Except.pure, he] at h
    | true =>
      simp only [bind, Except.bind, pure, Except.pure, he, if_true] at h
      cases h
      exact (Table.mem_select.mp hr).1

theorem count_lt_of_checkRequest {found : NamespaceApiServer}
    (h : checkRequest gw found penv cs args = .ok (.ok ())) :
    cs < found.maxCallsPerExecution := by
  by_contra hle
  rw [checkRequest, if_pos (not_lt.mp hle)] at h
  cases h

theorem server_of_admitted {db : Db}
    (h : admitCall gw db nid penv cs server op args = .ok (.ok tgt)) :
    tgt.1 ∈ db.apiServers.rows ∧ cs < tgt.1.maxCallsPerExecution := by
  unfold admitCall at h
  rcases hs : resolveServer db nid server with e | e | found
  · rw [hs] at h
    cases h
  · rw [hs] at h
    cases h
  simp only [hs, bind, Except.bind] at h
  rcases he : resolveOperation db found server op with e | e | endpoint
  · rw [he] at h
    cases h
  · rw [he] at h
    cases h
  simp only [he] at h
  rcases hc : checkRequest gw found penv cs args with e | e | ⟨⟩
  · rw [hc] at h
    cases h
  · rw [hc] at h
    cases h
  rw [hc] at h
  cases h
  exact ⟨mem_of_resolveServer hs, count_lt_of_checkRequest hc⟩

theorem proxyApiCall_maintains {I : World → Prop} (hr : ∀ w r, I w → I (w.request r)) :
    Maintains I (proxyApiCall gw nid penv cs server op args)
      fun _ => True := by
  refine .fetch_bind fun _ admitted _ _ => ?_
  cases admitted with
  | error e => exact .pure trivial
  | ok tgt =>
    refine .fetch_bind fun _ exchange _ _ => ?_
    cases exchange with
    | refused e => exact .pure trivial
    | failed e => exact .write_bind (fun w => hr w _) (.pure trivial)
    | answered payload => exact .write_bind (fun w => hr w _) (.pure trivial)

end Calls

end McpworksApi.Run
