import McpworksApi.Run.ApiRequests

/-! The check of addresses before a request leaves for a user's API. The guard looks the host up, refuses it if any
address lies in a denied range, and hands back the addresses it has vetted. -/

namespace McpworksApi.Run

open Models Py

inductive IpAddress
  | v4 (bits : BitVec 32)
  | v6 (bits : BitVec 128)
  deriving DecidableEq

inductive IpNetwork
  | v4 (bits : BitVec 32) (length : ℕ)
  | v6 (bits : BitVec 128) (length : ℕ)

def IpNetwork.contains : IpNetwork → IpAddress → Bool
  | .v4 net length, .v4 addr => addr >>> (32 - length) = net >>> (32 - length)
  | .v6 net length, .v6 addr => addr >>> (128 - length) = net >>> (128 - length)
  | _, _ => false

def IpAddress.unmapped : IpAddress → IpAddress
  | .v4 bits => .v4 bits
  | .v6 bits => if bits >>> 32 = 0xFFFF then .v4 (bits.truncate 32) else .v6 bits

structure IpLibrary where
  ipAddress : String → Option IpAddress
  isPrivate : IpAddress → Bool
  isLoopback : IpAddress → Bool
  isLinkLocal : IpAddress → Bool
  isMulticast : IpAddress → Bool
  isReserved : IpAddress → Bool
  isUnspecified : IpAddress → Bool

def extraDenied : List IpNetwork :=
  [.v4 0x64400000 10, .v4 0xC6120000 15, .v4 0xC0000000 24, .v6 (0x0064FF9B <<< 96) 96]

def addrIsDenied (ip : IpLibrary) (addr : IpAddress) : Bool :=
  let addr := addr.unmapped
  ip.isPrivate addr || ip.isLoopback addr || ip.isLinkLocal addr || ip.isMulticast addr || ip.isReserved addr ||
    ip.isUnspecified addr || extraDenied.any (·.contains addr)

def ipIsDenied (ip : IpLibrary) (text : String) : Bool :=
  (ip.ipAddress text).elim true (addrIsDenied ip)

structure UrlParts where
  scheme : String
  hostname : Option String

structure SsrfEnv where
  ip : IpLibrary
  urlsplit : String → Except ApiError UrlParts
  resolve : ℕ → String → Except String (List String)

inductive SsrfError
  | denied (message : String)
  | raised (e : ApiError)

def allowedSchemes : List String := ["http", "https"]

def stripBrackets (host : String) : String :=
  let bracket (c : Char) : Bool := c = '[' || c = ']'
  String.ofList (((host.toList.dropWhile bracket).reverse.dropWhile bracket).reverse)

def resolveAndValidate (s : SsrfEnv) (t : ℕ) (host : String) : Except SsrfError (List String) :=
  let literal := stripBrackets host
  match s.ip.ipAddress literal with
  | some addr =>
    if addrIsDenied s.ip addr then .error (.denied ("host resolves to a denied address: " ++ literal))
    else .ok [literal]
  | none =>
    match s.resolve t host with
    | .error e => .error (.denied ("could not resolve host '" ++ host ++ "': " ++ e))
    | .ok addresses =>
      if addresses = [] then .error (.denied ("host '" ++ host ++ "' did not resolve to any address"))
      else
        match addresses.find? (ipIsDenied s.ip) with
        | some addr => .error (.denied ("host '" ++ host ++ "' resolves to a denied address: " ++ addr))
        | none => .ok addresses

def assertUrlAllowed (s : SsrfEnv) (t : ℕ) (url : String) : Except SsrfError (List String) :=
  match s.urlsplit url with
  | .error e => .error (.raised e)
  | .ok parts =>
    if lower parts.scheme ∉ allowedSchemes then
      .error (.denied ("scheme '" ++ parts.scheme ++ "' not allowed (only http/https)"))
    else
      match parts.hostname with
      | none => .error (.denied "URL has no host")
      | some host => if host = "" then .error (.denied "URL has no host") else resolveAndValidate s t host

def urlCheckOf : Except SsrfError (List String) → UrlCheck
  | .ok _ => .allowed
  | .error (.denied message) => .blocked message
  | .error (.raised e) => .raised e

inductive Failure
  | timeout (message : String)
  | httpError (message : String)
  | raised (e : ApiError)

def Failure.outcome : Failure → Outcome
  | .timeout message => .timeout message
  | .httpError message => .httpError message
  | .raised e => .raised e

structure HttpClient where
  host : String → Except Failure String
  unresolved : String → Failure
  statusMessage : String → ℕ → String

/-- The addresses that the client may connect to: its host if that is an address, else what the resolver answers to
the client at the moment `t`. -/
def HttpClient.addresses (client : HttpClient) (s : SsrfEnv) (t : ℕ) (url : String) :
    Except Failure (List String) := do
  let host ← client.host url
  match s.ip.ipAddress host with
  | some _ => pure [host]
  | none => (s.resolve t host).mapError client.unresolved

/-- What one call meets: when the guard and each request look the host up, which of the addresses takes the connection
of a request, and what comes back from it. -/
structure Network where
  check : ℕ
  lookup : ℕ → ℕ
  check_lt : ∀ k, check < lookup k
  lookup_strictMono : StrictMono lookup
  connect : ℕ → List String → Except Failure String
  connect_mem : ∀ k addresses a, connect k addresses = .ok a → a ∈ addresses
  respond : ℕ → String → Outcome

def HttpClient.connection (client : HttpClient) (s : SsrfEnv) (net : Network) (url : String) (k : ℕ) :
    Except Failure String := do
  let addresses ← client.addresses s (net.lookup k) url
  net.connect k addresses

def HttpClient.request (client : HttpClient) (s : SsrfEnv) (net : Network) (url : String) (k : ℕ) : Outcome :=
  match client.connection s net url k with
  | .error failure => failure.outcome
  | .ok a => net.respond k a

structure SpecFetch where
  sent : List Outcome := []
  answer : Except ApiError String

def readSpec (client : HttpClient) (url : String) : Outcome → Except ApiError String
  | .response r =>
    if 200 ≤ r.status ∧ r.status < 300 then .ok r.text
    else .error (.app .validation ("could not fetch OpenAPI spec: " ++ client.statusMessage url r.status))
  | .timeout message | .httpError message => .error (.app .validation ("could not fetch OpenAPI spec: " ++ message))
  | .raised e => .error e

def fetchSpecText (s : SsrfEnv) (client : HttpClient) (net : Network) (openapiUrl : String) : SpecFetch :=
  match assertUrlAllowed s net.check openapiUrl with
  | .error (.denied message) => { answer := .error (.app .validation ("openapi_url rejected: " ++ message)) }
  | .error (.raised e) => { answer := .error e }
  | .ok _ =>
    let outcome := client.request s net openapiUrl 0
    { sent := [outcome], answer := readSpec client openapiUrl outcome }

def ApiInvocation.url (env : UpstreamEnv) (db : Db) (i : ApiInvocation) : Option String :=
  match i.admitted env db with
  | .ok (.ok (server, endpoint)) =>
    (buildPath endpoint.path (pathArguments i.args)).toOption.map (joinUrl server.baseUrl)
  | _ => none

def UpstreamEnv.guarded (env : UpstreamEnv) (s : SsrfEnv) (t : ℕ) : UpstreamEnv :=
  { env with assertUrlAllowed := fun url => urlCheckOf (Run.assertUrlAllowed s t url) }

inductive Execution
  | proxyApiCall (env : UpstreamEnv) (db : Db) (i : ApiInvocation)
  | fetchSpecText (openapiUrl : String)

def Execution.url : Execution → Option String
  | .proxyApiCall env db i => i.url env db
  | .fetchSpecText openapiUrl => some openapiUrl

def Execution.sent (s : SsrfEnv) (client : HttpClient) (net : Network) (url : String) : Execution → List Outcome
  | .proxyApiCall env db i => (i.run (env.guarded s net.check) (client.request s net url) db).sent
  | .fetchSpecText _ => (Run.fetchSpecText s client net url).sent

def Execution.connected (s : SsrfEnv) (client : HttpClient) (net : Network) (url : String) (e : Execution) :
    List String :=
  (List.range (e.sent s client net url).length).filterMap fun k => (client.connection s net url k).toOption

def Execution.Vetted (s : SsrfEnv) (client : HttpClient) (net : Network) (url : String) (e : Execution) : Prop :=
  ∀ a ∈ e.connected s client net url,
    (∃ vetted, assertUrlAllowed s net.check url = .ok vetted ∧ a ∈ vetted) ∧ ipIsDenied s.ip a = false

def SsrfEnv.addresses (s : SsrfEnv) (t : ℕ) (host : String) : Except String (List String) :=
  if (s.ip.ipAddress (stripBrackets host)).isSome then .ok [stripBrackets host] else s.resolve t host

def Permitted (s : SsrfEnv) (t : ℕ) (url : String) (addresses : List String) : Prop :=
  ∃ parts host, s.urlsplit url = .ok parts ∧ lower parts.scheme ∈ allowedSchemes ∧ parts.hostname = some host ∧
    host ≠ "" ∧ s.addresses t host = .ok addresses ∧ addresses ≠ [] ∧ ∀ a ∈ addresses, ipIsDenied s.ip a = false

section Guard

variable {s : SsrfEnv} {t : ℕ}

theorem resolveAndValidate_eq_ok_iff {host : String} {vetted : List String} :
    resolveAndValidate s t host = .ok vetted ↔
      s.addresses t host = .ok vetted ∧ vetted ≠ [] ∧ ∀ a ∈ vetted, ipIsDenied s.ip a = false := by
  unfold resolveAndValidate SsrfEnv.addresses
  dsimp only
  cases hl : s.ip.ipAddress (stripBrackets host) with
  | some addr =>
    have hd : ipIsDenied s.ip (stripBrackets host) = addrIsDenied s.ip addr := by
      rw [ipIsDenied, hl]
      rfl
    dsimp only
    by_cases had : addrIsDenied s.ip addr = true
    · rw [if_pos had]
      refine iff_of_false (by simp) ?_
      rintro ⟨h, -, hn⟩
      cases h
      have := hn _ (List.mem_singleton_self _)
      rw [hd, had] at this
      cases this
    · rw [if_neg had]
      constructor
      · intro h
        cases h
        refine ⟨rfl, List.cons_ne_nil _ _, fun a ha => ?_⟩
        rw [List.mem_singleton.mp ha, hd]
        simpa using had
      · rintro ⟨h, -, -⟩
        cases h
        rfl
  | none =>
    cases hr : s.resolve t host with
    | error e => simp
    | ok addresses =>
      dsimp only
      by_cases he : addresses = []
      · rw [if_pos he]
        refine iff_of_false (by simp) ?_
        rintro ⟨h, hne, -⟩
        cases h
        exact hne he
      · rw [if_neg he]
        cases hf : addresses.find? (ipIsDenied s.ip) with
        | some addr =>
          refine iff_of_false (by simp) ?_
          rintro ⟨h, -, hn⟩
          cases h
          have := hn addr (List.mem_of_find?_eq_some hf)
          rw [List.find?_some hf] at this
          cases this
        | none =>
          rw [List.find?_eq_none] at hf
          constructor
          · intro h
            cases h
            exact ⟨rfl, he, fun a ha => by simpa using hf a ha⟩
          · rintro ⟨h, -, -⟩
            cases h
            rfl

theorem assertUrlAllowed_eq_ok_iff {url : String} {vetted : List String} :
    assertUrlAllowed s t url = .ok vetted ↔ Permitted s t url vetted := by
  unfold assertUrlAllowed Permitted
  cases s.urlsplit url with
  | error e => simp
  | ok parts =>
    dsimp only
    by_cases hs : lower parts.scheme ∈ allowedSchemes
    · rw [if_neg (not_not_intro hs)]
      cases hh : parts.hostname with
      | none => simp [hh]
      | some host =>
        dsimp only
        by_cases he : host = ""
        · rw [if_pos he]
          simp [hh, he]
        · rw [if_neg he, resolveAndValidate_eq_ok_iff]
          simp [hh, he, hs]
    · rw [if_pos hs]
      simp [hs]

end Guard

section Connections

variable {s : SsrfEnv} {cl : HttpClient} {net : Network} {url : String}

theorem ApiInvocation.permitted_of_sent {env : UpstreamEnv} {db : Db} {i : ApiInvocation} {up : ℕ → Outcome}
    (hu : i.url env db = some url) (hs : (i.run (env.guarded s net.check) up db).sent ≠ []) :
    ∃ vetted, Permitted s net.check url vetted := by
  -- the guard has no part in the admission of a call
  have had : i.admitted (env.guarded s net.check) db = i.admitted env db := rfl
  unfold ApiInvocation.url at hu
  unfold ApiInvocation.run at hs
  rw [had] at hs
  rcases ha : i.admitted env db with e | e | ⟨sr, endpoint⟩
  · exact absurd (by rw [ha]) hs
  · exact absurd (by rw [ha]) hs
  · rw [ha] at hu hs
    rcases performCall_cases (env.guarded s net.check) sr endpoint i.args up with
      ⟨hn, -⟩ | ⟨-, rel, hp, hal⟩
    · exact absurd hn hs
    · have hj : joinUrl sr.baseUrl rel = url := by simpa [hp, Except.toOption] using hu
      have hc : urlCheckOf (assertUrlAllowed s net.check (joinUrl sr.baseUrl rel)) = .allowed := hal
      rw [hj] at hc
      cases hg : assertUrlAllowed s net.check url with
      | ok vetted => exact ⟨vetted, assertUrlAllowed_eq_ok_iff.mp hg⟩
      | error e =>
        rw [hg] at hc
        cases e <;> cases hc

theorem permitted_of_fetch (hs : (fetchSpecText s cl net url).sent ≠ []) :
    ∃ vetted, Permitted s net.check url vetted := by
  unfold fetchSpecText at hs
  cases hg : assertUrlAllowed s net.check url with
  | ok vetted => exact ⟨vetted, assertUrlAllowed_eq_ok_iff.mp hg⟩
  | error e =>
    rw [hg] at hs
    cases e <;> exact absurd rfl hs

theorem Execution.permitted_of_sent {e : Execution} (hu : e.url = some url) (hs : e.sent s cl net url ≠ []) :
    ∃ vetted, Permitted s net.check url vetted := by
  cases e with
  | proxyApiCall env db i => exact ApiInvocation.permitted_of_sent hu hs
  | fetchSpecText ou => exact permitted_of_fetch hs

theorem HttpClient.connection_mem {k : ℕ} {a : String} (h : cl.connection s net url k = .ok a) :
    ∃ addresses, cl.addresses s (net.lookup k) url = .ok addresses ∧ a ∈ addresses := by
  obtain ⟨addresses, ha, hc⟩ := bind_eq_ok.mp h
  exact ⟨addresses, ha, net.connect_mem k addresses a hc⟩

theorem Execution.mem_connected {e : Execution} {a : String} (h : a ∈ e.connected s cl net url) :
    e.sent s cl net url ≠ [] ∧ ∃ k, cl.connection s net url k = .ok a := by
  obtain ⟨k, hk, hc⟩ := List.mem_filterMap.mp h
  refine ⟨fun hn => ?_, k, ?_⟩
  · rw [hn] at hk
    cases hk
  · cases hr : cl.connection s net url k with
    | error failure =>
      rw [hr] at hc
      cases hc
    | ok b =>
      rw [hr] at hc
      cases hc
      rfl

theorem connected_of_fetch {vetted : List String} {a : String} (hg : assertUrlAllowed s net.check url = .ok vetted)
    (hc : cl.connection s net url 0 = .ok a) :
    (Execution.fetchSpecText url).connected s cl net url = [a] := by
  have hs : (Execution.fetchSpecText url).sent s cl net url = [cl.request s net url 0] := by
    show (fetchSpecText s cl net url).sent = _
    unfold fetchSpecText
    rw [hg]
  unfold Execution.connected
  rw [hs]
  simp [hc, Except.toOption]

end Connections

def Network.takenBy (a : String) {t later : ℕ} (h : t < later) : Network where
  check := t
  lookup k := later + k
  check_lt k := by omega
  lookup_strictMono j k hjk := by
    show later + j < later + k
    omega
  connect _ addresses := if a ∈ addresses then .ok a else .error (.httpError "All connection attempts failed")
  connect_mem k addresses b hb := by
    split at hb
    · cases hb
      assumption
    · cases hb
  respond _ _ := .httpError ""

def SteadyAnswers (s : SsrfEnv) (client : HttpClient) (url : String) : Prop :=
  ∀ t later vetted addresses, t < later → Permitted s t url vetted → client.addresses s later url = .ok addresses →
    ∀ a ∈ addresses, a ∈ vetted

/-- For a resolver whose answers change, every execution for a URL connects to vetted addresses exactly if what the
client is answered after the check never goes beyond what the guard was answered at the check. -/
theorem connections_vetted_iff (s : SsrfEnv) (client : HttpClient) (url : String) :
    (∀ (net : Network) (e : Execution), e.url = some url → e.Vetted s client net url) ↔
      SteadyAnswers s client url := by
  constructor
  · intro hal t ls vetted addresses hl hp had a ha
    -- a fetch whose only request is taken by the address in question
    let net := Network.takenBy a hl
    have hg : assertUrlAllowed s net.check url = .ok vetted := assertUrlAllowed_eq_ok_iff.mpr hp
    have hc : client.connection s net url 0 = .ok a := by
      refine bind_eq_ok.mpr ⟨addresses, had, ?_⟩
      show (if a ∈ addresses then _ else _) = _
      rw [if_pos ha]
    have hv := hal net (.fetchSpecText url) rfl a
    rw [connected_of_fetch hg hc] at hv
    obtain ⟨⟨vetted', hg', hm⟩, -⟩ := hv (List.mem_singleton_self a)
    cases hg.symm.trans hg'
    exact hm
  · intro hs net e hu a ha
    obtain ⟨hse, k, hc⟩ := Execution.mem_connected ha
    obtain ⟨vetted, hp⟩ := Execution.permitted_of_sent hu hse
    obtain ⟨addresses, had, hm⟩ := HttpClient.connection_mem hc
    have hv : a ∈ vetted := hs _ _ vetted addresses (net.check_lt k) hp had a hm
    refine ⟨⟨vetted, assertUrlAllowed_eq_ok_iff.mpr hp, hv⟩, ?_⟩
    obtain ⟨-, -, -, -, -, -, -, -, hall⟩ := hp
    exact hall a hv

def twoAddresses : IpLibrary where
  ipAddress text :=
    if text = "93.184.216.34" then some (.v4 0x5DB8D822) else if text =
      "10.0.0.5" then some (.v4 0x0A000005) else none
  isPrivate addr := (IpNetwork.v4 0x0A000000 8).contains addr
  isLoopback _ := false
  isLinkLocal _ := false
  isMulticast _ := false
  isReserved _ := false
  isUnspecified _ := false

def rebinding : SsrfEnv where
  ip := twoAddresses
  urlsplit _ := .ok { scheme := "https", hostname := some "api.example.com" }
  resolve t _ := if t = 0 then .ok ["93.184.216.34"] else .ok ["10.0.0.5"]

def plainClient : HttpClient where
  host _ := .ok "api.example.com"
  unresolved := .httpError
  statusMessage _ _ := ""

/-- The guard vets the public address of the name, and both callers then connect to the private one. -/
theorem rebound_name_connected :
    assertUrlAllowed rebinding 0 "https://api.example.com/invoices" = .ok ["93.184.216.34"] ∧
      ipIsDenied rebinding.ip "10.0.0.5" = true ∧
      (Execution.proxyApiCall plainUpstreamEnv (apiDb .post) invoices).url = some "https://api.example.com/invoices" ∧
      (Execution.proxyApiCall plainUpstreamEnv (apiDb .post) invoices).connected rebinding plainClient
        (Network.takenBy "10.0.0.5" Nat.zero_lt_one) "https://api.example.com/invoices" = ["10.0.0.5"] ∧
      (Execution.fetchSpecText "https://api.example.com/invoices").connected rebinding plainClient
        (Network.takenBy "10.0.0.5" Nat.zero_lt_one) "https://api.example.com/invoices" = ["10.0.0.5"] := by
  refine ⟨by rfl, by rfl, by rfl, by rfl, by rfl⟩

end McpworksApi.Run
