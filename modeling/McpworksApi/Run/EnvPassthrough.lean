import McpworksApi.Run.AccessLaw

/-! Environment variables of a request (`mcp/env_passthrough.py`). The header is decoded and its names and values are
checked, so that what reaches the handler is a `HeaderEnv`. -/

namespace McpworksApi.Run

open Models Py Services Services.Functions

def blockedPrefixes : List String := ["LD_", "PYTHON", "NSJAIL", "SSL_", "MCPWORKS_INTERNAL_"]

def blockedExact : List String :=
  ["PATH", "HOME", "USER", "SHELL", "LANG", "LC_ALL", "LC_CTYPE", "TMPDIR", "TMP", "TEMP", "DISPLAY",
    "DBUS_SESSION_BUS_ADDRESS", "XDG_RUNTIME_DIR", "HOSTNAME", "IFS"]

def reservedPrefix : String := "MCPWORKS_"

def upperChars : List Char := "ABCDEFGHIJKLMNOPQRSTUVWXYZ".toList

def keyChars : List Char := '_' :: upperChars ++ "0123456789".toList

def matchesKeyPattern (key : List Char) : Bool :=
  let body : List Char → Bool
    | [] => false
    | c :: rest => decide (c ∈ upperChars) && rest.all (fun d => decide (d ∈ keyChars)) && decide (rest.length ≤ 127)
  body key || (key.getLast? = some '\n' && body key.dropLast)

def validateKey (key : String) : Except String Unit :=
  if !matchesKeyPattern key.toList then
    .error ("Invalid env var name: '" ++ key ++ "'. Must match ^[A-Z][A-Z0-9_]\x7b\x7b0,127\x7d\x7d$")
  else if key ∈ blockedExact then .error ("Env var name '" ++ key ++ "' is blocked (system variable)")
  else
    match blockedPrefixes.find? (startsWith key) with
    | some p => .error ("Env var name '" ++ key ++ "' is blocked (prefix '" ++ p ++ "' is reserved)")
    | none =>
      if startsWith key reservedPrefix then
        .error ("Env var name '" ++ key ++ "' is blocked (prefix '" ++ reservedPrefix ++
          "' is reserved for platform use)")
      else .ok ()

structure HeaderEnv where
  vars : List (String × String)
  valid : ∀ e ∈ vars, validateKey e.1 = .ok ()

theorem HeaderEnv.ne_bridgeKeyName (x : HeaderEnv) {e : String × String} (he : e ∈ x.vars) : e.1 ≠ bridgeKeyName := by
  intro heq
  have hv := x.valid e he
  rw [heq] at hv
  have hr : matchesKeyPattern bridgeKeyName.toList = false := by decide
  simp [validateKey, hr] at hv

def Declares (v : FunctionVersion) (key : String) : Prop :=
  key ∈ v.requiredEnv.getD [] ∨ key ∈ v.optionalEnv.getD []

/-- Whatever tool is called with the variables of the request, stored code is run only with those
variables among them that it declares. -/
def LeastPrivilege (env : RunEnv) (h : RunHandler) (db : Db) (request : HeaderEnv) : Prop :=
  ∀ cache name args, ∀ c ∈ (dispatchTool env h name args request.vars { db, cache }).2.calls,
    ∀ p ∈ c.ran, ∀ e ∈ c.env, e ∈ request.vars → Declares p.2 e.1

section Law

variable {env : RunEnv} {h : RunHandler} {db : Db} {ns : Namespace} {request : HeaderEnv}

theorem declares_of_mem_functionEnv {v : FunctionVersion} {senv : List (String × String)} {e : String × String}
    (he : e ∈ functionEnv v senv) : Declares v e.1 := by
  simpa [Declares] using (List.mem_filter.mp he).2

theorem mem_clientEnv {lang : Language} {e : String × String} (he : e ∈ request.vars) :
    e ∈ clientEnv db h ns.id lang request.vars := by
  unfold clientEnv
  split
  · unfold setItem
    split
    · exact List.mem_map.mpr ⟨e, he, if_neg (request.ne_bridgeKeyName he)⟩
    · exact List.mem_append_left _ he
  · exact he

theorem LeastPrivilege.declares (hl : LeastPrivilege env h db request) (hs : h.apiKey.hasScope "execute" = true)
    (hns : getNamespace db h = .ok ns) {x : Stored db ns.id} (hx : InPackage env h x) {e : String × String}
    (he : e ∈ request.vars) : Declares x.version e.1 := by
  obtain ⟨lang, text, files, hr, hra⟩ := exists_clientCall hs hns hx request.vars
  have hc := hl (fun _ => none) (codeTool lang) [("code", .str text)]
  rw [dispatchTool_of_runsClient (w := { db }) hr] at hc
  exact hc _ (List.mem_singleton_self _) _ hra e (mem_clientEnv he) he

/-- Stored code gets no undeclared variable of the request exactly when the caller can run nothing,
or each function that code mode packages declares every variable of the request. -/
theorem leastPrivilege_iff (env : RunEnv) (h : RunHandler) (db : Db) (request : HeaderEnv) :
    LeastPrivilege env h db request ↔
      (h.apiKey.hasScope "execute" = true → ∀ ns, getNamespace db h = .ok ns → ∀ x : Stored db ns.id,
        InPackage env h x → ∀ e ∈ request.vars, Declares x.version e.1) := by
  constructor
  · intro hl hs ns hns x hx e he
    exact hl.declares hs hns hx he
  · intro hco cache name args c hc p hp e he hre
    rcases dispatchTool_cases env h name args request.vars { db, cache } with
      hid | ⟨ns, lang, text, files, hr⟩ | ⟨ns, f, v, hr⟩
    · rw [hid.1] at hc
      cases hc
    · rw [dispatchTool_of_runsClient hr] at hc
      obtain rfl := List.mem_singleton.mp hc
      obtain ⟨c, hfi, ht, hf, hv⟩ := mem_packageCall_ran hp
      obtain ⟨x, rfl, hx⟩ := inPackage_of_file hr.mode hr.registered hr.package hfi ht hf hv
      exact hco hr.scope ns hr.namespace_eq x hx e hre
    · rw [dispatchTool_of_reaches hr] at hc
      obtain rfl := mem_calls_executeFound hr rfl hc
      rw [(mem_namedCall_ran hp).1]
      exact declares_of_mem_functionEnv he

end Law

def tokenRequest : HeaderEnv := ⟨[("API_TOKEN", "s3cr3t-value")], by
  intro e he
  obtain rfl := List.mem_singleton.mp he
  rfl⟩

def mailClientRun : List (List String × List (String × String)) :=
  (dispatchTool plainEnv (mailHandler "code") "execute_python" [("code", .str "import functions")] tokenRequest.vars
    { db := mailDb "mail" }).2.calls.map fun c => (c.ran.map (·.1.name.val), c.env)

/-- A function that declares no variables is run by a client program with the caller's token. -/
theorem undeclared_variable_in_code_mode :
    mailSend.version.requiredEnv = none ∧ mailSend.version.optionalEnv = none ∧
      mailClientRun = [(["send"], [("API_TOKEN", "s3cr3t-value")])] ∧
      ¬ LeastPrivilege plainEnv (mailHandler "code") (mailDb "mail") tokenRequest := by
  refine ⟨rfl, rfl, by decide +kernel, fun hl => ?_⟩
  have hp : InPackage plainEnv (mailHandler "code") mailSend :=
    ⟨rfl, rfl, .python, _, rfl, _, List.mem_singleton_self _, by decide, rfl, rfl⟩
  have hns : getNamespace (mailDb "mail") (mailHandler "code") =
      .ok { id := 1, accountId := 2, name := .acme } := by rfl
  have hd := hl.declares (by decide) hns hp (List.mem_singleton_self _)
  simp [Declares, mailSend] at hd

end McpworksApi.Run
