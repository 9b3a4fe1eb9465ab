import McpworksApi.Run.Calls

/-! What the access rules of an agent guarantee about `dispatch_tool`. The rules are meant to keep the code of a denied
function from running. -/

namespace McpworksApi.Run

open Models Py Services Services.Functions

section Ways

variable {db : Db} {namespaceId : ℕ}

def AllowedAs (agent : Agent) (service function : String) : Prop :=
  (Access.checkFunctionAccess agent.accessRules service function (some agent.trustScore)).1 = true

def Denied (agent : Agent) (x : Stored db namespaceId) : Prop :=
  ¬ AllowedAs agent x.service.name.val x.function.name.val

structure ToolName (x : Stored db namespaceId) (service function : String) : Prop where
  spelledAs : x.SpelledAs service function
  dot_not_mem : '.' ∉ service.toList
  not_api : startsWith (service ++ "." ++ function) "api__" = false

structure Runnable (env : RunEnv) (x : Stored db namespaceId) : Prop where
  unique : x.Unique
  registered : env.sandbox.registered x.version.backend = true
  starts : Starts env.sandbox x.version.language x.version

/-- A code tool hands the function to the client's program: the package can be generated, and it has a file with
the function's code. -/
structure InPackage (env : RunEnv) (h : RunHandler) (x : Stored db namespaceId) : Prop where
  mode : h.mode = "code"
  registered : env.sandbox.registered .codeSandbox = true
  packaged : ∃ language files, packageFiles db h.namespaceName namespaceId language = .ok files ∧
    ∃ c ∈ files, c.text ≠ "" ∧ c.function = x.function ∧ c.version = x.version

theorem checkAgentFunctionAccess_eq_ok {agent : Agent} (ha : db.agents.select (·.namespaceId = namespaceId) = [agent])
    {svc function : String} :
    checkAgentFunctionAccess db namespaceId svc function = .ok () ↔ AllowedAs agent svc function := by
  unfold checkAgentFunctionAccess agentOf AllowedAs
  rw [ha]
  dsimp only [List.head?_cons]
  rcases Access.checkFunctionAccess agent.accessRules svc function (some agent.trustScore) with ⟨b, r⟩
  cases b <;> simp

variable {env : RunEnv} {h : RunHandler} {agent : Agent} {ns : Namespace}

theorem inPackage_of_file {db : Db} {lang : Language} {ns : Namespace} {c : CodeFile}
    {files : List CodeFile} {p : Function × FunctionVersion} (hm : h.mode = "code")
    (hr : env.sandbox.registered .codeSandbox = true)
    (hfi : packageFiles db h.namespaceName ns.id lang = .ok files) (hc : c ∈ files) (ht : c.text ≠ "")
    (hf : c.function = p.1) (hv : c.version = p.2) :
    ∃ x : Stored db ns.id, p = (x.function, x.version) ∧ InPackage env h x := by
  obtain ⟨x, hxf, hxv⟩ := mem_listAllForNamespace.mp (mem_of_packageFiles hfi hc)
  refine ⟨x, ?_, hm, hr, lang, files, hfi, c, hc, ht, hxf.symm, hxv.symm⟩
  rw [hxf, hxv, hf, hv]

theorem way_of_mem_ran {name : String} {args : Args} {senv : List (String × String)} {w : World}
    {p : Function × FunctionVersion} (hw : w.calls = [])
    (hp : p ∈ (dispatchTool env h name args senv w).2.ran) :
    h.apiKey.hasScope "execute" = true ∧ ∃ ns, getNamespace w.db h = .ok ns ∧ ∃ x : Stored w.db ns.id,
      p = (x.function, x.version) ∧
        (InPackage env h x ∨ Runnable env x ∧ ∃ svc fn, ToolName x svc fn ∧
          checkAgentFunctionAccess w.db ns.id svc fn = .ok ()) := by
  obtain ⟨c, hc, hp⟩ := List.mem_flatMap.mp hp
  rcases dispatchTool_cases env h name args senv w with hid | ⟨ns, lang, text, files, hr⟩ | ⟨ns, f, v, hr⟩
  · rw [hid.1, hw] at hc
    cases hc
  · rw [dispatchTool_of_runsClient hr, World.record, hw] at hc
    obtain rfl := List.mem_singleton.mp hc
    obtain ⟨c, hfi, ht, hf, hv⟩ := mem_packageCall_ran hp
    obtain ⟨x, hpx, hx⟩ := inPackage_of_file hr.mode hr.registered hr.package hfi ht hf hv
    exact ⟨hr.scope, ns, hr.namespace_eq, x, hpx, .inl hx⟩
  · rw [dispatchTool_of_reaches hr] at hc
    obtain rfl := mem_calls_executeFound hr hw hc
    obtain ⟨rfl, hs⟩ := mem_namedCall_ran hp
    obtain ⟨svc, fn, hsp, hch, hfo⟩ := hr.found
    obtain ⟨rfl, hd⟩ := splitOnce_dot.mp hsp
    obtain ⟨x, rfl, rfl, hsl, hu⟩ := stored_of_getForExecution hfo
    exact ⟨hr.scope, ns, hr.namespace_eq, x, rfl,
      .inr ⟨⟨hu, hr.registered, hs⟩, svc, fn, ⟨hsl, hd, hr.not_api⟩, hch⟩⟩

theorem checkRequiredEnv_provided (renv oenv : Option (List String)) :
    checkRequiredEnv (filterEnvForFunction ((renv.getD []).map fun k => (k, "")) renv oenv)
      renv = [] := by
  simp only [checkRequiredEnv, filterEnvForFunction, List.filter_eq_nil_iff]
  intro k hk
  simp [hk]

theorem dispatchTool_runs_named {x : Stored db ns.id} (hs : h.apiKey.hasScope "execute" = true)
    (hns : getNamespace db h = .ok ns) (hx : Runnable env x) {svc fn : String}
    (hn : ToolName x svc fn) (hc : checkAgentFunctionAccess db ns.id svc fn = .ok ()) :
    (x.function, x.version) ∈ (dispatchTool env h (svc ++ "." ++ fn) [("cache", .bool false)]
      ((x.version.requiredEnv.getD []).map fun k => (k, "")) { db }).2.ran := by
  have hr : Reaches env h db (svc ++ "." ++ fn) ((x.version.requiredEnv.getD []).map fun k => (k, "")) ns
      x.function x.version :=
    ⟨hs, hn.not_api, hns, ⟨svc, fn, splitOnce_dot.mpr ⟨rfl, hn.dot_not_mem⟩, hc,
      Stored.getForExecution_of_spelledAs hx.unique hn.spelledAs⟩, checkRequiredEnv_provided _ _, hx.registered⟩
  have hm : cachedOutput env x.function x.version [("cache", .bool false)] { db } = none := by
    simp [cachedOutput, cacheBypass, Args.get?]
  rw [dispatchTool_of_reaches (w := { db }) hr, World.ran, executeFound_calls (w := { db }) hr, hm]
  simp [namedCall, functionCall_ran_of_starts hx.starts]

theorem exists_clientCall {x : Stored db ns.id} (hs : h.apiKey.hasScope "execute" = true)
    (hns : getNamespace db h = .ok ns) (hx : InPackage env h x) (senv : List (String × String)) :
    ∃ lang text files, RunsClient env h db (codeTool lang) [("code", .str text)] ns lang text files ∧
      (x.function, x.version) ∈ (clientCall env h db ns lang text files senv).ran := by
  obtain ⟨lang, files, hfi, c, hc, ht, hf, hv⟩ := hx.packaged
  obtain ⟨code, hco, hr⟩ := exists_program env.sandbox lang hc ht (clientEnv db h ns.id lang senv)
    (loadAgentContext db ns.id)
  rw [hf, hv] at hr
  exact ⟨lang, code, files, ⟨hs, hx.mode, isCodeTool_codeTool lang, rfl, hco, hns, hfi, hx.registered⟩, hr⟩

theorem dispatchTool_runs_packaged {x : Stored db ns.id} (hs : h.apiKey.hasScope "execute" = true)
    (hns : getNamespace db h = .ok ns) (hx : InPackage env h x) : ∃ name code,
    (x.function, x.version) ∈ (dispatchTool env h name [("code", .str code)] [] { db }).2.ran := by
  obtain ⟨lang, text, files, hr, hra⟩ := exists_clientCall hs hns hx []
  refine ⟨codeTool lang, text, ?_⟩
  rw [dispatchTool_of_runsClient (w := { db }) hr, World.ran_record]
  exact List.mem_append_right _ hra

def RunsAllowedOnly (env : RunEnv) (h : RunHandler) (db : Db) (namespaceId : ℕ) (agent : Agent) : Prop :=
  ∀ cache name args sandboxEnv, ∀ p ∈ (dispatchTool env h name args sandboxEnv { db, cache }).2.ran,
    ∃ x : Stored db namespaceId, p = (x.function, x.version) ∧ ¬ Denied agent x

theorem denied_congr {x y : Stored db namespaceId} (h : x.function = y.function) : Denied agent x ↔
    Denied agent y := by
  have hs : x.service = y.service := by
    have hx := x.serviceOf_eq
    rw [h, y.serviceOf_eq] at hx
    exact (Option.some.inj hx).symm
  rw [Denied, Denied, h, hs]

theorem RunsAllowedOnly.not_denied (hl : RunsAllowedOnly env h db namespaceId agent) {name : String} {args : Args}
    {senv : List (String × String)} {x : Stored db namespaceId}
    (hx : (x.function, x.version) ∈ (dispatchTool env h name args senv { db }).2.ran) :
    ¬ Denied agent x := by
  obtain ⟨y, hy, ha⟩ := hl _ _ _ _ _ hx
  rwa [denied_congr (Prod.ext_iff.mp hy).1]

/-- In a namespace with one agent, no denied function is run exactly when the caller can run
nothing, or each denied function is denied in every spelling and kept out of code mode. -/
theorem runs_allowed_iff (env : RunEnv) (h : RunHandler) (hns : Namespaces.named db h.namespaceName = [ns])
    (hagent : db.agents.select (·.namespaceId = ns.id) = [agent]) :
    RunsAllowedOnly env h db ns.id agent ↔
      h.apiKey.hasScope "execute" = false ∨ getNamespace db h ≠ .ok ns ∨
        ∀ x : Stored db ns.id, Denied agent x → ¬ InPackage env h x ∧
          (Runnable env x → ∀ service function, ToolName x service function →
            ¬ AllowedAs agent service function) := by
  constructor
  · intro hl
    by_cases hs : h.apiKey.hasScope "execute" = true
    · by_cases hg : getNamespace db h = .ok ns
      · refine .inr (.inr fun x hd => ⟨fun hpa => ?_, fun hr service function hn ha => ?_⟩)
        · obtain ⟨name, code, hra⟩ := dispatchTool_runs_packaged hs hg hpa
          exact hl.not_denied hra hd
        · have hra := dispatchTool_runs_named hs hg hr hn ((checkAgentFunctionAccess_eq_ok hagent).mpr ha)
          exact hl.not_denied hra hd
      · exact .inr (.inl hg)
    · exact .inl (by simpa using hs)
  · intro hc cache name args senv p hp
    obtain ⟨hs, m, hm, x, rfl, hw⟩ := way_of_mem_ran rfl hp
    have hmn : m = ns := by
      have := (Namespaces.getByName_eq_ok.mp hm).1
      rw [hns] at this
      exact (List.cons.inj this).1.symm
    subst hmn
    refine ⟨x, rfl, fun hd => ?_⟩
    rcases hc with hno | hno | hc
    · rw [hs] at hno
      cases hno
    · exact hno hm
    · obtain ⟨hpa, hsp⟩ := hc x hd
      rcases hw with hw | ⟨hr, service, function, hn, hch⟩
      · exact hpa hw
      · exact hsp hr service function hn ((checkAgentFunctionAccess_eq_ok hagent).mp hch)

end Ways

section Instances

def mailAgent (pattern : String) : Agent where
  id := 6
  accountId := 2
  namespaceId := 1
  name := "acme"
  accessRules := some
    { functionRules := [{ id := some "r-1", type := some .denyServices, patterns := [pattern] }] }

def mailDb (pattern : String) : Db where
  namespaces := .single { id := 1, accountId := 2, name := .acme }
  services := .single { id := 3, namespaceId := 1, name := .mail }
  functions := .single { id := 4, serviceId := 3, name := .send }
  versions := .single { id := 5, functionId := 4, code := some "result = 1" }
  agents := .single (mailAgent pattern)

def mailHandler (mode : String) : RunHandler where
  namespaceName := "acme"
  account := { id := 2, userId := 1 }
  apiKey := { id := 7, userId := 1, keyHash := "", keyPrefix := "" }
  mode := mode

theorem not_allowedAs_star (svc function : String) : ¬ AllowedAs (mailAgent "*") svc function := by
  have hs : fnmatch svc "*" = true := by
    change svc.toList.tails.any (Fnmatch.matchTokens []) = true
    exact List.any_eq_true.mpr ⟨[], by simp, rfl⟩
  simp [AllowedAs, Access.checkFunctionAccess, Access.decideFunction, mailAgent, Access.rulesOfType, Access.deniedBy,
    Access.ruleMatches, hs]

theorem runs_allowed_tools_mode : (Namespaces.named (mailDb "*") "acme" = (mailDb "*").namespaces.rows ∧
      (mailDb "*").agents.select (·.namespaceId = 1) = [mailAgent "*"]) ∧
      RunsAllowedOnly plainEnv (mailHandler "tools") (mailDb "*") 1 (mailAgent "*") := by
  have hns : Namespaces.named (mailDb "*") "acme" = (mailDb "*").namespaces.rows := by rfl
  have ha : (mailDb "*").agents.select (·.namespaceId = 1) = [mailAgent "*"] := by rfl
  refine ⟨⟨hns, ha⟩, (runs_allowed_iff plainEnv (mailHandler "tools") hns ha).mpr
    (.inr (.inr fun x _ => ⟨fun hp => ?_, fun _ svc fn _ => not_allowedAs_star svc fn⟩))⟩
  exact absurd hp.mode (by decide)

def mailSend : Stored (mailDb "mail") 1 where
  service := { id := 3, namespaceId := 1, name := .mail }
  function := { id := 4, serviceId := 3, name := .send }
  version := { id := 5, functionId := 4, code := some "result = 1" }
  mem := List.mem_singleton_self _
  live := rfl
  serviceOf_eq := rfl
  namespaceId_eq := rfl
  activeVersion_eq := rfl

/-- The denied function runs when its service is spelled in capitals. -/
theorem denied_function_runs_in_capitals : Denied (mailAgent "mail") mailSend ∧
      (dispatchTool plainEnv (mailHandler "tools") "MAIL.send" [] [] { db := mailDb "mail" }).2.ran =
        [(mailSend.function, mailSend.version)] ∧
      ¬ RunsAllowedOnly plainEnv (mailHandler "tools") (mailDb "mail") 1 (mailAgent "mail") := by
  have hd : Denied (mailAgent "mail") mailSend := by
    unfold Denied AllowedAs
    decide
  have hr : (dispatchTool plainEnv (mailHandler "tools") "MAIL.send" [] [] { db := mailDb "mail" }).2.ran =
      [(mailSend.function, mailSend.version)] := by rfl
  refine ⟨hd, hr, fun hl => ?_⟩
  have hm : (mailSend.function, mailSend.version) ∈
      (dispatchTool plainEnv (mailHandler "tools") "MAIL.send" [] [] { db := mailDb "mail" }).2.ran := by
    rw [hr]
    exact List.mem_singleton_self _
  exact hl.not_denied hm hd

end Instances

end McpworksApi.Run
