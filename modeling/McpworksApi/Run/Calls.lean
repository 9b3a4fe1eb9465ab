import McpworksApi.Run.Dispatch

/-! What one call of `dispatch_tool` does. A call that gets to a stored function answers from the cache or makes one
call of the backend; a call of code mode makes one call of the backend; every other call changes nothing. -/

namespace McpworksApi.Run

open Models Py Services Services.Functions Session

structure Reaches (env : RunEnv) (h : RunHandler) (db : Db) (name : String) (sandboxEnv : List (String × String))
    (ns : Namespace) (f : Function) (v : FunctionVersion) : Prop where
  scope : h.apiKey.hasScope "execute" = true
  not_api : startsWith name "api__" = false
  namespace_eq : getNamespace db h = .ok ns
  found : ∃ service function, splitOnce "." name = some (service, function) ∧
    checkAgentFunctionAccess db ns.id service function = .ok () ∧
    getForExecution db ns.id service function = .ok (f, v)
  env_complete : checkRequiredEnv (filterEnvForFunction sandboxEnv v.requiredEnv v.optionalEnv) v.requiredEnv = []
  registered : env.sandbox.registered v.backend = true

def IsCodeTool (name : String) : Language → Prop
  | .python => name = "execute_python" ∨ name = "execute"
  | .typescript => name = "execute_typescript"

def codeTool : Language → String
  | .python => "execute_python"
  | .typescript => "execute_typescript"

theorem isCodeTool_codeTool (language : Language) : IsCodeTool (codeTool language) language := by
  cases language
  · exact .inl rfl
  · rfl

/-- A call of a code tool that gets to the backend, with the client's program and the files of the package. -/
structure RunsClient (env : RunEnv) (h : RunHandler) (db : Db) (name : String) (args : Args) (ns : Namespace)
    (language : Language) (text : String) (files : List CodeFile) : Prop where
  scope : h.apiKey.hasScope "execute" = true
  mode : h.mode = "code"
  tool : IsCodeTool name language
  code : args.get? "code" = some (.str text)
  code_ne : text ≠ ""
  namespace_eq : getNamespace db h = .ok ns
  package : packageFiles db h.namespaceName ns.id language = .ok files
  registered : env.sandbox.registered .codeSandbox = true

def functionEnv (v : FunctionVersion) (sandboxEnv : List (String × String)) : List (String × String) :=
  filterEnvForFunction sandboxEnv v.requiredEnv v.optionalEnv

def namedCall (env : RunEnv) (db : Db) (ns : Namespace) (f : Function) (v : FunctionVersion) (args : Args)
    (sandboxEnv : List (String × String)) : BackendCall :=
  functionCall env.sandbox v.language f v (.obj (args.erase "cache")) (functionEnv v sandboxEnv)
    (loadAgentContext db ns.id) []

def clientCall (env : RunEnv) (h : RunHandler) (db : Db) (ns : Namespace) (language : Language) (text : String)
    (files : List CodeFile) (sandboxEnv : List (String × String)) : BackendCall :=
  packageCall env.sandbox language (if language = .python then text ++ callLogCaptureSnippet else text)
    files (clientEnv db h ns.id language sandboxEnv) (loadAgentContext db ns.id)

theorem mem_of_packageFiles {db : Db} {namespaceName : String} {namespaceId : ℕ} {lang : Language} {c : CodeFile}
    {files : List CodeFile} (hf : packageFiles db namespaceName namespaceId lang = .ok files) (hc : c ∈ files) :
    (c.function, c.version) ∈ listAllForNamespace db namespaceId := by
  cases lang with
  | python =>
    obtain ⟨package, hp, hf⟩ := bind_eq_ok.mp hf
    obtain ⟨_, -, hf⟩ := bind_eq_ok.mp hf
    obtain ⟨_, -, hp⟩ := bind_eq_ok.mp hp
    rw [← Except.ok.inj hf, ← Except.ok.inj hp] at hc
    dsimp only [generateFunctionsPackage] at hc
    exact mem_codeFiles hc
  | typescript =>
    rw [← Except.ok.inj hf] at hc
    exact mem_codeFiles hc

section Cases

variable {env : RunEnv} {h : RunHandler} {name : String} {args : Args} {sandboxEnv : List (String × String)}
  {w : World} {ns : Namespace} {f : Function} {v : FunctionVersion} {lang : Language} {text : String}
  {files : List CodeFile}

theorem hasScope_of_checkScope (hn : name ≠ "_env_status") (hs : checkScope h name = .ok ()) :
    h.apiKey.hasScope "execute" = true := by
  unfold checkScope at hs
  rw [if_neg hn] at hs
  by_contra hno
  simp [hno] at hs

theorem checkScope_of_hasScope (hs : h.apiKey.hasScope "execute" = true)
    (hn : name ≠ "_env_status") : checkScope h name = .ok () := by
  unfold checkScope
  rw [if_neg hn]
  simp [hs]

theorem dispatchTool_named {svc fn : String}
    (hs : h.apiKey.hasScope "execute" = true) (hd : '.' ∉ svc.toList)
    (ha : startsWith (svc ++ "." ++ fn) "api__" = false) :
    dispatchTool env h (svc ++ "." ++ fn) args sandboxEnv w =
      dispatchNamed env h svc fn args sandboxEnv w := by
  -- the names of the other tools have no dot in them
  have hne : ∀ tool : String, '.' ∉ tool.toList → svc ++ "." ++ fn ≠ tool := by
    rintro tool ht rfl
    exact ht (by simp)
  have hc := checkScope_of_hasScope hs (hne "_env_status" (by decide))
  unfold dispatchTool
  simp only [fetch_bind_apply, hc]
  rw [if_neg (by simp [hne "execute_python" (by decide), hne "execute" (by decide)]),
    if_neg (by simp [hne "execute_typescript" (by decide)]), if_neg (hne _ (by decide)), ha,
    if_neg Bool.false_ne_true, splitOnce_dot.mpr ⟨rfl, hd⟩]

theorem executeFound_of_reaches (hr : Reaches env h w.db name sandboxEnv ns f v) :
    executeFound env ns.id f v args sandboxEnv w =
      match cachedOutput env f v args w with
      | some output => (.ok (.executed { success := true, output }), w)
      | none => executeAndCache env f v (args.erase "cache") (functionEnv v sandboxEnv)
          (loadAgentContext w.db ns.id) w := by
  unfold executeFound
  dsimp only
  rw [hr.env_complete, if_neg (by simp), if_pos hr.registered]
  simp only [query_bind_apply]
  rcases cachedOutput env f v args w with _ | output <;> rfl

theorem dispatchTool_of_reaches (hr : Reaches env h w.db name sandboxEnv ns f v) :
    dispatchTool env h name args sandboxEnv w = executeFound env ns.id f v args sandboxEnv w := by
  obtain ⟨svc, fn, hs, hc, hf⟩ := hr.found
  obtain ⟨rfl, hd⟩ := splitOnce_dot.mp hs
  rw [dispatchTool_named hr.scope hd hr.not_api]
  simp only [dispatchNamed, fetch_bind_apply, hr.namespace_eq, hc, hf]

theorem executeAndCache_eq {inp : Args} {ke : List (String × String)} {ctx : Option (List (String × Json))} :
    executeAndCache env f v inp ke ctx w =
      let c := functionCall env.sandbox v.language f v (.obj inp) ke ctx []
      (.ok (.executed c.result),
        if (getCachePolicy f).1 && c.result.success then
          { w.record c with
            cache := Function.update w.cache (makeCacheKey env f.id v.version inp) (some c.result.output) }
        else w.record c) := by
  unfold executeAndCache
  rw [bind_of_ok executeFunction_apply]
  dsimp only
  split <;> rfl

theorem executeAndCache_calls {inp : Args} {ke : List (String × String)}
    {ctx : Option (List (String × Json))} :
    (executeAndCache env f v inp ke ctx w).2.calls =
      w.calls ++ [functionCall env.sandbox v.language f v (.obj inp) ke ctx []] := by
  rw [executeAndCache_eq]
  dsimp only
  split <;> rfl

theorem executeFound_calls (hr : Reaches env h w.db name sandboxEnv ns f v) :
    (executeFound env ns.id f v args sandboxEnv w).2.calls =
      w.calls ++ if (cachedOutput env f v args w).isSome then [] else
        [namedCall env w.db ns f v args sandboxEnv] := by
  rw [executeFound_of_reaches hr]
  rcases cachedOutput env f v args w with _ | output
  · exact executeAndCache_calls
  · simp

theorem mem_calls_executeFound (hr : Reaches env h w.db name sandboxEnv ns f v) (hw : w.calls = []) {c : BackendCall}
    (hc : c ∈ (executeFound env ns.id f v args sandboxEnv w).2.calls) :
    c = namedCall env w.db ns f v args sandboxEnv := by
  rw [executeFound_calls hr, hw, List.nil_append] at hc
  split at hc
  · cases hc
  · exact List.mem_singleton.mp hc

theorem mem_namedCall_ran {db : Db} {p : Function × FunctionVersion}
    (hp : p ∈ (namedCall env db ns f v args sandboxEnv).ran) : p = (f, v) ∧ Starts env.sandbox v.language v := by
  by_cases hs : Starts env.sandbox v.language v
  · rw [namedCall, functionCall_ran_of_starts hs] at hp
    exact ⟨List.mem_singleton.mp hp, hs⟩
  · rw [namedCall, functionCall_ran_of_not_starts hs] at hp
    cases hp

theorem dispatchTool_of_runsClient (hr : RunsClient env h w.db name args ns lang text files) :
    dispatchTool env h name args sandboxEnv w =
      (.ok (.executed (clientCall env h w.db ns lang text files sandboxEnv).result),
        w.record (clientCall env h w.db ns lang text files sandboxEnv)) := by
  have hc : executeCodeMode env h lang (.str text) sandboxEnv w =
      (.ok (.executed (clientCall env h w.db ns lang text files sandboxEnv).result),
        w.record (clientCall env h w.db ns lang text files sandboxEnv)) := by
    unfold executeCodeMode
    rw [if_pos (Json.truthy_str.mpr hr.code_ne)]
    simp only [fetch_bind_apply, hr.namespace_eq, hr.package, query_bind_apply, hr.registered, if_true]
    rw [bind_of_ok executePackage_apply]
    rfl
  unfold dispatchTool
  cases lang with
  | python =>
    have hs : checkScope h name = .ok () :=
      checkScope_of_hasScope hr.scope (by rcases hr.tool with rfl | rfl <;> decide)
    simp only [fetch_bind_apply, hs]
    rw [if_pos ⟨hr.tool, hr.mode⟩, hr.code]
    exact hc
  | typescript =>
    obtain rfl : name = "execute_typescript" := hr.tool
    have hs : checkScope h "execute_typescript" = .ok () := checkScope_of_hasScope hr.scope (by decide)
    simp only [fetch_bind_apply, hs]
    rw [if_neg (by simp), if_pos ⟨trivial, hr.mode⟩, hr.code]
    exact hc

def Idle (out : Except ApiError ToolResult × World) (w : World) : Prop :=
  out.2 = w ∧ ∀ r, out.1 ≠ .ok (.executed r)

theorem idle_fetch_bind {α : Type} {q : World → Except ApiError α} {g : α → Api ToolResult} {P : Prop}
    (hg : ∀ a, q w = .ok a → Idle (g a w) w ∨ P) : Idle ((fetch q >>= g) w) w ∨ P := by
  rcases hq : q w with e | a
  · rw [fetch_bind_of_error hq]
    exact .inl ⟨rfl, by simp⟩
  · rw [fetch_bind_of_ok hq]
    exact hg a hq

theorem executeCodeMode_cases (lang : Language) (hs : h.apiKey.hasScope "execute" = true) (hm : h.mode = "code")
    (hto : IsCodeTool name lang) :
    Idle (executeCodeMode env h lang ((args.get? "code").getD (.str "")) sandboxEnv w) w ∨
      ∃ ns text files, RunsClient env h w.db name args ns lang text files := by
  unfold executeCodeMode
  split
  · rename_i ht
    refine idle_fetch_bind fun ns hns => idle_fetch_bind fun files hfi => ?_
    simp only [query_bind_apply]
    split
    · rename_i hr
      rcases hc : args.get? "code" with _ | code
      · rw [hc] at ht
        cases ht
      rw [hc] at ht
      cases code with
      | str text => exact .inr ⟨ns, text, files, hs, hm, hto, hc, Json.truthy_str.mp ht, hns, hfi, hr⟩
      | null | bool | int | float | arr | obj => exact .inl ⟨rfl, by simp⟩
    · exact .inl ⟨rfl, by simp⟩
  · exact .inl ⟨rfl, by simp⟩

theorem dispatchNamed_cases {svc fn : String} (hs : h.apiKey.hasScope "execute" = true)
    (hap : startsWith name "api__" = false) (hsp : splitOnce "." name = some (svc, fn)) :
    Idle (dispatchNamed env h svc fn args sandboxEnv w) w ∨
      ∃ ns f v, Reaches env h w.db name sandboxEnv ns f v := by
  refine idle_fetch_bind fun ns hns => idle_fetch_bind fun _ hc => idle_fetch_bind fun (f, v) hf => ?_
  unfold executeFound
  dsimp only
  split
  · exact .inl ⟨rfl, by simp⟩
  rename_i he
  split
  · rename_i hr
    exact .inr ⟨ns, f, v, hs, hap, hns, ⟨svc, fn, hsp, hc, hf⟩, not_not.mp he, hr⟩
  · exact .inl ⟨rfl, by simp⟩

theorem dispatchTool_cases (env : RunEnv) (h : RunHandler) (name : String) (args : Args)
    (sandboxEnv : List (String × String)) (w : World) :
    Idle (dispatchTool env h name args sandboxEnv w) w ∨
      (∃ ns lang text files, RunsClient env h w.db name args ns lang text files) ∨
      ∃ ns f v, Reaches env h w.db name sandboxEnv ns f v := by
  refine idle_fetch_bind fun _ hs => ?_
  split
  · rename_i hn
    have he := hasScope_of_checkScope (by rcases hn.1 with h | h <;> rw [h] <;> decide) hs
    rcases executeCodeMode_cases .python he hn.2 hn.1 with hid | ⟨ns, text, files, hr⟩
    · exact .inl hid
    · exact .inr (.inl ⟨ns, _, text, files, hr⟩)
  split
  · rename_i hn
    have he := hasScope_of_checkScope (by rw [hn.1]; decide) hs
    rcases executeCodeMode_cases .typescript he hn.2 hn.1 with hid | ⟨ns, text, files, hr⟩
    · exact .inl hid
    · exact .inr (.inl ⟨ns, _, text, files, hr⟩)
  split
  · exact idle_fetch_bind fun _ _ => .inl ⟨rfl, by simp⟩
  rename_i hst
  have he := hasScope_of_checkScope hst hs
  split
  · unfold dispatchPublishedApi
    rcases parseApiToolName name with _ | target
    · exact .inl ⟨rfl, by simp⟩
    · exact idle_fetch_bind fun _ _ => idle_fetch_bind fun _ _ => .inl ⟨rfl, by simp⟩
  rename_i ha
  rcases hsp : splitOnce "." name with _ | ⟨svc, fn⟩
  · exact .inl ⟨rfl, by simp⟩
  · exact (dispatchNamed_cases he (by simpa using ha) hsp).imp_right .inr

end Cases

end McpworksApi.Run
