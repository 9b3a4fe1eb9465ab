import McpworksApi.Run.AccessLaw

/-! The result cache. Its key is made of the function's id, the version and the arguments, while an execution also
reads the filtered environment and the agent's state. -/

namespace McpworksApi.Run

open Models Py Services Services.Functions

theorem colon_not_mem_toString (n : ℕ) : ':' ∉ (toString n).toList := by
  intro h
  rw [Nat.toString_eq_repr, Nat.toList_repr] at h
  have hd := Nat.isDigit_of_mem_toDigits (by decide) (by decide) h
  revert hd
  decide

theorem eq_of_append_cons {c : Char} {a a' b b' : List Char} (ha : c ∉ a) (ha' : c ∉ a')
    (h : a ++ c :: b = a' ++ c :: b') :
    a = a' ∧ b = b' := by
  have hs : splitFirst [c] (a ++ c :: b) = some (a, b) := splitFirst_singleton.mpr ⟨rfl, ha⟩
  rw [h, splitFirst_singleton.mpr ⟨rfl, ha'⟩] at hs
  obtain ⟨rfl, rfl⟩ := Prod.mk.inj (Option.some.inj hs)
  exact ⟨rfl, rfl⟩

theorem makeCacheKey_inj {env : RunEnv} {id id' ver version' : ℕ} {inp inp' : Args}
    (h : makeCacheKey env id ver inp = makeCacheKey env id' version' inp') : id = id' ∧ ver = version' := by
  have hl := congrArg String.toList h
  simp only [makeCacheKey, String.toList_append, List.append_assoc] at hl
  have hid := List.append_cancel_left hl
  obtain ⟨hid, hr⟩ := eq_of_append_cons (colon_not_mem_toString id) (colon_not_mem_toString id') hid
  obtain ⟨hv, -⟩ := eq_of_append_cons (colon_not_mem_toString ver) (colon_not_mem_toString version')
    (List.cons.inj hr).2
  exact ⟨toString_injective (String.toList_injective hid), toString_injective (String.toList_injective hv)⟩

theorem starts_of_success {sb : Sandbox} {lang : Language} {f : Function} {v : FunctionVersion} {inp : Json}
    {e : List (String × String)} {ctx : Option (List (String × Json))} {fs : List CodeFile}
    (h : (functionCall sb lang f v inp e ctx fs).result.success = true) : Starts sb lang v := by
  rcases hp : prepare sb lang v.code with r | code
  · have hf : r.success = false := by
      unfold prepare at hp
      dsimp only at hp
      split at hp
      · cases hp
        rfl
      · split at hp
        · cases hp
        · split at hp
          · cases hp
          · cases hp
            rfl
    simp only [functionCall, startedProgram, hp, answer, hf] at h
    cases h
  · exact ⟨code, hp⟩

structure ToolCall where
  handler : RunHandler
  name : String
  args : Args
  env : List (String × String) := []

structure Inputs where
  args : Args
  env : List (String × String)
  context : Option (List (String × Json))

structure Inputs.Same (a b : Inputs) : Prop where
  args : (Json.obj a.args).sorted = (Json.obj b.args).sorted
  env : a.env.Perm b.env
  context : a.context.map (fun c => (Json.obj c).sorted) = b.context.map fun c => (Json.obj c).sorted

namespace ToolCall

def dispatch (env : RunEnv) (c : ToolCall) : Api ToolResult := dispatchTool env c.handler c.name c.args c.env

def input (c : ToolCall) : Args := c.args.erase "cache"

def key (env : RunEnv) (c : ToolCall) (f : Function) (v : FunctionVersion) : String :=
  makeCacheKey env f.id v.version c.input

def inputs (c : ToolCall) (db : Db) (ns : Namespace) (v : FunctionVersion) : Inputs :=
  ⟨c.input, functionEnv v c.env, loadAgentContext db ns.id⟩

structure Uses (env : RunEnv) (db : Db) (c : ToolCall) (ns : Namespace) (f : Function)
    (v : FunctionVersion) : Prop where
  reaches : Reaches env c.handler db c.name c.env ns f v
  cached : (getCachePolicy f).1 = true

def execution (env : RunEnv) (db : Db) (c : ToolCall) (ns : Namespace) (f : Function) (v : FunctionVersion) :
    BackendCall :=
  namedCall env db ns f v c.args c.env

end ToolCall

structure BackendCall.RanOn (c : BackendCall) (f : Function) (v : FunctionVersion) (inputs : Inputs) : Prop where
  function : ∃ g u, c.ran = [(g, u)] ∧ g.id = f.id ∧ u.version = v.version
  inputs : ∃ a, c.input = .obj a ∧ Inputs.Same ⟨a, c.env, c.context⟩ inputs

def RunEnv.withRun (env : RunEnv) (run : Program → ExecutionResult) : RunEnv :=
  { env with sandbox := { env.sandbox with run } }

/-- One call in a history: the database it finds, which entries of the cache have not expired by then,
and what the code that is run does. -/
structure Visit where
  db : Db
  call : ToolCall
  alive : String → Bool
  run : Program → ExecutionResult

namespace Visit

def before (x : Visit) (w : World) : World :=
  { w with db := x.db, cache := fun key => if x.alive key then w.cache key else none }

def dispatch (env : RunEnv) (x : Visit) (w : World) : Except ApiError ToolResult × World :=
  x.call.dispatch (env.withRun x.run) (x.before w)

def execution (env : RunEnv) (x : Visit) (ns : Namespace) (f : Function) (v : FunctionVersion) : BackendCall :=
  x.call.execution (env.withRun x.run) x.db ns f v

end Visit

def history (env : RunEnv) (past : List Visit) : World :=
  past.foldl (fun w x => (x.dispatch env w).2) { db := {} }

section Sources

variable {env : RunEnv} {past : List Visit} {w : World} {x : Visit} {ns : Namespace} {f : Function}
    {v : FunctionVersion}

theorem ToolCall.uses_withRun {db : Db} {c : ToolCall} {run : Program → ExecutionResult} :
    c.Uses (env.withRun run) db ns f v ↔ c.Uses env db ns f v :=
  ⟨fun h => ⟨⟨h.reaches.scope, h.reaches.not_api, h.reaches.namespace_eq, h.reaches.found, h.reaches.env_complete,
      h.reaches.registered⟩, h.cached⟩,
    fun h => ⟨⟨h.reaches.scope, h.reaches.not_api, h.reaches.namespace_eq, h.reaches.found, h.reaches.env_complete,
      h.reaches.registered⟩, h.cached⟩⟩

def Sourced (env : RunEnv) (past : List Visit) (w : World) : Prop :=
  ∀ key output, w.cache key = some output → ∃ x ∈ past, ∃ ns f v, x.call.Uses env x.db ns f v ∧
    Starts env.sandbox v.language v ∧ key = x.call.key env f v ∧ x.execution env ns f v ∈ w.calls ∧
      output = (x.execution env ns f v).result.output

theorem Sourced.mono (hw : Sourced env past w) {w' : World} {past' : List Visit}
    (hc : ∀ key output, w'.cache key = some output → w.cache key = some output) (hca : w.calls ⊆ w'.calls)
    (hp : past ⊆ past') : Sourced env past' w' := by
  intro key output hk
  obtain ⟨x, hx, ns, f, v, hu, hs, heq, hm, ho⟩ := hw key output (hc key output hk)
  exact ⟨x, hp hx, ns, f, v, hu, hs, heq, hca hm, ho⟩

theorem Visit.cache_before {key : String} {output : Json} (h : (x.before w).cache key = some output) :
    w.cache key = some output := by
  simp only [Visit.before] at h
  split at h
  · exact h
  · cases h

theorem Sourced.executeAndCache (hw : Sourced env past w)
    (hr : Reaches (env.withRun x.run) x.call.handler x.db x.call.name x.call.env ns f v) :
    Sourced env (past ++ [x]) (executeAndCache (env.withRun x.run) f v x.call.input (functionEnv v x.call.env)
      (loadAgentContext x.db ns.id) (x.before w)).2 := by
  have hp : past ⊆ past ++ [x] := List.subset_append_left _ _
  have hke : Sourced env (past ++ [x]) ((x.before w).record (x.execution env ns f v)) :=
    hw.mono (fun _ _ => Visit.cache_before) (List.subset_append_left _ _) hp
  rw [executeAndCache_eq]
  dsimp only
  split
  · rename_i hs
    obtain ⟨hpo, hsu⟩ := Bool.and_eq_true_iff.mp hs
    have hst : Starts (env.withRun x.run).sandbox v.language v := starts_of_success hsu
    intro key output hky
    by_cases hk : key = x.call.key env f v
    · subst hk
      have ho : Function.update (x.before w).cache (x.call.key env f v)
          (some (x.execution env ns f v).result.output) (x.call.key env f v) = some output := hky
      rw [Function.update_self] at ho
      exact ⟨x, List.mem_append_right _ (List.mem_singleton_self _), ns, f, v,
        ToolCall.uses_withRun.mp ⟨hr, hpo⟩, hst, rfl,
        List.mem_append_right _ (List.mem_singleton_self _), (Option.some.inj ho).symm⟩
    · exact hke key output ((Function.update_of_ne hk _ _).symm.trans hky)
  · exact hke

theorem Sourced.dispatch (hw : Sourced env past w) (x : Visit) :
    Sourced env (past ++ [x]) (x.dispatch env w).2 := by
  have hp : past ⊆ past ++ [x] := List.subset_append_left _ _
  have hk : Sourced env (past ++ [x]) (x.before w) :=
    hw.mono (fun _ _ => Visit.cache_before) (List.Subset.refl _) hp
  unfold Visit.dispatch ToolCall.dispatch
  rcases dispatchTool_cases (env.withRun x.run) x.call.handler x.call.name x.call.args x.call.env (x.before w) with
    hid | ⟨ns, lang, text, files, hr⟩ | ⟨ns, f, v, hr⟩
  · rw [hid.1]
    exact hk
  · rw [dispatchTool_of_runsClient hr]
    exact hk.mono (fun _ _ h => h) (List.subset_append_left _ _) (List.Subset.refl _)
  · rw [dispatchTool_of_reaches hr, executeFound_of_reaches hr]
    rcases cachedOutput (env.withRun x.run) f v x.call.args (x.before w) with _ | output
    · exact hw.executeAndCache hr
    · exact hk

theorem sourced_history (env : RunEnv) (past : List Visit) : Sourced env past (history env past) := by
  induction past using List.reverseRecOn with
  | nil =>
    intro key output h
    cases h
  | append_singleton past x ih =>
    unfold history at ih ⊢
    rw [List.foldl_append]
    exact ih.dispatch x

end Sources

/-- In every history of the given calls, each on the database it comes with, a call is answered from
the cache only with what an execution on its own inputs returned, whatever the code that is
run does and whichever entries expire. -/
def CacheSound (env : RunEnv) (calls : Set (Db × ToolCall)) : Prop :=
  ∀ (past : List Visit) (x : Visit), (∀ y ∈ past ++ [x], (y.db, y.call) ∈ calls) →
    ∀ ns f v r, x.call.Uses env x.db ns f v → (x.dispatch env (history env past)).1 = .ok (.executed r) →
      (x.dispatch env (history env past)).2.calls = (history env past).calls →
        ∃ c ∈ (history env past).calls, c.RanOn f v (x.call.inputs x.db ns v) ∧ c.result.output = r.output

/-- Two calls share a cache entry: both get to functions with cached results, the code of the first
starts, the second does not bypass the cache, and their keys agree. -/
structure ShareEntry (env : RunEnv) (p q : Db × ToolCall) (ns₁ ns₂ : Namespace) (f₁ f₂ : Function)
    (v₁ v₂ : FunctionVersion) : Prop where
  first : p.2.Uses env p.1 ns₁ f₁ v₁
  starts : Starts env.sandbox v₁.language v₁
  second : q.2.Uses env q.1 ns₂ f₂ v₂
  bypass : cacheBypass q.2.args = false
  key_eq : p.2.key env f₁ v₁ = q.2.key env f₂ v₂

section Law

variable {env : RunEnv} {w : World} {db : Db} {c : ToolCall} {ns : Namespace} {f : Function} {v : FunctionVersion}

theorem dispatch_of_hit {output : Json} (hc : c.Uses env w.db ns f v) (hb : cacheBypass c.args = false)
    (hh : getCachedResult w (c.key env f v) = some output) :
    c.dispatch env w = (.ok (.executed { success := true, output }), w) := by
  have hca : cachedOutput env f v c.args w = some output := by
    unfold cachedOutput
    rw [hc.cached, hb]
    exact hh
  unfold ToolCall.dispatch
  rw [dispatchTool_of_reaches hc.reaches, executeFound_of_reaches hc.reaches, hca]

theorem dispatch_of_miss (hc : c.Uses env w.db ns f v) (hw : ∀ key, w.cache key = none)
    (hsu : (c.execution env w.db ns f v).result.success = true) :
    (c.dispatch env w).2 =
      { w.record (c.execution env w.db ns f v) with
        cache := Function.update w.cache (c.key env f v) (some (c.execution env w.db ns f v).result.output) } := by
  have hm : cachedOutput env f v c.args w = none := by
    unfold cachedOutput getCachedResult
    rw [hw]
    split <;> rfl
  unfold ToolCall.dispatch
  rw [dispatchTool_of_reaches hc.reaches, executeFound_of_reaches hc.reaches, hm]
  dsimp only
  rw [executeAndCache_eq]
  have hs : ((getCachePolicy f).1 && (c.execution env w.db ns f v).result.success) = true := by
    rw [hc.cached, hsu]
    rfl
  dsimp only [ToolCall.execution, namedCall] at hs ⊢
  rw [if_pos hs]
  rfl

theorem hit_of_dispatch {r : ExecutionResult} (hc : c.Uses env w.db ns f v)
    (hr : (c.dispatch env w).1 = .ok (.executed r)) (hcl : (c.dispatch env w).2.calls = w.calls) :
    cacheBypass c.args = false ∧ w.cache (c.key env f v) = some r.output := by
  unfold ToolCall.dispatch at hr hcl
  rw [dispatchTool_of_reaches hc.reaches] at hr hcl
  rw [executeFound_calls hc.reaches] at hcl
  rw [executeFound_of_reaches hc.reaches] at hr
  rcases hca : cachedOutput env f v c.args w with _ | output
  · rw [hca] at hcl
    simp at hcl
  · rw [hca] at hr
    cases hr
    unfold cachedOutput at hca
    split at hca
    · rename_i he
      simp only [hc.cached, Bool.true_and, Bool.not_eq_true'] at he
      refine ⟨he, ?_⟩
      unfold getCachedResult at hca
      split at hca
      · cases hca
      · exact hca
    · cases hca

def emptyText : Program → ExecutionResult := fun _ => { success := true, output := .str "" }

theorem execution_emptyText (hs : Starts env.sandbox v.language v) :
    (c.execution (env.withRun emptyText) db ns f v).result = { success := true, output := .str "" } := by
  obtain ⟨code, hc⟩ := hs
  have hp : prepare (env.withRun emptyText).sandbox v.language v.code = .ok code := hc
  simp only [ToolCall.execution, namedCall, functionCall, startedProgram, hp, answer]
  rfl

theorem CacheSound.same {calls : Set (Db × ToolCall)} (hs : CacheSound env calls) {p q : Db × ToolCall}
    (hp : p ∈ calls) (hq : q ∈ calls) {ns₁ ns₂ : Namespace} {f₁ f₂ : Function} {v₁ v₂ : FunctionVersion}
    (h : ShareEntry env p q ns₁ ns₂ f₁ f₂ v₁ v₂) : (p.2.inputs p.1 ns₁ v₁).Same (q.2.inputs q.1 ns₂ v₂) := by
  -- let the code return some text, and nothing expire
  let x : Visit := ⟨p.1, p.2, fun _ => true, emptyText⟩
  let y : Visit := ⟨q.1, q.2, fun _ => true, emptyText⟩
  have hca : (x.execution env ns₁ f₁ v₁).result = { success := true, output := .str "" } :=
    execution_emptyText h.starts
  have hpa : history env [x] =
      { (x.before { db := {} }).record (x.execution env ns₁ f₁ v₁) with
        cache := Function.update (fun _ => none) (p.2.key env f₁ v₁) (some (.str "")) } := by
    have hm := dispatch_of_miss (w := x.before { db := {} }) (ToolCall.uses_withRun.mpr h.first) (fun _ => rfl)
      (congrArg ExecutionResult.success hca)
    refine hm.trans ?_
    rw [show (p.2.execution (env.withRun emptyText) (x.before { db := {} }).db ns₁ f₁ v₁).result = _ from hca]
    rfl
  have he : getCachedResult (y.before (history env [x])) (q.2.key (env.withRun emptyText) f₂ v₂) =
    some (.str "") := by
    have hcc : (y.before (history env [x])).cache (q.2.key env f₂ v₂) = some (.str "") := by
      rw [hpa, ← h.key_eq]
      exact Function.update_self (p.2.key env f₁ v₁) (some (Json.str "")) fun _ => none
    unfold getCachedResult
    rw [show (y.before (history env [x])).cache (q.2.key (env.withRun emptyText) f₂ v₂) = _ from hcc]
  have hh : y.dispatch env (history env [x]) = _ :=
    dispatch_of_hit (w := y.before (history env [x])) (ToolCall.uses_withRun.mpr h.second) h.bypass he
  have hme : ∀ z ∈ [x] ++ [y], (z.db, z.call) ∈ calls := by
    intro z hz
    simp only [List.cons_append, List.nil_append, List.mem_cons, List.not_mem_nil, or_false] at hz
    obtain rfl | rfl := hz
    · exact hp
    · exact hq
  obtain ⟨c, hc, hr, -⟩ := hs [x] y hme ns₂ f₂ v₂ _ h.second (by rw [hh]) (by rw [hh]; rfl)
  rw [hpa] at hc
  obtain rfl := List.mem_singleton.mp hc
  obtain ⟨a, ha, hsa⟩ := hr.inputs
  cases ha
  exact hsa

/-- Calls get only cached results computed from their own inputs exactly when no two of them share a
cache entry with different arguments, environments or agent states. -/
theorem cacheSound_iff (env : RunEnv) (calls : Set (Db × ToolCall)) : CacheSound env calls ↔
      ∀ p ∈ calls, ∀ q ∈ calls, ∀ ns₁ ns₂ f₁ f₂ v₁ v₂, ShareEntry env p q ns₁ ns₂ f₁ f₂ v₁ v₂ →
        (p.2.inputs p.1 ns₁ v₁).Same (q.2.inputs q.1 ns₂ v₂) := by
  constructor
  · intro hso p hp q hq ns₁ ns₂ f₁ f₂ v₁ v₂ h
    exact hso.same hp hq h
  · intro hco past x hc ns₂ f₂ v₂ r hs hr hil
    obtain ⟨hb, he⟩ := hit_of_dispatch (w := x.before (history env past)) (ToolCall.uses_withRun.mpr hs)
      hr hil
    obtain ⟨y, hy, ns₁, f₁, v₁, hu, hst, hk, hm, ho⟩ :=
      sourced_history env past _ _ (Visit.cache_before he)
    have hsa := hco (y.db, y.call) (hc y (List.mem_append_left _ hy)) (x.db, x.call)
      (hc x (List.mem_append_right _ (List.mem_singleton_self _))) ns₁ ns₂ f₁ f₂ v₁ v₂
      ⟨hu, hst, hs, hb, hk.symm⟩
    obtain ⟨hid, hv⟩ := makeCacheKey_inj hk
    exact ⟨_, hm, ⟨⟨f₁, v₁, functionCall_ran_of_starts hst, hid.symm, hv.symm⟩, _, rfl, hsa⟩, ho.symm⟩

end Law

def inboxDb : Db where
  namespaces := .single { id := 1, accountId := 2, name := .acme }
  services := .single { id := 3, namespaceId := 1, name := .mail }
  functions := .single { id := 4, serviceId := 3, name := .inbox, cachePolicy := some { enabled := true } }
  versions := .single { id := 5, functionId := 4, code := some "result = os.environ", optionalEnv := some ["API_TOKEN"] }

def inboxCall (token : String) : ToolCall where
  handler := mailHandler "tools"
  name := "mail.inbox"
  args := []
  env := [("API_TOKEN", token)]

def inboxVisit (token : String) : Visit where
  db := inboxDb
  call := inboxCall token
  alive _ := true
  run p := { success := true, output := .arr (p.env.map fun e => .str e.2) }

theorem inboxCall_uses (tk : String) :
    ∃ ns f v, (inboxCall tk).Uses plainEnv inboxDb ns f v ∧ Starts eagerSandbox v.language v ∧
      functionEnv v [("API_TOKEN", tk)] = [("API_TOKEN", tk)] ∧ (f.id, v.version) = (4, 1) := by
  have hs : (mailHandler "tools").apiKey.hasScope "execute" = true := by decide
  have ha : startsWith "mail.inbox" "api__" = false := by decide
  have hns : getNamespace inboxDb (mailHandler "tools") = .ok { id := 1, accountId := 2, name := .acme } := by
    rfl
  have hsp : splitOnce "." "mail.inbox" = some ("mail", "inbox") := by rfl
  exact ⟨_, _, _, ⟨⟨hs, ha, hns, ⟨"mail", "inbox", hsp, by rfl, by rfl⟩, by rfl, rfl⟩, rfl⟩, ⟨_, rfl⟩, rfl, rfl⟩

/-- The second caller gets the first caller's token. -/
theorem cached_result_of_another_caller :
    (match ((inboxVisit "bob").dispatch plainEnv (history plainEnv [inboxVisit "alice"])).1 with
      | .ok (.executed r) => some r.output
      | _ => none) = some (.arr [.str "alice"]) ∧
      ¬ CacheSound plainEnv {(inboxDb, inboxCall "alice"), (inboxDb, inboxCall "bob")} := by
  refine ⟨by rfl, fun hs => ?_⟩
  obtain ⟨ns₁, f₁, v₁, hu₁, hst, he₁, hi₁⟩ := inboxCall_uses "alice"
  obtain ⟨ns₂, f₂, v₂, hu₂, -, he₂, hi₂⟩ := inboxCall_uses "bob"
  obtain ⟨hf₁, hv₁⟩ := Prod.mk.inj hi₁
  obtain ⟨hf₂, hv₂⟩ := Prod.mk.inj hi₂
  have hk : (inboxCall "alice").key plainEnv f₁ v₁ = (inboxCall "bob").key plainEnv f₂ v₂ := by
    unfold ToolCall.key
    rw [hf₁, hv₁, hf₂, hv₂]
    rfl
  have hsa := hs.same (.inl rfl) (.inr rfl) ⟨hu₁, hst, hu₂, rfl, hk⟩
  have hp : (functionEnv v₁ [("API_TOKEN", "alice")]).Perm (functionEnv v₂ [("API_TOKEN", "bob")]) := hsa.env
  rw [he₁, he₂] at hp
  revert hp
  decide

end McpworksApi.Run
