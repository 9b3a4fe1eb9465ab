import McpworksApi.Agents.Scheduler
import McpworksApi.Agents.Tools
import McpworksApi.Run.AccessLaw

/-! The functions that run a stored function by name: `dispatch_tool` of the run handler, `_execute_function_direct` of
the scheduler, `_execute_webhook_function_direct` of the webhook handler and `_execute_namespace_function` of the
orchestrator. Each looks the function up and makes at most one call of the backend. -/

namespace McpworksApi.Agents

open Models Py Run Services Services.Functions Session

structure EntryEnv where
  tools : RunEnv
  scheduler : SchedulerEnv
  webhook : WebhookEnv
  agent : AgentEnv

inductive EntryPoint
  | tool (handler : RunHandler) (name : String) (args : Args) (sandboxEnv : List (String × String))
  | schedule (schedule : AgentSchedule) (agent : Agent)
  /-- `_execute_webhook_function_direct` itself, which its handler calls with the payload. -/
  | webhook (webhook : AgentWebhook) (agent : Agent) (payload : Json)
  | orchestrator (agent : Agent) (service function : String) (input : Args) (state : List (String × Json))
      (agentRunId : Option String)

namespace EntryPoint

def after (env : EntryEnv) (w : World) : EntryPoint → World
  | tool h name args sandboxEnv => (Run.dispatchTool env.tools h name args sandboxEnv w).2
  | schedule s agent => (executeFunctionDirect env.scheduler s agent w).2
  | webhook hook agent payload => (executeWebhookFunctionDirect env.webhook hook agent payload w).2
  | orchestrator agent service function input state runId =>
    (executeNamespaceFunction env.agent agent service function input state runId w).2

def versionNamed (db : Db) (namespaceId : ℕ) (name : String) : Option (Function × FunctionVersion) :=
  match splitOnce "." name with
  | none => none
  | some (service, function) => (getForExecution db namespaceId service function).toOption

def version (db : Db) : EntryPoint → Option (Function × FunctionVersion)
  | tool h name _ _ => (getNamespace db h).toOption.bind fun ns => versionNamed db ns.id name
  | schedule s agent => (db.accounts.get? agent.accountId).bind fun account =>
    (scheduleNamespace db agent account).toOption.join.bind fun ns => versionNamed db ns.id s.functionName
  | webhook hook agent _ => versionNamed db agent.namespaceId hook.handlerFunctionName
  | orchestrator agent service function _ _ _ => (getForExecution db agent.namespaceId service function).toOption

/-- The files that go with the call can be made: a schedule generates a package for code that imports from it. -/
def packages (db : Db) (v : FunctionVersion) : EntryPoint → Bool
  | schedule _ agent => (db.accounts.get? agent.accountId).any fun account =>
    (scheduleNamespace db agent account).toOption.join.any fun ns => (scheduleFiles db ns v).toOption.isSome
  | _ => true

def sandbox (env : EntryEnv) : EntryPoint → Sandbox
  | tool _ _ _ _ => env.tools.sandbox
  | schedule _ _ => env.scheduler.run.sandbox
  | webhook _ _ _ => env.webhook.run.sandbox
  | orchestrator _ _ _ _ _ _ => env.agent.run.sandbox

def isTool : EntryPoint → Bool
  | tool _ _ _ _ => true
  | _ => false

end EntryPoint

structure OwnCall (v : FunctionVersion) (c : BackendCall) : Prop where
  code : c.code = v.code
  config : c.config = v.config
  language : c.language = v.language

def RunsAsStored (env : EntryEnv) (db : Db) (e : EntryPoint) : Prop :=
  ∀ cache f v, e.version db = some (f, v) → ∀ c ∈ (e.after env { db, cache }).calls, OwnCall v c

section Calls

variable {w : World} {f : Function} {v : FunctionVersion}

theorem ownCall_functionCall {sb : Sandbox} {lang : Language} {inp : Json} {e : List (String × String)}
    {ctx : Option (List (String × Json))} {fs : List CodeFile} :
    OwnCall v (functionCall sb lang f v inp e ctx fs) ↔ lang = v.language :=
  ⟨fun h => h.language, fun h => ⟨rfl, rfl, h⟩⟩

theorem toOption_eq_some {α : Type} {r : Except ApiError α} {a : α} (h : r.toOption = some a) : r = .ok a := by
  cases r with
  | error e => cases h
  | ok b => exact congrArg Except.ok (Option.some.inj h)

theorem versionNamed_eq_some {db : Db} {nid : ℕ} {name : String}
    (h : EntryPoint.versionNamed db nid name = some (f, v)) :
    ∃ sv fnn, splitOnce "." name = some (sv, fnn) ∧
      getForExecution db nid sv fnn = .ok (f, v) := by
  unfold EntryPoint.versionNamed at h
  rcases hs : splitOnce "." name with _ | ⟨sv, fnn⟩
  · rw [hs] at h
    cases h
  · rw [hs] at h
    exact ⟨sv, fnn, rfl, toOption_eq_some h⟩

def pythonCalls (sb : Sandbox) (f : Function) (v : FunctionVersion) (input : Json)
    (context : List (String × Json)) (files : List CodeFile) : List BackendCall :=
  if sb.registered v.backend then [functionCall sb .python f v input [] (some context) files] else []

variable {fn svc : String} {ag : Agent} (rid : ℕ)

theorem executeNamespaceFunction_calls (env : AgentEnv) (inp : Args)
    (st : List (String × Json)) (rid : Option String)
    (hg : getForExecution w.db ag.namespaceId svc fn = .ok (f, v)) :
    ∃ context, (executeNamespaceFunction env ag svc fn inp st rid w).2.calls =
      w.calls ++ pythonCalls env.run.sandbox f v (.obj inp) context [] := by
  unfold executeNamespaceFunction pythonCalls
  rw [query_bind_apply, hg]
  dsimp only
  by_cases hr : env.run.sandbox.registered v.backend = true
  · simp only [if_pos hr]
    refine ⟨_, executeFunction_bind_calls fun r => ?_⟩
    split
    · refine .write_bind (fun _ => rfl) ?_
      split <;> exact .pure _
    · exact .pure _
  · simp only [if_neg hr]
    exact ⟨[], (List.append_nil _).symm⟩

theorem keepsCalls_endRun (env : RunEnv) (st : RunStatus) (err sum : Option String) :
    KeepsCalls (endRun env rid st err sum) :=
  .fetch_bind fun _ => .write fun _ => rfl

theorem transaction_calls {α : Type} (m : Api α) :
    (transaction (fun pre post : World => { post with db := pre.db }) m w).2.calls = (m w).2.calls := by
  unfold transaction
  rcases m w with ⟨_ | _, w'⟩ <;> rfl

theorem executeWebhookFunctionDirect_calls (env : WebhookEnv) {hook : AgentWebhook} (pay : Json)
    (hn : splitOnce "." hook.handlerFunctionName = some (svc, fn))
    (hg : getForExecution w.db ag.namespaceId svc fn = .ok (f, v)) :
    ∃ context, (executeWebhookFunctionDirect env hook ag pay w).2.calls =
      w.calls ++ pythonCalls env.run.sandbox f v pay context [] := by
  unfold executeWebhookFunctionDirect pythonCalls
  rw [hn]
  dsimp only
  -- the run that is added first changes nothing that the lookup reads
  rw [transaction_calls, query_bind_apply, write_bind_apply, query_bind_of_eq (a := .ok (f, v))]
  swap
  · exact hg
  dsimp only
  by_cases hr : env.run.sandbox.registered v.backend = true
  · simp only [if_pos hr, query_bind_apply]
    refine ⟨_, executeFunction_bind_calls fun r => ?_⟩
    split <;> exact (keepsCalls_endRun _ _ _ _ _).bind fun _ => .pure _
  · simp only [if_neg hr]
    have hk : ∀ status error sum (ans : Json),
        KeepsCalls (endRun env.run w.db.agentRuns.freshId status error sum >>= fun _ => pure ans) :=
      fun _ _ _ _ => (keepsCalls_endRun _ _ _ _ _).bind fun _ => .pure _
    exact ⟨[], (hk _ _ _ _ _).trans (List.append_nil _).symm⟩

theorem keepsCalls_recordFailure (env : SchedulerEnv) (rid : ℕ) (sch : AgentSchedule) (err : String) :
    KeepsCalls (recordFailure env rid sch err) :=
  (keepsCalls_endRun _ _ _ _ _).bind fun _ => .fetch_bind fun _ => .fetch_bind fun _ => .write fun _ => rfl

theorem keepsCalls_finishScheduled (env : SchedulerEnv) (rid : ℕ) (sch : AgentSchedule) (r : ExecutionResult) :
    KeepsCalls (finishScheduled env rid sch r) := by
  unfold finishScheduled
  split
  · exact (keepsCalls_endRun _ _ _ _ _).bind fun _ => .fetch_bind fun _ => .write_bind (fun _ => rfl) (.pure _)
  · exact (keepsCalls_recordFailure _ _ _ _).bind fun _ => .pure _

theorem executeFunctionDirect_calls {env : SchedulerEnv} {sch : AgentSchedule} {acc : Account}
    {ns : Namespace}
    (hn : splitOnce "." sch.functionName = some (svc, fn))
    (ha : w.db.accounts.get? ag.accountId = some acc)
    (hns : scheduleNamespace w.db ag acc = .ok (some ns))
    (hg : getForExecution w.db ns.id svc fn = .ok (f, v)) :
    ∃ context files, (executeFunctionDirect env sch ag w).2.calls =
      w.calls ++ if (scheduleFiles w.db ns v).toOption.isSome then
        pythonCalls env.run.sandbox f v (.obj []) context files else [] := by
  unfold executeFunctionDirect pythonCalls
  rw [hn]
  dsimp only
  rw [transaction_calls, query_bind_apply, write_bind_apply, query_bind_of_eq (a := some acc)]
  swap
  · exact ha
  dsimp only
  rw [fetch_bind_of_ok (a := some ns)]
  swap
  · exact hns
  dsimp only
  rw [query_bind_of_eq (a := .ok (f, v))]
  swap
  · exact hg
  dsimp only
  by_cases hr : env.run.sandbox.registered v.backend = true
  · simp only [if_pos hr, query_bind_apply]
    rcases hf : scheduleFiles w.db ns v with e | files
    · rw [fetch_bind_of_error (e := e)]
      · exact ⟨[], [], (List.append_nil _).symm⟩
      · exact hf
    · rw [fetch_bind_of_ok (a := files)]
      · exact ⟨_, _, executeFunction_bind_calls fun r => keepsCalls_finishScheduled _ _ _ r⟩
      · exact hf
  · simp only [if_neg hr, ite_self]
    have hk : ∀ rid error,
        KeepsCalls (recordFailure env rid sch error >>= fun _ => (pure none : Api (Option String))) :=
      fun _ _ => (keepsCalls_recordFailure _ _ _ _).bind fun _ => .pure _
    exact ⟨[], [], (hk _ _ _).trans (List.append_nil _).symm⟩

end Calls

section Paths

variable {env : EntryEnv} {db : Db} {e : EntryPoint} {f : Function} {v : FunctionVersion}

theorem EntryPoint.ownCall_of_tool {h : RunHandler} {name : String} {args : Args} {senv : List (String × String)}
    {cache : String → Option Json} {c : BackendCall}
      (hf : (EntryPoint.tool h name args senv).version db = some (f, v))
    (hc : c ∈ ((EntryPoint.tool h name args senv).after env { db, cache }).calls) : OwnCall v c := by
  obtain ⟨ns, hns, hf⟩ := Option.bind_eq_some_iff.mp hf
  obtain ⟨sv, fnn, hn, hg⟩ := versionNamed_eq_some hf
  dsimp only [EntryPoint.after] at hc
  rcases dispatchTool_cases env.tools h name args senv { db, cache } with
    hid | ⟨ns', lang, text, files, hr⟩ | ⟨ns', f', v', hr⟩
  · rw [hid.1] at hc
    cases hc
  · -- the code tools have no dot in their names
    have hno : splitOnce "." name = none := by
      cases lang with
      | python => rcases hr.tool with rfl | rfl <;> rfl
      | typescript =>
        obtain rfl := hr.tool
        rfl
    rw [hno] at hn
    cases hn
  · obtain ⟨svc', fn', hn', -, hg'⟩ := hr.found
    rw [hn] at hn'
    cases hn'
    obtain rfl : ns = ns' := Except.ok.inj ((toOption_eq_some hns).symm.trans hr.namespace_eq)
    obtain ⟨rfl, rfl⟩ : f = f' ∧ v = v' := Prod.mk.inj (Except.ok.inj (hg.symm.trans hg'))
    rw [dispatchTool_of_reaches hr] at hc
    obtain rfl := mem_calls_executeFound hr rfl hc
    exact ownCall_functionCall.mpr rfl

theorem EntryPoint.calls_of_not_tool (env : EntryEnv) {w : World} (he : e.isTool = false)
    (hf : e.version w.db = some (f, v)) :
    ∃ input context files, (e.after env w).calls =
      w.calls ++ if e.packages w.db v then pythonCalls (e.sandbox env) f v input context files else [] := by
  cases e with
  | tool => cases he
  | schedule s agt =>
    obtain ⟨account, ha, hf⟩ := Option.bind_eq_some_iff.mp hf
    obtain ⟨ns, hns, hf⟩ := Option.bind_eq_some_iff.mp hf
    obtain ⟨sv, fnn, hn, hg⟩ := versionNamed_eq_some hf
    have hns : scheduleNamespace w.db agt account = .ok (some ns) := toOption_eq_some (Option.join_eq_some_iff.mp hns)
    have hp : (EntryPoint.schedule s agt).packages w.db v = (scheduleFiles w.db ns v).toOption.isSome := by
      rw [EntryPoint.packages, ha, Option.any_some, hns]
      rfl
    rw [hp]
    exact ⟨_, executeFunctionDirect_calls hn ha hns hg⟩
  | webhook hook agt payload =>
    obtain ⟨sv, fnn, hn, hg⟩ := versionNamed_eq_some hf
    obtain ⟨context, hc⟩ := executeWebhookFunctionDirect_calls env.webhook payload hn hg
    exact ⟨_, context, [], hc⟩
  | orchestrator agt sv fnn input st ri =>
    obtain ⟨context, hc⟩ := executeNamespaceFunction_calls env.agent input st ri (toOption_eq_some hf)
    exact ⟨_, context, [], hc⟩

theorem RunsAsStored.language_eq (h : RunsAsStored env db e) (he : e.isTool = false) (hf : e.version db = some (f, v))
    (hp : e.packages db v = true) (hr : (e.sandbox env).registered v.backend = true) : v.language = .python := by
  obtain ⟨input, context, fs, hc⟩ := EntryPoint.calls_of_not_tool env (w := { db }) he hf
  unfold pythonCalls at hc
  rw [if_pos hp, if_pos hr, List.nil_append] at hc
  have ho := h (fun _ => none) f v hf _ (hc ▸ List.mem_singleton_self _)
  exact ho.language.symm

/-- The backend is called as the version says exactly on tool calls, and on the other entry points
when the version is in Python, its backend is missing or its package cannot be generated. -/
theorem runsAsStored_iff (env : EntryEnv) (db : Db) (e : EntryPoint) : RunsAsStored env db e ↔ e.isTool = true ∨
      ∀ f v, e.version db = some (f, v) → e.packages db v = true → (e.sandbox env).registered v.backend = true →
        v.language = .python := by
  constructor
  · intro h
    rcases he : e.isTool with _ | _
    · exact .inr fun f v hf hp hr => h.language_eq he hf hp hr
    · exact .inl rfl
  · intro hco cache f v hf c hc
    rcases he : e.isTool with _ | _
    · obtain ⟨input, context, fs, hca⟩ :=
        EntryPoint.calls_of_not_tool env (w := { db, cache }) he hf
      have hp := hco.resolve_left (by simp [he]) f v hf
      rw [hca, List.nil_append] at hc
      unfold pythonCalls at hc
      split_ifs at hc with hpa hr
      · obtain rfl := List.mem_singleton.mp hc
        exact ownCall_functionCall.mpr (hp hpa hr).symm
      · cases hc
      · cases hc
    · cases e with
      | tool => exact EntryPoint.ownCall_of_tool hf hc
      | schedule => cases he
      | webhook => cases he
      | orchestrator => cases he

end Paths

def tsMailDb : Db where
  namespaces := .single { id := 1, accountId := 2, name := .acme }
  services := .single { id := 3, namespaceId := 1, name := .mail }
  functions := .single { id := 4, serviceId := 3, name := .send }
  versions := .single { id := 5, functionId := 4, language := .typescript, code := some "export default () => 1" }

def tsMailAgent : Agent := { id := 6, accountId := 2, namespaceId := 1, name := "acme" }

def plainEntryEnv : EntryEnv where
  tools := plainEnv
  scheduler := ⟨plainEnv, 0, fun _ _ => .ok 0, fun _ => .error .jsonDecodeError, fun _ => "", fun _ _ => false⟩
  webhook := ⟨plainEnv, fun _ => ""⟩
  agent := plainAgentEnv

/-- The function is run as TypeScript for a tool call and as Python for the agent's model. -/
theorem typescript_run_as_python :
    ((EntryPoint.tool (mailHandler "tools") "mail.send" [] []).after plainEntryEnv { db := tsMailDb }).calls.map
        (·.language) = [.typescript] ∧
      ((EntryPoint.orchestrator tsMailAgent "mail" "send" [] [] none).after plainEntryEnv
        { db := tsMailDb }).calls.map
        (·.language) = [.python] ∧
      ¬ RunsAsStored plainEntryEnv tsMailDb (.orchestrator tsMailAgent "mail" "send" [] [] none) := by
  refine ⟨by rfl, by rfl, fun h => ?_⟩
  have hp := h.language_eq rfl (f := { id := 4, serviceId := 3, name := .send })
    (v := { id := 5, functionId := 4, language := .typescript, code := some "export default () => 1" }) (by rfl) rfl rfl
  cases hp

end McpworksApi.Agents
