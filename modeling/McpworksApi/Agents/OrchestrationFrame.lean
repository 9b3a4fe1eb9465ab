import McpworksApi.Agents.OfferScope

/-! What an orchestration leaves alone. The tool calls of a model run functions and call other servers; they write
counters, runs and executions of procedures, and nothing else. -/

namespace McpworksApi.Agents

open Models Py Run Services Services.Functions Session

/-- No tier allows `run_procedure`, so every call goes to the plain tools. -/
theorem dispatchTool_eq (env : AgentEnv) (ctx : ToolContext) (name : String) (inp : Args) :
    dispatchTool env ctx name inp = dispatchPlainTool env ctx name inp := by
  by_cases ha : Access.isToolAllowed (effectiveToolTier ctx.agent ctx.triggerType) name = true
  · rw [dispatchTool_of_allowed ha, dispatchPlainTool, if_pos ha, if_neg (not_platform_of_allowed ha)]
  · rw [dispatchTool_of_not_allowed ha, dispatchPlainTool, if_neg ha]

structure Undisturbed (I : World → Prop) : Prop where
  asked : ∀ w n, I w → I { w with asked := n }
  request : ∀ w r, I w → I (w.request r)
  record : ∀ w c, I w → I (w.record c)
  counts : ∀ w namespaceId service function, I w →
    I { w with db := incrementOrchestrationCallCount namespaceId service function w.db }
  runs : ∀ w (mk : ℕ → AgentRun) (hmk : ∀ i, (mk i).id = i), (∀ i, (mk i).triggerType = "ai") → I w →
    I { w with db := { w.db with agentRuns := w.db.agentRuns.insert mk hmk } }
  executions : ∀ w executions, I w → I { w with db := { w.db with procedureExecutions := executions } }

namespace Undisturbed

variable {I : World → Prop} {env : AgentEnv} {ctx : ToolContext}

theorem dispatchPlainTool (h : Undisturbed I) (name : String) (inp : Args) :
    Maintains I (dispatchPlainTool env ctx name inp) fun _ => True :=
  dispatchPlainTool_maintains h.request (fun _ => trivial) (fun _ => trivial) fun _ _ _ =>
    executeNamespaceFunction_maintains h.record h.counts _ _ _ _ _

theorem dispatchTool (h : Undisturbed I) (name : String) (inp : Args) :
    Maintains I (dispatchTool env ctx name inp) fun _ => True := by
  rw [dispatchTool_eq]
  exact h.dispatchPlainTool name inp

theorem undisturbing (h : Undisturbed I) (env : AgentEnv) (ag : Agent) : Undisturbing env ag I :=
  ⟨h.asked, h.runs, h.executions, fun _ _ => h.dispatchPlainTool⟩

theorem orchestrationLoop (h : Undisturbed I) (limits : Limits) (canary : String) (n : ℕ) (l : Loop) :
    Maintains I (orchestrationLoop env (Agents.dispatchTool env) limits canary ctx n l) fun _ => True :=
  orchestrationLoop_maintains (fun w => h.asked w _) (fun name input => h.dispatchTool name input) n l

theorem finishOrchestration (h : Undisturbed I) (call : OrchestrationCall) (l : Loop) (fin : Ending) :
    Maintains I (finishOrchestration env call l fin) fun _ => True := by
  cases fin with
  | completed cont => exact .query_bind fun _ _ => .map ((h.undisturbing _ _).postOrchestration _ _ _)
  | limit error => exact .pure trivial
  | canaryLeaked tool => exact .pure trivial
  | raised e => exact .query_bind fun _ _ => .map ((h.undisturbing env _).recordRun _ _ _)

theorem runOrchestration (h : Undisturbed I) (call : OrchestrationCall) :
    Maintains I (runOrchestration env call) fun _ => True := by
  have ho : Maintains I (orchestrate env (Agents.dispatchTool env) call) fun _ => True := by
    unfold orchestrate
    dsimp only
    split
    · exact .pure trivial
    refine .query_bind fun _ _ => .query_bind fun _ _ => .query_bind fun _ _ => ?_
    exact .bind (h.orchestrationLoop _ _ _ _) fun out _ => .map (h.finishOrchestration _ _ _)
  exact .map ho

end Undisturbed

structure Unobserved {γ : Type} (g : World → γ) : Prop where
  asked : ∀ w n, g { w with asked := n } = g w
  request : ∀ w r, g (w.request r) = g w
  record : ∀ w c, g (w.record c) = g w
  counts : ∀ w namespaceId service function,
    g { w with db := incrementOrchestrationCallCount namespaceId service function w.db } = g w
  runs : ∀ w runs, g { w with db := { w.db with agentRuns := runs } } = g w
  executions : ∀ w executions, g { w with db := { w.db with procedureExecutions := executions } } = g w

namespace Unobserved

variable {γ : Type} {g : World → γ} {env : AgentEnv}

theorem undisturbed (h : Unobserved g) (x : γ) : Undisturbed fun w => g w = x where
  asked w n := (h.asked w n).trans
  request w r := (h.request w r).trans
  record w c := (h.record w c).trans
  counts w _ _ _ := (h.counts w _ _ _).trans
  runs w _ _ _ := (h.runs w _).trans
  executions w _ := (h.executions w _).trans

theorem runProcedureOrchestration (h : Unobserved g) (ctx : ToolContext) (proc svc : String) (ictx : Option Json) :
    Keeps g (runProcedureOrchestration env ctx proc svc ictx) :=
  Keeps.iff_maintains.mpr fun x => ((h.undisturbed x).undisturbing _ _).runProcedureOrchestration _ _ _

theorem runOrchestration (h : Unobserved g) (call : OrchestrationCall) : Keeps g (runOrchestration env call) :=
  Keeps.iff_maintains.mpr fun x => (h.undisturbed x).runOrchestration _

end Unobserved

/-! ### What the tools read -/

/-- What the tools of an agent read of the database. -/
structure ToolData where
  code : ℕ → String → String → Except ApiError FunctionVersion
  apiServers : Table NamespaceApiServer
  apiEndpoints : Table ApiEndpoint
  scanning : ℕ → Option (Name .dns × Option ScannerPipeline)

def toolData (db : Db) : ToolData where
  code namespaceId service function := (getForExecution db namespaceId service function).map Prod.snd
  apiServers := db.apiServers
  apiEndpoints := db.apiEndpoints
  scanning i := (db.namespaces.get? i).map fun n => (n.name, n.scannerPipeline)

/-- What a call of a tool comes to in a database: its reply, and the number of functions it executes. -/
def toolReply (env : AgentEnv) (ctx : ToolContext) (db : Db) (name : String) (input : Args) :
    Except ApiError ToolReply :=
  (dispatchPlainTool env ctx name input { db }).1

section Behaviour

variable {env : AgentEnv} {ctx : ToolContext}

/-- Two computations return the same, and execute as many functions, wherever the tools read the same. -/
def Alike {α : Type} (m m' : Api α) : Prop :=
  ∀ w w', toolData w.db = toolData w'.db → (m w).1 = (m' w').1 ∧
    ∃ k, (m w).2.calls.length = w.calls.length + k ∧ (m' w').2.calls.length = w'.calls.length + k

namespace Alike

variable {α β : Type} {m m' : Api α} {f f' : α → Api β}

protected theorem pure (a : α) : Alike (pure a : Api α) (pure a) := fun _ _ _ => ⟨rfl, 0, rfl, rfl⟩

protected theorem raise (e : ApiError) : Alike (raise e : Api α) (raise e) := fun _ _ _ => ⟨rfl, 0, rfl, rfl⟩

theorem query_bind {q q' : World → α}
    (h : ∀ w w', toolData w.db = toolData w'.db → Alike (f (q w)) (f' (q' w'))) :
    Alike (query q >>= f) (query q' >>= f') := fun w w' hw => h w w' hw w w' hw

theorem fetch_bind {q : World → Except ApiError α} (hq : ∀ w w', toolData w.db = toolData w'.db → q w = q w')
    (hf : ∀ a, Alike (f a) (f' a)) : Alike (fetch q >>= f) (fetch q >>= f') := by
  intro w w' hw
  rw [fetch_bind_apply, fetch_bind_apply, hq w w' hw]
  rcases q w' with e | a
  · exact ⟨rfl, 0, rfl, rfl⟩
  · exact hf a w w' hw

theorem write_bind {u u' : World → World} {f f' : Unit → Api β} (k : ℕ)
    (hu : ∀ w, toolData (u w).db = toolData w.db ∧ (u w).calls.length = w.calls.length + k)
    (hu' : ∀ w, toolData (u' w).db = toolData w.db ∧ (u' w).calls.length = w.calls.length + k)
    (hf : Alike (f ()) (f' ())) : Alike (write u >>= f) (write u' >>= f') := by
  intro w w' hw
  obtain ⟨hr, l, hl, hl'⟩ := hf (u w) (u' w') (by rw [(hu w).1, (hu' w').1, hw])
  rw [(hu w).2] at hl
  rw [(hu' w').2] at hl'
  exact ⟨hr, k + l, by rw [← Nat.add_assoc]; exact hl, by rw [← Nat.add_assoc]; exact hl'⟩

theorem bind (hm : Alike m m') (hk : Keeps (fun w => toolData w.db) m) (hk' : Keeps (fun w => toolData w.db) m')
    (hf : ∀ a, Alike (f a) (f' a)) : Alike (m >>= f) (m' >>= f') := by
  intro w w' hw
  obtain ⟨hr, k, hl, hl'⟩ := hm w w' hw
  have hk := hk w
  have hk' := hk' w'
  rw [bind_apply, bind_apply]
  rcases hmw : m w with ⟨r, w₁⟩
  rcases hmw' : m' w' with ⟨r', w₁'⟩
  rw [hmw] at hr hl hk
  rw [hmw'] at hr hl' hk'
  obtain rfl : r = r' := hr
  cases r with
  | error e => exact ⟨rfl, k, hl, hl'⟩
  | ok a =>
    obtain ⟨hr, l, hll, hll'⟩ := hf a w₁ w₁' (hk.trans (hw.trans hk'.symm))
    exact ⟨hr, k + l, by dsimp only at *; omega, by dsimp only at *; omega⟩

end Alike

end Behaviour

def RunRecorded (r : Orchestration) (db : Db) : Prop := (r.runId.all fun i => (db.agentRuns.get? i).isSome) = true

theorem recordRun_wp (env : AgentEnv) (ag : Agent) (trig : String) (r : Orchestration) (out : RunStatus) (w : World)
    (hr : r.runId = some w.db.agentRuns.freshId) :
    Wp (recordRun env ag trig r out) (fun _ w' => RunRecorded r w'.db ↔
      recordable env.run r = true) (fun _ _ => False) w := by
  unfold recordRun RunRecorded
  rw [hr]
  split
  · rename_i hf
    refine .write ?_
    simp [Table.get?_insert, hf]
  · rename_i hf
    refine .pure ?_
    simp [Table.get?_freshId, hf]

theorem finishOrchestration_wp (env : AgentEnv) (call : OrchestrationCall) (l : Loop) (fin : Ending) (w : World) :
    Wp (finishOrchestration env call l fin)
      (fun r w' => r.success = true → (RunRecorded r w'.db ↔ recordable env.run r = true)) (fun _ _ => False) w := by
  cases fin with
  | completed cont =>
    refine .query_bind (.bind ?_)
    refine .mono (Q := fun _ w' => RunRecorded _ w'.db ↔ _) ?_ (fun _ _ h => .pure fun _ => h) fun _ _ h => h
    rw [postOrchestration_eq]
    exact recordRun_wp _ _ _ _ _ w rfl
  | limit error => exact .pure nofun
  | canaryLeaked tool => exact .pure nofun
  | raised e => exact .query_bind (.bind (.mono (recordRun_wp _ _ _ _ _ w rfl) (fun _ _ _ => .pure nofun) fun _ _ h => h))

theorem runOrchestration_wp (env : AgentEnv) (call : OrchestrationCall) (w : World) :
    Wp (runOrchestration env call)
      (fun r w' => r.success = true → (RunRecorded r w'.db ↔ recordable env.run r = true)) (fun _ _ => False) w := by
  have hy : Yields (runOrchestration env call) fun _ => True :=
    (orchestrate_protocol env (dispatchTool env) call).bind fun _ _ => Yields.pure trivial
  refine .of_yields hy (.bind ?_)
  unfold orchestrate
  dsimp only
  split
  · exact .pure (.pure nofun)
  refine .query_bind (.query_bind (.query_bind (.bind ?_)))
  refine .of_forall (fun out w₁ => .bind ?_) fun _ _ => trivial
  exact .mono (finishOrchestration_wp env call out.1 out.2 w₁) (fun _ _ h => .pure (.pure h)) fun _ _ h => h.elim

end McpworksApi.Agents
