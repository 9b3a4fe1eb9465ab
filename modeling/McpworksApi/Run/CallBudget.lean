import McpworksApi.Run.ApiRequests
import McpworksApi.Run.McpProxy
import McpworksApi.Session.Trace

/-! The calls of one execution through both proxies. Calls run concurrently: each one is checked, sends a request or
calls the tool, and goes on when there is an outcome, and between these points the others run. -/

namespace McpworksApi.Run.Budget

open Models Py

structure Setting where
  api : UpstreamEnv
  mcp : Mcp.McpEnv
  db : Db
  namespaceId : ℕ
  namespaceName : String := ""
  passthroughEnv : List (String × String) := []

inductive Target
  | api (server : NamespaceApiServer) (endpoint : ApiEndpoint) (seen : ℤ)
  | mcp (server : NamespaceMcpServer) (toolName : String)

def Target.attempts : Target → ℕ
  | api server endpoint _ => attemptsOf server endpoint
  | mcp server _ => Mcp.attemptsOf server

inductive Phase
  | ready
  | waiting
  | ended
  deriving DecidableEq, Repr

structure Task where
  target : Target
  sent : ℕ := 0
  phase : Phase := .ready

structure Execution where
  apiCallsCount : ℤ := 0
  mcpCallsCount : ℤ := 0
  tasks : List Task := []

inductive Event
  | callApi (serverName operationId : String) (args : Args)
  | callMcp (serverName toolName : String) (arguments : Args)
  | send (n : ℕ)
  | apiOutcome (n : ℕ) (o : Outcome)
  | mcpOutcome (n : ℕ) (o : Mcp.Outcome)
  /-- The call ends without an outcome: before its request, after its last attempt, or by cancellation. -/
  | leave (n : ℕ)

variable (env : Setting)

def apiInvocation (x : Execution) (serverName operationId : String) (args : Args) : ApiInvocation where
  namespaceId := env.namespaceId
  passthroughEnv := env.passthroughEnv
  apiCallsCount := x.apiCallsCount
  serverName := serverName
  operationId := operationId
  args := args

def mcpInvocation (serverName toolName : String) (arguments : Args) : Mcp.McpInvocation where
  namespaceId := env.namespaceId
  namespaceName := env.namespaceName
  serverName := serverName
  toolName := toolName
  arguments := arguments

def admitted (x : Execution) : Event → Option Target
  | .callApi serverName operationId args =>
    match (apiInvocation env x serverName operationId args).admitted env.api env.db with
    | .ok (.ok (server, endpoint)) => some (.api server endpoint x.apiCallsCount)
    | _ => none
  | .callMcp serverName toolName arguments =>
    match (mcpInvocation env serverName toolName arguments).admitted env.mcp env.db with
    | .ok (.ok (server, _)) => some (.mcp server toolName)
    | _ => none
  | _ => none

def sendNext (t : Task) : Task :=
  if t.phase = .ready ∧ t.sent < t.target.attempts then { t with sent := t.sent + 1, phase := .waiting } else t

def goesOn {ρ : Type} : Retries.Decision ρ → Phase
  | .again => .ready
  | .stop _ => .ended

def countsApi (t : Task) (o : Outcome) : ℤ :=
  match t.target, t.phase, o with
  | .api server endpoint _, .waiting, .response r =>
    match afterRequest env.api server endpoint (t.sent - 1) (.response r) with
    | .stop _ => 1
    | .again => 0
  | _, _, _ => 0

def apiMoves (t : Task) (o : Outcome) : Task :=
  match t.target, t.phase with
  | .api server endpoint _, .waiting => { t with phase := goesOn (afterRequest env.api server endpoint (t.sent - 1) o) }
  | _, _ => t

def countsMcp (t : Task) (o : Mcp.Outcome) : ℤ :=
  match t.target, t.phase, o with
  | .mcp server toolName, .waiting, .answered content =>
    match Mcp.receive env.mcp.rules server toolName content with
    | .ok _ => 1
    | .error _ => 0
  | _, _, _ => 0

def mcpMoves (t : Task) (o : Mcp.Outcome) : Task :=
  match t.target, t.phase with
  | .mcp server toolName, .waiting => { t with phase := goesOn (Mcp.afterCall env.mcp.rules server toolName o) }
  | _, _ => t

def step (x : Execution) : Event → Execution
  | .send n => { x with tasks := x.tasks.modify n sendNext }
  | .apiOutcome n o =>
    { x with
      apiCallsCount := x.apiCallsCount + (x.tasks[n]?.elim 0 fun t => countsApi env t o)
      tasks := x.tasks.modify n fun t => apiMoves env t o }
  | .mcpOutcome n o =>
    { x with
      mcpCallsCount := x.mcpCallsCount + (x.tasks[n]?.elim 0 fun t => countsMcp env t o)
      tasks := x.tasks.modify n fun t => mcpMoves env t o }
  | .leave n => { x with tasks := x.tasks.modify n fun t => { t with phase := .ended } }
  | e => { x with tasks := x.tasks ++ (admitted env x e).toList.map fun target => { target := target } }

def run (events : List Event) : Execution := events.foldl (step env) {}

def Task.apiRequests (id : ℕ) (t : Task) : ℕ :=
  match t.target with
  | .api server _ _ => if server.id = id then t.sent else 0
  | .mcp _ _ => 0

def Task.mcpRequests (id : ℕ) (t : Task) : ℕ :=
  match t.target with
  | .mcp server _ => if server.id = id then t.sent else 0
  | .api _ _ _ => 0

def Task.isMcpCall (id : ℕ) (t : Task) : Bool :=
  match t.target with
  | .mcp server _ => server.id = id
  | .api _ _ _ => false

def Execution.apiRequests (x : Execution) (id : ℕ) : ℕ := (x.tasks.map (Task.apiRequests id)).sum

def Execution.mcpRequests (x : Execution) (id : ℕ) : ℕ := (x.tasks.map (Task.mcpRequests id)).sum

def Execution.mcpCalls (x : Execution) (id : ℕ) : ℕ := x.tasks.countP (Task.isMcpCall id)

/-- Every server got at most as many requests as its setting `max_calls_per_execution` says; a negative setting
allows none. -/
structure WithinBudget (x : Execution) : Prop where
  api : ∀ server ∈ env.db.apiServers.rows, x.apiRequests server.id ≤ server.maxCallsPerExecution.toNat
  mcp : ∀ server ∈ env.db.mcpServers.rows, x.mcpRequests server.id ≤ server.maxCallsPerExecution.toNat

/-- What is asked of a step: a request to a REST API is sent only if all requests that this server has got were
counted when the call was checked, and a call to an MCP server starts only if the limit of the server leaves
room for all attempts of all its calls. -/
def Permitted (x : Execution) (e : Event) : Prop :=
  match e with
  | .send n => ∀ t server endpoint seen, x.tasks[n]? = some t → t.target = .api server endpoint seen → t.phase = .ready →
      t.sent < t.target.attempts → (x.apiRequests server.id : ℤ) ≤ seen
  | .callMcp .. => ∀ server toolName, admitted env x e = some (.mcp server toolName) →
      (x.mcpCalls server.id + 1) * Mcp.attemptsOf server ≤ server.maxCallsPerExecution.toNat
  | _ => True

def AllPermitted (events : List Event) : Prop :=
  Trace.Guarded (fun past e => Permitted env (run env past) e) events

def Known : Target → Prop
  | .api server _ seen => server ∈ env.db.apiServers.rows ∧ seen < server.maxCallsPerExecution
  | .mcp server _ => server ∈ env.db.mcpServers.rows

structure Sound (tasks : List Task) : Prop where
  known : ∀ t ∈ tasks, Known env t.target
  attempts : ∀ t ∈ tasks, t.sent ≤ t.target.attempts
  api : ∀ server ∈ env.db.apiServers.rows,
    (tasks.map (Task.apiRequests server.id)).sum ≤ server.maxCallsPerExecution.toNat
  mcp : ∀ server ∈ env.db.mcpServers.rows,
    tasks.countP (Task.isMcpCall server.id) * Mcp.attemptsOf server ≤ server.maxCallsPerExecution.toNat

variable {env} {x : Execution} {e : Event} {ts l₁ l₂ : List Task} {t t' : Task} {target : Target}

theorem admitted_callApi {sn oid : String} {args : Args}
    (h : admitted env x (.callApi sn oid args) = some target) :
    ∃ sr endpoint, target = .api sr endpoint x.apiCallsCount ∧
      (apiInvocation env x sn oid args).admitted env.api env.db = .ok (.ok (sr, endpoint)) := by
  simp only [admitted] at h
  split at h
  · rename_i sr endpoint ha
    cases h
    exact ⟨sr, endpoint, rfl, ha⟩
  · cases h

theorem admitted_callMcp {sn tn : String} {args : Args}
    (h : admitted env x (.callMcp sn tn args) = some target) :
    ∃ sr args', target = .mcp sr tn ∧
      (mcpInvocation env sn tn args).admitted env.mcp env.db = .ok (.ok (sr, args')) := by
  simp only [admitted] at h
  split at h
  · rename_i sr args' ha
    cases h
    exact ⟨sr, args', rfl, ha⟩
  · cases h

theorem known_of_admitted (h : admitted env x e = some target) : Known env target := by
  cases e with
  | callApi sn oid args =>
    obtain ⟨sr, endpoint, rfl, ha⟩ := admitted_callApi h
    exact server_of_admitted ha
  | callMcp sn toolName ar =>
    obtain ⟨sr, args', rfl, ha⟩ := admitted_callMcp h
    exact Mcp.McpInvocation.server_of_admitted ha
  | _ => cases h

theorem apiRequests_congr (ht : t'.target = t.target) (hs : t'.sent = t.sent) (id : ℕ) :
    t'.apiRequests id = t.apiRequests id := by
  unfold Task.apiRequests
  rw [ht, hs]

theorem isMcpCall_congr (ht : t'.target = t.target) (id : ℕ) : t'.isMcpCall id = t.isMcpCall id := by
  unfold Task.isMcpCall
  rw [ht]

theorem Sound.replace (h : Sound env (l₁ ++ t :: l₂)) (hta : t'.target = t.target)
    (ha : t'.sent ≤ t'.target.attempts)
    (hap : ∀ sr ∈ env.db.apiServers.rows,
      ((l₁ ++ t' :: l₂).map (Task.apiRequests sr.id)).sum ≤ sr.maxCallsPerExecution.toNat) :
    Sound env (l₁ ++ t' :: l₂) := by
  have hm {u : Task} (hu : u ∈ l₁ ++ t' :: l₂) : u = t' ∨ u ∈ l₁ ++ t :: l₂ := by
    rcases List.mem_append.mp hu with hu | hu
    · exact .inr (List.mem_append_left _ hu)
    · rcases List.mem_cons.mp hu with rfl | hu
      · exact .inl rfl
      · exact .inr (List.mem_append_right _ (List.mem_cons_of_mem _ hu))
  have ht : t ∈ l₁ ++ t :: l₂ := List.mem_append_right _ List.mem_cons_self
  refine ⟨fun u hu => ?_, fun u hu => ?_, hap, fun sr hs => ?_⟩
  · rcases hm hu with rfl | hu
    · rw [hta]
      exact h.known t ht
    · exact h.known u hu
  · rcases hm hu with rfl | hu
    · exact ha
    · exact h.attempts u hu
  · have hc := h.mcp sr hs
    simp only [List.countP_append, List.countP_cons, isMcpCall_congr hta] at hc ⊢
    exact hc

theorem Sound.moves (h : Sound env (l₁ ++ t :: l₂)) (ht : t'.target = t.target) (hs : t'.sent = t.sent) :
    Sound env (l₁ ++ t' :: l₂) := by
  refine h.replace ht ?_ fun sr hse => ?_
  · rw [hs, ht]
    exact h.attempts t (List.mem_append_right _ List.mem_cons_self)
  · have hsu := h.api sr hse
    simp only [List.map_append, List.map_cons, apiRequests_congr ht hs] at hsu ⊢
    exact hsu

theorem modify_cases (ts : List Task) (n : ℕ) (f : Task → Task) : ts.modify n f = ts ∨
      ∃ l₁ t l₂, ts = l₁ ++ t :: l₂ ∧ ts[n]? = some t ∧ ts.modify n f = l₁ ++ f t :: l₂ := by
  by_cases hn : n < ts.length
  · obtain ⟨l₁, t, l₂, heq, rfl, hm⟩ := List.exists_of_modify f hn
    refine .inr ⟨l₁, t, l₂, heq, ?_, hm⟩
    rw [heq]
    simp
  · exact .inl (List.modify_eq_self (by omega))

theorem Sound.modify (h : Sound env ts) (n : ℕ) {f : Task → Task} (ht : ∀ t, (f t).target = t.target)
    (hs : ∀ t, (f t).sent = t.sent) : Sound env (ts.modify n f) := by
  rcases modify_cases ts n f with heq | ⟨l₁, t, l₂, rfl, -, heq⟩
  · rw [heq]
    exact h
  · rw [heq]
    exact h.moves (ht t) (hs t)

theorem Sound.start (h : Sound env ts) (hk : Known env target)
    (hr : ∀ sr toolName, target = .mcp sr toolName →
      (ts.countP (Task.isMcpCall sr.id) + 1) * Mcp.attemptsOf sr ≤ sr.maxCallsPerExecution.toNat) :
    Sound env (ts ++ [{ target := target }]) := by
  refine ⟨fun t ht => ?_, fun t ht => ?_, fun sr hs => ?_, fun sr hs => ?_⟩
  · rcases List.mem_append.mp ht with ht | ht
    · exact h.known t ht
    · cases List.mem_singleton.mp ht
      exact hk
  · rcases List.mem_append.mp ht with ht | ht
    · exact h.attempts t ht
    · cases List.mem_singleton.mp ht
      exact Nat.zero_le _
  · have hn : Task.apiRequests sr.id { target := target } = 0 := by
      cases target <;> simp [Task.apiRequests]
    rw [List.map_append, List.sum_append, List.map_singleton, List.sum_singleton, hn]
    exact h.api sr hs
  · rw [List.countP_append, List.countP_singleton]
    cases hc : Task.isMcpCall sr.id { target := target } with
    | false => simpa using h.mcp sr hs
    | true =>
      cases target with
      | api o endpoint seen => cases hc
      | mcp o toolName =>
        have hid : o.id = sr.id := by simpa [Task.isMcpCall] using hc
        obtain rfl := Table.eq_of_id_eq hk hs hid
        exact hr o toolName rfl

theorem Sound.send (h : Sound env (l₁ ++ t :: l₂)) (hm : t.sent < t.target.attempts)
    (hse : ∀ sr endpoint seen, t.target = .api sr endpoint seen →
      (((l₁ ++ t :: l₂).map (Task.apiRequests sr.id)).sum : ℤ) ≤ seen) :
    Sound env (l₁ ++ { t with sent := t.sent + 1, phase := .waiting } :: l₂) := by
  refine h.replace rfl hm fun sr hsr => ?_
  have hs := h.api sr hsr
  have hk := h.known t (List.mem_append_right _ List.mem_cons_self)
  simp only [List.map_append, List.map_cons, List.sum_append, List.sum_cons] at hs hse ⊢
  cases ht : t.target with
  | mcp o toolName =>
    simp only [Task.apiRequests, ht] at hs ⊢
    exact hs
  | api o endpoint seen =>
    have hc := hse o endpoint seen ht
    rw [ht] at hk
    by_cases hid : o.id = sr.id
    · obtain rfl := Table.eq_of_id_eq hk.1 hsr hid
      have hlt := hk.2
      simp only [Task.apiRequests, ht, if_true] at hc ⊢
      omega
    · simp only [Task.apiRequests, ht, hid, if_false] at hs ⊢
      exact hs

theorem apiMoves_target (t : Task) (o : Outcome) : (apiMoves env t o).target = t.target := by
  unfold apiMoves
  split <;> rfl

theorem apiMoves_sent (t : Task) (o : Outcome) : (apiMoves env t o).sent = t.sent := by
  unfold apiMoves
  split <;> rfl

theorem mcpMoves_target (t : Task) (o : Mcp.Outcome) : (mcpMoves env t o).target = t.target := by
  unfold mcpMoves
  split <;> rfl

theorem mcpMoves_sent (t : Task) (o : Mcp.Outcome) : (mcpMoves env t o).sent = t.sent := by
  unfold mcpMoves
  split <;> rfl

theorem Sound.step_send (h : Sound env x.tasks) (n : ℕ) (hp : Permitted env x (.send n)) :
    Sound env (x.tasks.modify n sendNext) := by
  rcases modify_cases x.tasks n sendNext with heq | ⟨l₁, t, l₂, ht, hn, heq⟩
  · rw [heq]
    exact h
  rw [heq]
  rw [ht] at h
  unfold sendNext
  split_ifs with hr
  · refine h.send hr.2 fun sr endpoint seen hta => ?_
    rw [← ht]
    exact hp t sr endpoint seen hn hta hr.1 hr.2
  · exact h

theorem Sound.step_call (h : Sound env x.tasks) (hp : Permitted env x e) :
    Sound env (x.tasks ++ (admitted env x e).toList.map fun target => { target := target }) := by
  cases ha : admitted env x e with
  | none => simpa using h
  | some target =>
    refine h.start (known_of_admitted ha) fun sr toolName ht => ?_
    subst ht
    cases e with
    | callMcp sn tn' ar => exact hp sr toolName ha
    | callApi sn oid args =>
      obtain ⟨_, _, ht, _⟩ := admitted_callApi ha
      cases ht
    | _ => cases ha

theorem Sound.step (h : Sound env x.tasks) (hp : Permitted env x e) : Sound env (step env x e).tasks := by
  cases e with
  | send n => exact h.step_send n hp
  | apiOutcome n o => exact h.modify n (fun t => apiMoves_target t o) fun t => apiMoves_sent t o
  | mcpOutcome n o => exact h.modify n (fun t => mcpMoves_target t o) fun t => mcpMoves_sent t o
  | leave n => exact h.modify n (fun _ => rfl) fun _ => rfl
  | callApi sn oid args => exact h.step_call hp
  | callMcp sn toolName ar => exact h.step_call hp

theorem sound_nil : Sound env [] := by
  refine ⟨fun t ht => ?_, fun t ht => ?_, fun sr _ => Nat.zero_le _, fun sr _ => ?_⟩
  · cases ht
  · cases ht
  · simp

theorem sound_run {es : List Event} (h : AllPermitted env es) : Sound env (run env es).tasks := by
  induction es using List.reverseRecOn with
  | nil => exact sound_nil
  | append_singleton past e ih =>
    have hl : Permitted env (run env past) e := h past e [] rfl
    have hr : run env (past ++ [e]) = step env (run env past) e := by
      rw [run, List.foldl_append]
      rfl
    rw [hr]
    exact (ih h.of_append).step hl

theorem Sound.mcpRequests_le (h : Sound env ts) {server : NamespaceMcpServer}
    (hse : server ∈ env.db.mcpServers.rows) :
    (ts.map (Task.mcpRequests server.id)).sum ≤ ts.countP (Task.isMcpCall server.id) * Mcp.attemptsOf server := by
  have ha : ∀ t ∈ ts, t.mcpRequests server.id ≤ if t.isMcpCall server.id then Mcp.attemptsOf server else 0 := by
    intro t ht
    have hs := h.attempts t ht
    have hk := h.known t ht
    unfold Task.mcpRequests Task.isMcpCall
    cases hta : t.target with
    | api o endpoint seen => exact Nat.zero_le _
    | mcp o toolName =>
      rw [hta] at hs hk
      by_cases hid : o.id = server.id
      · obtain rfl := Table.eq_of_id_eq hk hse hid
        simpa [Target.attempts] using hs
      · simp [hid]
  clear h
  induction ts with
  | nil => simp
  | cons t ts ih =>
    have hf := ha t List.mem_cons_self
    have hr := ih fun u hu => ha u (List.mem_cons_of_mem _ hu)
    rw [List.map_cons, List.sum_cons, List.countP_cons, Nat.add_mul, Nat.add_comm]
    refine Nat.add_le_add hr (hf.trans ?_)
    split_ifs <;> simp

/-- In a run whose steps are all permitted no server gets more requests than its setting says. -/
theorem requests_within_budget (env : Setting) (events : List Event) (h : AllPermitted env events) :
    WithinBudget env (run env events) := by
  have hs := sound_run h
  exact ⟨hs.api, fun sr hse => (hs.mcpRequests_le hse).trans (hs.mcp sr hse)⟩

def onceDb : Db :=
  { apiDb .get with
    apiServers := .single { id := 1, namespaceId := 1, name := "billing", maxCallsPerExecution := 1 }
    mcpServers := .single { id := 1, namespaceId := 1, name := "wiki", maxCallsPerExecution := 1, retryCount := 0 } }

def onceSetting : Setting where
  api := plainUpstreamEnv
  mcp := Mcp.plainMcpEnv
  db := onceDb
  namespaceId := 1

def askBilling : Event := .callApi "billing" "invoices" []

def askWiki : Event := .callMcp "wiki" "search" []

def found : Outcome := .response { status := 200, content := [], contentType := "", json := .ok .null, text := "" }

def repeated : List Event :=
  [askBilling, .send 0, .apiOutcome 0 unavailable, .send 0, .apiOutcome 0 unavailable, .send 0, .apiOutcome 0 found]

def concurrent : List Event := [askBilling, askBilling, .send 0, .send 1, .apiOutcome 0 found, .apiOutcome 1 found]

def unchecked : List Event :=
  [askWiki, .send 0, .mcpOutcome 0 (.answered []), askWiki, .send 1, .mcpOutcome 1 (.answered [])]

theorem budget_exceeded :
    ((run onceSetting repeated).apiRequests 1 = 3 ∧ (run onceSetting concurrent).apiRequests 1 = 2 ∧
        (run onceSetting unchecked).mcpRequests 1 = 2) ∧
      ¬ WithinBudget onceSetting (run onceSetting repeated) ∧
        ¬ WithinBudget onceSetting (run onceSetting concurrent) ∧
      ¬ WithinBudget onceSetting (run onceSetting unchecked) := by
  have hr : (run onceSetting repeated).apiRequests 1 = 3 := by rfl
  have hc : (run onceSetting concurrent).apiRequests 1 = 2 := by rfl
  have hu : (run onceSetting unchecked).mcpRequests 1 = 2 := by rfl
  refine ⟨⟨hr, hc, hu⟩, fun h => ?_, fun h => ?_, fun h => ?_⟩
  · have hb := h.api _ (List.mem_singleton_self _)
    exact absurd (hr.symm.trans_le hb) (by decide)
  · have hb := h.api _ (List.mem_singleton_self _)
    exact absurd (hc.symm.trans_le hb) (by decide)
  · have hb := h.mcp _ (List.mem_singleton_self _)
    exact absurd (hu.symm.trans_le hb) (by decide)

def modest : List Event :=
  [askBilling, .send 0, .apiOutcome 0 found, askWiki, .send 1, .mcpOutcome 1 (.answered [])]

theorem modest_within_budget :
    (run onceSetting modest).apiRequests 1 = 1 ∧ (run onceSetting modest).mcpRequests 1 = 1 ∧
      WithinBudget onceSetting (run onceSetting modest) := by
  refine ⟨by rfl, by rfl, requests_within_budget onceSetting modest ?_⟩
  have hs : Permitted onceSetting (run onceSetting [askBilling]) (.send 0) := by
    intro t sr endpoint seen ht hta _ _
    cases ht
    cases hta
    decide
  have ha : Permitted onceSetting (run onceSetting [askBilling, .send 0, .apiOutcome 0 found]) askWiki := by
    intro sr toolName had
    cases had
    decide
  have hc : Permitted onceSetting (run onceSetting [askBilling, .send 0, .apiOutcome 0 found,
    askWiki]) (.send 1) := by
    intro t sr endpoint seen ht hta _ _
    cases ht
    cases hta
  have hst : AllPermitted onceSetting [askBilling] := Trace.guarded_nil.concat trivial
  have hf : AllPermitted onceSetting [askBilling, .send 0, .apiOutcome 0 found] := (hst.concat hs).concat trivial
  exact ((hf.concat ha).concat hc).concat trivial

end McpworksApi.Run.Budget
