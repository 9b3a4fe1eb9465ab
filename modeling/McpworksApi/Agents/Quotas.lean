import McpworksApi.Agents.Lifecycle
import McpworksApi.Services.Catalog

/-! The quotas of an account. `-1` stands for no limit in the tier table, but each quota is compared with it
as with any other number, so that the tier that should have no limits is refused everything. -/

namespace McpworksApi.Agents

open Models Py Run Services Session

inductive QuotaCall
  | createAgent (accountId : ℕ) (tier name : String) (displayName : Option String)
  | cloneAgent (accountId : ℕ) (sourceName newName tier : String)
  | scaleAgent (accountId : ℕ) (agentName : String) (target : ℤ) (tier : String)
  | setState (accountId : ℕ) (agentName key : String) (value : Json) (tier : String)

namespace QuotaCall

def answer (env : LifecycleEnv) (dumps : Json → String) (w : World) : QuotaCall → Except ApiError Unit
  | .createAgent accountId tier name displayName =>
      (Agents.createAgent env accountId tier name displayName w.db).1.map fun _ => ()
  | .cloneAgent accountId sourceName newName tier =>
      (Agents.cloneAgent env accountId sourceName newName tier w.db).1.map fun _ => ()
  | .scaleAgent accountId agentName target tier =>
      (Agents.scaleAgent env accountId agentName target tier w.db).1.map fun _ => ()
  | .setState accountId agentName key value tier => (Agents.setState dumps accountId agentName key value tier w).1

/-- The limit that counts for a call, and what the account or the agent would use after it; there is none if
the tier has no agents, or if the agent does not exist. -/
def quota (dumps : Json → String) (db : Db) : QuotaCall → Option (ℤ × ℤ)
  | .createAgent accountId tier _ _ | .cloneAgent accountId _ _ tier =>
    (agentTierConfig tier).map fun config => (config.maxAgents, getAgentCount db accountId + 1)
  | .scaleAgent accountId agentName target tier =>
    match getAgent db accountId agentName, agentTierConfig tier with
    | .ok agent, some config =>
      some (config.maxAgents, getTotalReplicaCount db accountId - (getReplicas db agent.id).length + target)
    | _, _ => none
  | .setState accountId agentName key value tier =>
    match getAgent db accountId agentName, agentTierConfig tier with
    | .ok agent, some config =>
      match findEntry db agent.id key with
      | .ok existing =>
        some (config.maxStateBytes, ((entriesOf db agent.id).map (·.sizeBytes)).sum -
          ((existing.map (·.sizeBytes)).getD 0 : ℕ) + (encode (dumps value)).length)
      | .error _ => none
    | _, _ => none

def quotaError (limit usage : ℤ) : QuotaCall → ApiError
  | .createAgent _ tier _ _ | .cloneAgent _ _ _ tier =>
    conflict ("Agent slot limit reached (" ++ toString limit ++ " for " ++ tier ++ ")")
  | .scaleAgent _ _ target _ =>
    conflict ("Scaling to " ++ toString target ++ " replicas would use " ++ toString usage ++ " slots (limit: " ++
      toString limit ++ ")")
  | .setState _ _ _ _ tier =>
    .app .forbidden ("State size limit exceeded: " ++ toString usage ++ " bytes > " ++
      toString limit ++ " bytes for " ++ tier)

def Refused (env : LifecycleEnv) (dumps : Json → String) (w : World) (call : QuotaCall) : Prop :=
  ∃ limit usage, call.quota dumps w.db = some (limit, usage) ∧
    call.answer env dumps w = .error (call.quotaError limit usage)

def Exceeds (dumps : Json → String) (db : Db) (call : QuotaCall) : Prop :=
  ∃ limit usage, call.quota dumps db = some (limit, usage) ∧ 0 ≤ limit ∧ limit < usage

def Limited (dumps : Json → String) (db : Db) (call : QuotaCall) : Prop :=
  ∀ limit usage, call.quota dumps db = some (limit, usage) → 0 ≤ limit ∨ usage ≤ limit

end QuotaCall

def NotSlots (e : ApiError) : Prop := ∀ text, e ≠ conflict ("Agent slot limit reached (" ++ text)

theorem NotSlots.of_isPy {e : ApiError} (h : e.IsPy) : NotSlots e := by
  obtain ⟨kind, msg, rfl⟩ := h
  intro text heq
  cases heq

theorem NotSlots.conflict {first rest : String} (h : first.toList.take 7 ≠ "Agent s".toList)
    (hl : 7 ≤ first.toList.length) :
    NotSlots (conflict (first ++ rest)) := by
  intro text heq
  have hm : first ++ rest = "Agent slot limit reached (" ++ text := by
    injection heq
  have ht := congrArg (fun m : String => m.toList.take 7) hm
  simp only [String.toList_append, List.take_append_of_le_length hl] at ht
  exact h ht

theorem fails_namespaceName (fmt : Time → String) (db : Db) (name : String) :
    Fails NotSlots (Namespaces.checkNewName fmt db name) := by
  unfold Namespaces.checkNewName
  split
  · exact Fails.error (.of_isPy ⟨_, _, rfl⟩)
  · refine Fails.bind (fun e he => .of_isPy (fails_scalarOneOrNone _ e he)) fun found => ?_
    rcases found with _ | n
    · exact Fails.ok ()
    · dsimp only
      split
      · rw [String.append_assoc, String.append_assoc, String.append_assoc]
        exact Fails.error (.conflict (by decide) (by decide))
      · rw [String.append_assoc]
        exact Fails.error (.conflict (by decide) (by decide))

theorem raises_namespaceCreate (fmt : Time → String) (accountId : ℕ) (name : String) (desc : Json) :
    (Namespaces.create fmt accountId name desc).Raises NotSlots :=
  Raises.fetch_bind (fun db => fails_namespaceName fmt db name) fun _ =>
    Raises.fetch_bind (fun _ e he => .of_isPy (Functions.fails_newName _ _ _ e he)) fun _ =>
      Raises.fetch_bind (fun _ e he => .of_isPy ((fails_textColumn _).isPy e he)) fun _ =>
        Raises.query_bind fun _ => Raises.write_bind (.pure _)

variable {config : TierConfig} {tier name : String} {accountId : ℕ} {db : Db} (env : LifecycleEnv) (agent : Agent)

theorem NotSlots.of_getAgent {e : ApiError} (h : getAgent db accountId name = .error e) : NotSlots e := by
  have hf : Fails NotSlots (getAgent db accountId name) := by
    refine Fails.bind (fun e he => .of_isPy (fails_scalarOneOrNone _ e he)) fun found => ?_
    rcases found with _ | a
    · exact Fails.error fun text heq => by cases heq
    · exact Fails.ok a
  exact hf e h

theorem raises_addAgent (row : Agent) : (addAgent row).Raises NotSlots := by
  refine .fetch_bind (fun _ e he => ?_) fun _ => .fetch_bind (fun _ e he => ?_) fun _ =>
    .query_bind fun _ => .write_bind (.pure _)
  · unfold validateAgentName at he
    split at he <;> cases he
    exact .of_isPy ⟨_, _, rfl⟩
  · split at he <;> cases he
    exact .of_isPy ⟨_, _, rfl⟩

theorem raises_createReplica : (createReplica env agent).Raises ApiError.IsPy := by
  refine .fetch_bind (fun _ e he => ?_) fun _ => .query_bind fun _ =>
    .write_bind (.fetch_bind (fun _ e he => ?_) fun _ => .write_bind (.pure _))
  · unfold generateReplicaName at he
    split at he <;> cases he
    exact ⟨_, _, rfl⟩
  · unfold runReplicaContainer at he
    split at he <;> cases he
    exact ⟨_, _, rfl⟩

theorem raises_storeStatus (i : ℕ) {P : ApiError → Prop} : (storeStatus i).Raises P :=
  .query_bind fun _ => fun _ _ h => by cases h

theorem raises_startClone : (startClone env agent).Raises NotSlots := by
  unfold startClone
  split
  · exact fun _ _ h => by cases h
  · exact fun _ _ h => by cases h
  · exact fun _ _ h => by
      cases h
      exact .of_isPy ⟨_, _, rfl⟩

theorem getTierConfig_of_some (h : agentTierConfig tier = some config) : getTierConfig tier = .ok config := by
  rw [getTierConfig, h]

theorem fails_checkNewAgent
    (h : ¬config.maxAgents ≤ getAgentCount db accountId) :
      Fails NotSlots (checkNewAgent db config accountId tier name) := by
  rw [checkNewAgent, if_neg h]
  refine Fails.bind (fun e he => .of_isPy (fails_scalarOneOrNone _ e he)) fun found => ?_
  rcases found with _ | a
  · exact Fails.ok ()
  · dsimp only
    rw [String.append_assoc]
    exact Fails.error (.conflict (by decide) (by decide))

theorem newAgent_refused_iff {rest : TierConfig → DbSession Agent} (hr : ∀ config, (rest config).Raises NotSlots)
    (ht : agentTierConfig tier = some config) (db : Db) (accountId : ℕ) (name : String) :
    ((do
        let config ← fetch fun _ => getTierConfig tier
        fetch fun db => checkNewAgent db config accountId tier name
        rest config : DbSession Agent) db).1 =
      .error (conflict ("Agent slot limit reached (" ++ toString config.maxAgents ++ " for " ++ tier ++ ")")) ↔
      config.maxAgents < getAgentCount db accountId + 1 := by
  simp only [Int.lt_add_one_iff, fetch_bind_apply, getTierConfig_of_some ht]
  by_cases hf : config.maxAgents ≤ getAgentCount db accountId
  · rw [checkNewAgent, if_pos hf]
    exact iff_of_true rfl hf
  · refine iff_of_false (fun he => ?_) hf
    rw [String.append_assoc, String.append_assoc, String.append_assoc] at he
    rcases hc : checkNewAgent db config accountId tier name with e | _ <;> rw [hc] at he
    · exact fails_checkNewAgent hf _ hc _ (Except.error.inj he)
    · exact hr config db _ he _ rfl

theorem createAgent_refused_iff {env : LifecycleEnv} (ht : agentTierConfig tier = some config)
    (db : Db) (accountId : ℕ) (name : String) (disp : Option String) :
    (createAgent env accountId tier name disp db).1 =
      .error (conflict ("Agent slot limit reached (" ++ toString config.maxAgents ++ " for " ++ tier ++ ")")) ↔
      config.maxAgents < getAgentCount db accountId + 1 := by
  refine newAgent_refused_iff (fun config => ?_) ht db accountId name
  refine (raises_namespaceCreate _ _ _ _).bind fun ns => (raises_addAgent _).bind fun agent => ?_
  refine Raises.bind (fun s e he => .of_isPy (raises_createReplica env agent s e he)) fun _ => ?_
  rintro s e ⟨⟩
  exact .of_isPy ⟨_, _, rfl⟩

theorem cloneAgent_refused_iff {env : LifecycleEnv} (ht : agentTierConfig tier = some config)
    (db : Db) (accountId : ℕ) (src nn : String) :
    (cloneAgent env accountId src nn tier db).1 =
      .error (conflict ("Agent slot limit reached (" ++ toString config.maxAgents ++ " for " ++ tier ++ ")")) ↔
      config.maxAgents < getAgentCount db accountId + 1 := by
  refine newAgent_refused_iff (fun config => ?_) ht db accountId nn
  refine .fetch_bind (fun db e he => ?_) fun sr => ?_
  · exact .of_getAgent he
  · refine (raises_namespaceCreate _ _ _ _).bind fun ns => (raises_addAgent _).bind fun agent => ?_
    exact .write_bind ((raises_startClone env agent).bind fun _ => .pure _)

theorem raises_createReplicas (n : ℕ) : (createReplicas env agent n).Raises ApiError.IsPy := by
  induction n with
  | zero => exact .pure _
  | succ n ih => exact (raises_createReplica env agent).bind fun _ => ih

theorem fails_ignoringDocker (r : Except DockerError Unit) : Fails ApiError.IsPy (ignoringDocker r) := by
  unfold ignoringDocker
  split
  · exact Fails.error ⟨_, _, rfl⟩
  · exact Fails.ok ()

theorem raises_dropReplicas (reps : List AgentReplica) :
    (dropReplicas env reps).Raises ApiError.IsPy := by
  induction reps with
  | nil => exact .pure _
  | cons r rs ih =>
    refine Raises.bind (.fetch_bind (fun _ => ?_) fun _ => fun _ _ h => by cases h) fun _ => ih
    cases r.containerId with
    | none => exact Fails.ok ()
    | some con => exact (fails_ignoringDocker _).bind fun _ => fails_ignoringDocker _

theorem raises_adjustReplicas (cur : List AgentReplica) (tgt : ℤ) :
    (adjustReplicas env agent cur tgt).Raises ApiError.IsPy := by
  unfold adjustReplicas
  split
  · exact raises_createReplicas env agent _
  · exact raises_dropReplicas env _

theorem scaleAgent_refused_iff {env : LifecycleEnv} (ht : agentTierConfig tier = some config)
    {agent : Agent} (ha : getAgent db accountId name = .ok agent) (target : ℤ) :
    (scaleAgent env accountId name target tier db).1 =
      .error (conflict ("Scaling to " ++ toString target ++ " replicas would use " ++
        toString ((getTotalReplicaCount db accountId :
          ℤ) - (getReplicas db agent.id).length + target) ++ " slots (limit: " ++
        toString config.maxAgents ++ ")")) ↔
      config.maxAgents < (getTotalReplicaCount db accountId : ℤ) - (getReplicas db agent.id).length + target := by
  simp only [scaleAgent, fetch_bind_apply, ha, getTierConfig_of_some ht, query_bind_apply]
  by_cases ho : config.maxAgents < (getTotalReplicaCount db accountId : ℤ) - (getReplicas db agent.id).length + target
  · rw [if_pos ho]
    exact iff_of_true rfl ho
  · rw [if_neg ho]
    refine iff_of_false (Raises.fst_ne (P := ApiError.IsPy) ?_ (by rintro ⟨_, _, h⟩; cases h)) ho
    exact .write_bind ((raises_adjustReplicas env agent _ target).bind fun _ =>
      (raises_storeStatus _).bind fun _ => .pure _)

theorem setState_fst (dump : Json → String) (accountId : ℕ) (name key : String) (v : Json)
    (tier : String) (w : World) :
    (setState dump accountId name key v tier w).1 =
      (checkSetState w.db accountId name key (encode (dump v)).length tier).map fun _ => () := by
  simp only [setState, fetch_bind_apply]
  rcases checkSetState w.db accountId name key (encode (dump v)).length tier with e | ⟨agent, _ | old⟩ <;> rfl

theorem setState_refused_iff {dump : Json → String} (ht : agentTierConfig tier = some config)
    {w : World} {key : String} {agent : Agent} (ha : getAgent w.db accountId name = .ok agent)
    {old : Option AgentState} (hen : findEntry w.db agent.id key = .ok old) (v : Json) {usage : ℤ}
    (hu : usage = ((entriesOf w.db agent.id).map (·.sizeBytes)).sum - ((old.map (·.sizeBytes)).getD 0 : ℕ) +
      (encode (dump v)).length) :
    (setState dump accountId name key v tier w).1 =
      .error (.app .forbidden ("State size limit exceeded: " ++ toString usage ++ " bytes > " ++
        toString config.maxStateBytes ++
        " bytes for " ++ tier)) ↔ config.maxStateBytes < usage := by
  have hl : Agents.maxStateBytes tier = .ok config.maxStateBytes := by
    rw [maxStateBytes_eq, getTierConfig_of_some ht]
    rfl
  rw [setState_fst, checkSetState, ha, hl]
  simp only [bind, Except.bind, hen, ← hu]
  by_cases ho : config.maxStateBytes < usage
  · rw [if_pos ho]
    exact iff_of_true rfl ho
  · rw [if_neg ho]
    refine iff_of_false (fun he => ?_) ho
    split at he <;> cases he

open QuotaCall in
theorem refused_iff (dump : Json → String) (w : World) (call : QuotaCall) :
    Refused env dump w call ↔ ∃ lim usage, call.quota dump w.db = some (lim, usage) ∧ lim < usage := by
  refine exists_congr fun lim => exists_congr fun usage => and_congr_right fun hq => ?_
  have hm : ∀ {α : Type} {r : Except ApiError α} {e : ApiError}, (r.map fun _ => ()) = .error e ↔ r = .error e := by
    intro α r e
    cases r <;> simp [Except.map]
  cases call with
  | createAgent accountId tier name disp =>
    obtain ⟨config, ht, heq⟩ := Option.map_eq_some_iff.mp hq
    cases heq
    exact hm.trans (createAgent_refused_iff ht w.db accountId name disp)
  | cloneAgent accountId src newName tier =>
    obtain ⟨config, ht, heq⟩ := Option.map_eq_some_iff.mp hq
    cases heq
    exact hm.trans (cloneAgent_refused_iff ht w.db accountId src newName)
  | scaleAgent accountId agentName target tier =>
    simp only [quota] at hq
    split at hq
    · rename_i agent config ha ht
      cases hq
      exact hm.trans (scaleAgent_refused_iff ht ha target)
    · cases hq
  | setState accountId agentName key value tier =>
    simp only [quota] at hq
    split at hq
    · rename_i agent config ha ht
      split at hq
      · rename_i old he
        cases hq
        exact setState_refused_iff ht ha he value rfl
      · cases hq
    · cases hq

/-- A quota is respected, with `-1` for no limit, exactly when the limit is not negative or would not be
exceeded anyway. -/
theorem quota_respected_iff (env : LifecycleEnv) (dumps : Json → String) (w : World) (call : QuotaCall) :
    (call.Refused env dumps w ↔ call.Exceeds dumps w.db) ↔ call.Limited dumps w.db := by
  rw [refused_iff]
  constructor
  · intro h lim us hq
    by_contra hn
    push Not at hn
    obtain ⟨lim', use', hq', hl, -⟩ := h.mp ⟨lim, us, hq, hn.2⟩
    cases hq.symm.trans hq'
    omega
  · intro h
    constructor
    · rintro ⟨lim, us, hq, ho⟩
      refine ⟨lim, us, hq, ?_, ho⟩
      have := h lim us hq
      omega
    · rintro ⟨lim, us, hq, -, ho⟩
      exact ⟨lim, us, hq, ho⟩

def firstAgent (tier : String) : QuotaCall := .createAgent 1 tier "bot" none

def firstEntry (tier : String) : QuotaCall := .setState 1 "bot" "k" .null tier

def botWorld : World := { db := { agents := Table.single { id := 1, accountId := 1, namespaceId := 1, name := "bot" } } }

/-- The tier without limits is refused its first agent and its first state entry. -/
theorem unlimited_tier_refused :
    (agentTierConfig "dedicated-agent").map (fun config => (config.maxAgents, config.maxStateBytes)) = some (-1, -1) ∧
      (firstAgent "dedicated-agent").answer plainDocker (fun _ => "null") { db := {} } =
        .error (conflict "Agent slot limit reached (-1 for dedicated-agent)") ∧
      (firstEntry "dedicated-agent").answer plainDocker (fun _ => "null") botWorld =
        .error (.app .forbidden "State size limit exceeded: 4 bytes > -1 bytes for dedicated-agent") :=
  ⟨by decide, by rfl, by rfl⟩

theorem pro_tier_respected : (firstAgent "pro-agent").quota (fun _ => "null") {} = some (5, 1) ∧
      ((firstAgent "pro-agent").Refused plainDocker (fun _ => "null") { db := {} } ↔
        (firstAgent "pro-agent").Exceeds (fun _ => "null") {}) := by
  refine ⟨rfl, (quota_respected_iff plainDocker (fun _ => "null") { db := {} } (firstAgent "pro-agent")).mpr ?_⟩
  intro lim us hq
  cases hq
  exact .inl (by decide)

end McpworksApi.Agents
