import McpworksApi.Agents.Lifecycle
import McpworksApi.Agents.Orchestration

/-! Cloning and permissions. `clone_agent` copies the model, the prompt, the state and the schedules of an agent, but
none of its restrictions: a clone has no access rules, the default tool tiers and no limits of its own. -/

namespace McpworksApi.Agents

open Models Py Run Services Session

/-- What is asked of the restrictions of an agent: a function call, access to a state key, a tool call, another round
of an orchestration or of a chat, and another function call in an orchestration. -/
inductive Action
  | call (service function : String) (trust : Option ℤ)
  | state (key : String)
  | tool (triggerType name : String)
  | round (iterations tokens seconds : ℕ)
  | another (functionsCalled : List String)
  | chatRound (iterations : ℕ)

def Permits (tier : String) (agent : Agent) : Action → Prop
  | .call service function trust => (Access.checkFunctionAccess agent.accessRules service function trust).1 = true
  | .state key => (Access.checkStateAccess agent.accessRules key).1 = true
  | .tool triggerType name => Access.isToolAllowed (effectiveToolTier agent triggerType) name = true
  | .round iterations tokens seconds =>
    let limits := resolveOrchestrationLimits tier agent
    (iterations : ℤ) < limits.maxIterations ∧ (tokens : ℤ) < limits.maxAiTokens ∧
      (seconds : ℤ) < limits.maxExecutionSeconds
  | .another functionsCalled => limitReached (resolveOrchestrationLimits tier agent) functionsCalled = false
  | .chatRound iterations => (iterations : ℤ) < maxChatIterations agent

def NoEscalation (tier : String) (a b : Agent) : Prop := ∀ action, Permits tier b action → Permits tier a action

structure Unrestricted (tier : String) (a : Agent) : Prop where
  functions : ∀ service function trust, (Access.checkFunctionAccess a.accessRules service function trust).1 = true
  keys : ∀ key, (Access.checkStateAccess a.accessRules key).1 = true
  toolTier : a.toolTier ≠ .executeOnly
  iterations : ∀ n, a.orchestrationLimits.maxIterations = some n → (tierLimits tier).maxIterations ≤ n
  tokens : ∀ n, a.orchestrationLimits.maxAiTokens = some n → (tierLimits tier).maxAiTokens ≤ n
  seconds : ∀ n, a.orchestrationLimits.maxExecutionSeconds = some n → (tierLimits tier).maxExecutionSeconds ≤ n
  -- a negative number stands for no limit
  functionsCalled : ∀ n, a.orchestrationLimits.maxFunctionsCalled = some n →
    n < 0 ∨ 0 ≤ (tierLimits tier).maxFunctionsCalled ∧ (tierLimits tier).maxFunctionsCalled ≤ n

structure Default (b : Agent) : Prop where
  accessRules : b.accessRules = none
  toolTier : b.toolTier = .standard
  scheduledToolTier : b.scheduledToolTier = .executeOnly
  limits : b.orchestrationLimits = {}

def Cloned (a b : Agent) : Prop :=
  ∃ env accountId sourceName newName tier db db' result,
    getAgent db accountId sourceName = .ok a ∧
      cloneAgent env accountId sourceName newName tier db = (.ok result, db') ∧
      db'.agents.get? result.id = some b

theorem startClone_default (env : LifecycleEnv) (ag : Agent) {db : Db} {b : Agent}
    (hb : db.agents.get? ag.id = some b)
    (hd : Default b) :
    Wp (startClone env ag) (fun _ db' => ∃ b', db'.agents.get? ag.id = some b' ∧
      Default b') (fun _ _ => True) db := by
  unfold startClone
  split
  · apply Wp.write
    rw [Table.get?_update, hb]
    exact ⟨_, rfl, hd.1, hd.2, hd.3, hd.4⟩
  · apply Wp.write
    rw [Table.get?_update, hb]
    exact ⟨_, rfl, hd.1, hd.2, hd.3, hd.4⟩
  · exact Wp.raise trivial

theorem cloneAgent_default (env : LifecycleEnv) (aid : ℕ) (src nn tier : String) (db : Db) :
    Wp (cloneAgent env aid src nn tier)
      (fun ag db' => ∃ b, db'.agents.get? ag.id = some b ∧ Default b) (fun _ _ => True) db := by
  apply Wp.fetch_bind (fun _ _ => trivial)
  intro cfg _
  apply Wp.fetch_bind (fun _ _ => trivial)
  intro _ _
  apply Wp.fetch_bind (fun _ _ => trivial)
  intro sr _
  apply Wp.bind
  apply Wp.of_forall _ (fun _ _ => trivial)
  intro ns db₁
  apply Wp.bind
  apply (addAgent_wp _ db₁).mono _ (fun _ _ _ => trivial)
  rintro ag _ ⟨rfl, rfl⟩
  apply Wp.write_bind
  apply Wp.bind
  apply (startClone_default env _ Table.get?_insert ⟨rfl, rfl, rfl, rfl⟩).mono _ (fun _ _ h => h)
  intro _ db₃ h
  exact Wp.pure h

theorem Cloned.default {a b : Agent} (h : Cloned a b) : Default b := by
  obtain ⟨env, aid, src, newName, tier, db, db', result, -, hc, hb⟩ := h
  obtain ⟨b', hb', hd⟩ := (cloneAgent_default env aid src newName tier db).of_ok hc
  rw [hb] at hb'
  cases hb'
  exact hd

theorem default_of_chain {a b : Agent} (h : Relation.TransGen Cloned a b) : Default b := by
  cases h with
  | single h => exact h.default
  | tail _ h => exact h.default

theorem tierLimits_pos (tier : String) :
    10 ≤ (tierLimits tier).maxIterations ∧ 0 < (tierLimits tier).maxAiTokens ∧
      0 < (tierLimits tier).maxExecutionSeconds := by
  unfold tierLimits
  split_ifs <;> decide

theorem Default.resolve {b : Agent} (h : Default b) (tier : String) :
    resolveOrchestrationLimits tier b = tierLimits tier := by
  unfold resolveOrchestrationLimits
  rw [h.limits]
  rfl

theorem isToolAllowed_of_subset {t t' : ToolTier} {name : String} (h : Access.tierTools t ⊆ Access.tierTools t')
    (ha : Access.isToolAllowed t name = true) : Access.isToolAllowed t' name = true := by
  unfold Access.isToolAllowed at ha ⊢
  rw [Bool.or_eq_true, decide_eq_true_eq] at ha ⊢
  exact ha.imp_right fun hm => h hm

theorem standard_subset {t : ToolTier} (h : t ≠ .executeOnly) : Access.tierTools .standard ⊆ Access.tierTools t := by
  have hb : Access.standardTools ⊆ Access.builderTools := List.subset_append_left _ _
  cases t with
  | executeOnly => exact absurd rfl h
  | standard => exact List.Subset.refl _
  | builder => exact hb
  | admin => exact List.Subset.trans hb (List.subset_append_left _ _)

theorem executeOnly_subset (t : ToolTier) : Access.tierTools .executeOnly ⊆ Access.tierTools t := by
  by_cases hl : t = .executeOnly
  · rw [hl]
    exact List.Subset.refl _
  · exact List.Subset.trans (List.subset_append_left _ _) (standard_subset hl)

section Escalation

variable {tier : String} {a b : Agent}

theorem Unrestricted.noEscalation (ha : Unrestricted tier a) (hb : Default b) : NoEscalation tier a b := by
  have hpo := tierLimits_pos tier
  intro action hp
  cases action with
  | call svc fn trust => exact ha.functions svc fn trust
  | state key => exact ha.keys key
  | tool trig name =>
    simp only [Permits, effectiveToolTier, hb.toolTier, hb.scheduledToolTier] at hp ⊢
    split at hp
    · rename_i hs
      rw [if_pos hs]
      exact isToolAllowed_of_subset (executeOnly_subset _) hp
    · rename_i hm
      rw [if_neg hm]
      exact isToolAllowed_of_subset (standard_subset ha.toolTier) hp
  | round its tokens secs =>
    simp only [Permits, hb.resolve] at hp
    obtain ⟨hit, ht, hse⟩ := hp
    have hle {own : Option ℤ} {default : ℤ} (h : ∀ n, own = some n → default ≤ n) : default ≤ own.getD default := by
      cases own with
      | none => exact le_rfl
      | some n => exact h n rfl
    exact ⟨hit.trans_le (hle ha.iterations), ht.trans_le (hle ha.tokens), hse.trans_le (hle ha.seconds)⟩
  | another fc =>
    simp only [Permits, hb.resolve, limitReached, decide_eq_false_iff_not] at hp ⊢
    have hl := ha.functionsCalled
    simp only [resolveOrchestrationLimits]
    cases ho : a.orchestrationLimits.maxFunctionsCalled with
    | none => exact hp
    | some n =>
      have hn := hl n ho
      simp only [Option.getD_some]
      omega
  | chatRound its =>
    simp only [Permits, maxChatIterations, hb.limits, Option.getD_none] at hp ⊢
    cases ho : a.orchestrationLimits.maxIterations with
    | none => exact hp
    | some n =>
      have hn := ha.iterations n ho
      simp only [Option.getD_some]
      omega

theorem NoEscalation.unrestricted (h : NoEscalation tier a b) (hb : Default b) : Unrestricted tier a := by
  have hp := tierLimits_pos tier
  -- a round that the limits of the tier permit is one that the agent's own limits permit
  have hr (its ts secs : ℕ) (hi : (its : ℤ) < (tierLimits tier).maxIterations)
      (ht : (ts : ℤ) < (tierLimits tier).maxAiTokens) (hs : (secs : ℤ) < (tierLimits tier).maxExecutionSeconds) :
      Permits tier a (.round its ts secs) := by
    apply h
    simp only [Permits, hb.resolve]
    exact ⟨hi, ht, hs⟩
  refine ⟨?_, ?_, ?_, ?_, ?_, ?_, ?_⟩
  · intro svc fn trust
    apply h (.call svc fn trust)
    simp only [Permits, hb.accessRules]
    rfl
  · intro key
    apply h (.state key)
    simp only [Permits, hb.accessRules]
    rfl
  · intro hlo
    have hm : ¬("manual" = "cron" ∨ "manual" = "webhook") := by decide
    have hto := h (.tool "manual" "list_services")
    simp only [Permits, effectiveToolTier, if_neg hm, hb.toolTier, hlo] at hto
    exact absurd (hto (by decide)) (by decide)
  · intro n hn
    by_contra hl
    have hmore := (hr n.toNat 0 0 (by omega) (by omega) (by omega)).1
    simp only [resolveOrchestrationLimits, hn, Option.getD_some] at hmore
    omega
  · intro n hn
    by_contra hl
    have hmore := (hr 0 n.toNat 0 (by omega) (by omega) (by omega)).2.1
    simp only [resolveOrchestrationLimits, hn, Option.getD_some] at hmore
    omega
  · intro n hn
    by_contra hl
    have hmore := (hr 0 0 n.toNat (by omega) (by omega) (by omega)).2.2
    simp only [resolveOrchestrationLimits, hn, Option.getD_some] at hmore
    omega
  · intro n hn
    by_contra hl
    have hmore := h (.another (List.replicate n.toNat ""))
    simp only [Permits, hb.resolve, limitReached, List.length_replicate, decide_eq_false_iff_not] at hmore
    replace hmore := hmore (by omega)
    simp only [resolveOrchestrationLimits, hn, Option.getD_some] at hmore
    omega

end Escalation

/-- A clone, or a clone of a clone, may do no more than the agent at the beginning exactly when that agent was not
restricted beyond the defaults. -/
theorem clone_noEscalation_iff (tier : String) {a b : Agent} (h : Relation.TransGen Cloned a b) :
    NoEscalation tier a b ↔ Unrestricted tier a := by
  have hd := default_of_chain h
  exact ⟨fun hno => hno.unrestricted hd, fun ha => ha.noEscalation hd⟩

def cloneDb (a : Agent) : Db where
  agents := .single a
  namespaces := .single { id := 1, accountId := 1, name := .acme }

def mutedBot : Agent where
  id := 1
  accountId := 1
  namespaceId := 1
  name := "bot"
  accessRules := some { functionRules := [{ id := some "r", type := some .denyFunctions, patterns := ["*"] }] }

def plainBot : Agent where
  id := 1
  accountId := 1
  namespaceId := 1
  name := "bot"

def copyOf (clonedFromId : ℕ) : Agent where
  id := 2
  accountId := 1
  namespaceId := 2
  name := "copy"
  containerId := some "agent-copy"
  status := .running
  memoryLimitMb := 512
  cpuLimit := 1 / 2
  clonedFromId := some clonedFromId

/-- The clone of an agent that may call nothing may call everything. -/
theorem muted_clone_calls :
    Cloned mutedBot (copyOf 1) ∧ Permits "pro-agent" (copyOf 1) (.call "mail" "send" none) ∧
      ¬ Permits "pro-agent" mutedBot (.call "mail" "send" none) ∧ ¬ NoEscalation "pro-agent" mutedBot (copyOf 1) := by
  have hc : Cloned mutedBot (copyOf 1) :=
    ⟨plainDocker, 1, "bot", "copy", "pro-agent", cloneDb mutedBot, _, _, rfl, rfl, rfl⟩
  have hr : ¬ Permits "pro-agent" mutedBot (.call "mail" "send" none) := by
    unfold Permits
    decide
  exact ⟨hc, rfl, hr, fun h => hr (h (.call "mail" "send" none) rfl)⟩

theorem plain_clone_same :
    Cloned plainBot (copyOf 1) ∧ Unrestricted "pro-agent" plainBot ∧
      NoEscalation "pro-agent" plainBot (copyOf 1) := by
  have hc : Cloned plainBot (copyOf 1) :=
    ⟨plainDocker, 1, "bot", "copy", "pro-agent", cloneDb plainBot, _, _, rfl, rfl, rfl⟩
  have hu : Unrestricted "pro-agent" plainBot :=
    ⟨fun _ _ _ => rfl, fun _ => rfl, by decide, nofun, nofun, nofun, nofun⟩
  exact ⟨hc, hu, (clone_noEscalation_iff "pro-agent" (.single hc)).mpr hu⟩

end McpworksApi.Agents
