import McpworksApi.Access.AgentAccess

/-! What the access rules of an agent say, apart from the order in which they are read. A deny rule refuses
wherever it stands; of the allow rules for functions only the first that matches sets the trust that is needed. -/

namespace McpworksApi.Access

open Models

section Rules

variable (glob : String → String → Bool)

/-- `filter_state_keys`. -/
def filterStateKeys (accessRules : Option AccessRules) (keys : List String) : List String :=
  match accessRules with
  | none => keys
  | some _ => keys.filter fun key => (decideState glob accessRules key).1

/-- A rule of the type of which some pattern matches the text. -/
def Hits (t : RuleType) (text : String) (r : AccessRule) : Prop :=
  r.type = some t ∧ ∃ p ∈ r.patterns, glob text p = true

/-- The first of the rules that hits. -/
def FirstHit (t : RuleType) (text : String) (rules : List AccessRule) (r : AccessRule) : Prop :=
  Hits glob t text r ∧ ∃ before after, rules = before ++ r :: after ∧ ∀ q ∈ before, ¬ Hits glob t text q

/-- The rules permit a call: none denies it, allow rules for services and for functions each have one that
matches if there are any, and the first that matches the function asks for no more trust than there is. -/
structure Permits (rules : List AccessRule) (service function : String) (trust : Option ℤ) : Prop where
  services_not_denied : ∀ r ∈ rules, ¬ Hits glob .denyServices service r
  functions_not_denied : ∀ r ∈ rules, ¬ Hits glob .denyFunctions (service ++ "." ++ function) r
  services_allowed : (∃ r ∈ rules, r.type = some .allowServices) → ∃ r ∈ rules, Hits glob .allowServices service r
  functions_allowed : (∃ r ∈ rules, r.type = some .allowFunctions) →
    ∃ r, FirstHit glob .allowFunctions (service ++ "." ++ function) rules r ∧
      ∀ score, trust = some score → r.minTrustScore.getD 0 ≤ score

end Rules

variable {glob : String → String → Bool} {t : RuleType} {text : String} {rs : List AccessRule} {r : AccessRule}

theorem hits_iff : (decide (r.type = some t) && ruleMatches glob text r) = true ↔ Hits glob t text r := by
  simp [Hits, ruleMatches]

theorem find?_rulesOfType : (rulesOfType t rs).find? (ruleMatches glob text) =
    rs.find? fun r => decide (r.type = some t) && ruleMatches glob text r := by
  simp only [rulesOfType, List.find?_filter, Bool.decide_and, Bool.decide_eq_true]

theorem find?_eq_none_iff :
    (rulesOfType t rs).find? (ruleMatches glob text) = none ↔ ∀ r ∈ rs, ¬ Hits glob t text r := by
  simp only [find?_rulesOfType, List.find?_eq_none, hits_iff]

theorem find?_eq_some_iff :
    (rulesOfType t rs).find? (ruleMatches glob text) = some r ↔ FirstHit glob t text rs r := by
  simp only [find?_rulesOfType, List.find?_eq_some_iff_append, Bool.not_eq_true',
    ← Bool.not_eq_true, hits_iff, FirstHit]

theorem rulesOfType_eq_nil_iff : rulesOfType t rs = [] ↔ ¬ ∃ r ∈ rs, r.type = some t := by
  simp [rulesOfType, List.filter_eq_nil_iff]

/-- The three outcomes of a list of allow rules: none of the type, a first hit, or a refusal. -/
theorem allowedBy_cases (glob : String → String → Bool) (t : RuleType) (text : String) (rs : List AccessRule) :
    ((¬ ∃ r ∈ rs, r.type = some t) ∧ allowedBy glob text (rulesOfType t rs) = .ok none) ∨
    (∃ r, FirstHit glob t text rs r ∧ allowedBy glob text (rulesOfType t rs) = .ok (some r)) ∨
    (∃ r ∈ rs, r.type = some t) ∧ (∀ r ∈ rs, ¬ Hits glob t text r) ∧
      ∃ id, allowedBy glob text (rulesOfType t rs) = .error id := by
  rw [← rulesOfType_eq_nil_iff, ← find?_eq_none_iff, ← not_not (a := ∃ r ∈ rs, r.type = some t),
    ← rulesOfType_eq_nil_iff]
  simp only [← find?_eq_some_iff]
  unfold allowedBy
  rcases rulesOfType t rs with _ | ⟨first, ls⟩
  · exact .inl ⟨rfl, rfl⟩
  rcases (first :: ls).find? (ruleMatches glob text) with _ | r
  · exact .inr (.inr ⟨List.cons_ne_nil _ _, rfl, first.id, rfl⟩)
  · exact .inr (.inl ⟨r, rfl, rfl⟩)

theorem allowedBy_ok_iff : (∃ o, allowedBy glob text (rulesOfType t rs) = .ok o) ↔
    ((∃ r ∈ rs, r.type = some t) → ∃ r ∈ rs, Hits glob t text r) := by
  rcases allowedBy_cases glob t text rs with ⟨hn, ha⟩ | ⟨r, ⟨hh, b, a, he, -⟩, ha⟩ | ⟨hx, hn, id, ha⟩
  · exact iff_of_true ⟨_, ha⟩ fun hx => absurd hx hn
  · exact iff_of_true ⟨_, ha⟩ fun _ => ⟨r, by simp [he], hh⟩
  · refine iff_of_false (by simp [ha]) fun h => ?_
    obtain ⟨r, hr, hh⟩ := h hx
    exact hn r hr hh

variable {doc : AccessRules} {service function : String} {trust : Option ℤ}

theorem decideFunction_iff : (decideFunction glob (some doc) service function trust).1 = true ↔
    Permits glob doc.functionRules service function trust := by
  unfold decideFunction deniedBy
  dsimp only
  rcases hs : (rulesOfType .denyServices doc.functionRules).find? (ruleMatches glob service) with _ | r
  swap
  · exact iff_of_false (by simp) fun h => by simp [find?_eq_none_iff.mpr h.services_not_denied] at hs
  rcases hf : (rulesOfType .denyFunctions doc.functionRules).find?
    (ruleMatches glob (service ++ "." ++ function)) with _ | r
  swap
  · exact iff_of_false (by simp) fun h => by simp [find?_eq_none_iff.mpr h.functions_not_denied] at hf
  rw [find?_eq_none_iff] at hs hf
  rcases ho : allowedBy glob service (rulesOfType .allowServices doc.functionRules) with id | o
  · refine iff_of_false (by simp) fun h => ?_
    obtain ⟨o, hok⟩ := allowedBy_ok_iff.mpr h.services_allowed
    cases ho.symm.trans hok
  have ha := allowedBy_ok_iff.mp ⟨o, ho⟩
  dsimp only
  rcases allowedBy_cases glob .allowFunctions (service ++ "." ++ function) doc.functionRules with
    ⟨hn, hq⟩ | ⟨r, hr, hq⟩ | ⟨hx, hn, id, hq⟩
  · simp only [hq]
    exact iff_of_true trivial ⟨hs, hf, ha, fun hx => absurd hx hn⟩
  · have hx : ∃ r ∈ doc.functionRules, r.type = some .allowFunctions := by
      obtain ⟨hh, b, a, he, -⟩ := hr
      exact ⟨r, by simp [he], hh.1⟩
    -- the first hit is one rule, so its trust is the one that counts
    have hu : ∀ q, FirstHit glob .allowFunctions (service ++ "." ++ function) doc.functionRules q → q = r := by
      intro q h
      rw [← find?_eq_some_iff] at h hr
      exact Option.some.inj (h.symm.trans hr)
    have hp : Permits glob doc.functionRules service function trust ↔
        ∀ score, trust = some score → r.minTrustScore.getD 0 ≤ score := by
      refine ⟨fun h => ?_, fun h => ⟨hs, hf, ha, fun _ => ⟨r, hr, h⟩⟩⟩
      obtain ⟨q, hfirst, hle⟩ := h.functions_allowed hx
      rwa [hu q hfirst] at hle
    rw [hp]
    cases trust with
    | none => simp [hq]
    | some score =>
      simp only [hq]
      split_ifs with hlt
      · simp [hlt]
      · simpa using hlt
  · simp only [hq]
    refine iff_of_false (by simp) fun h => ?_
    obtain ⟨r, ⟨hh, b, a, he, -⟩, -⟩ := h.functions_allowed hx
    exact hn r (by simp [he]) hh

theorem Permits.of_insert {pre after : List AccessRule}
    (hd : r.type = some .denyServices ∨ r.type = some .denyFunctions)
    (h : Permits glob (pre ++ r :: after) service function trust) :
    Permits glob (pre ++ after) service function trust := by
  have hm : ∀ q ∈ pre ++ after, q ∈ pre ++ r :: after := by
    intro q hq
    simp only [List.mem_append, List.mem_cons] at hq ⊢
    tauto
  have hsame : ∀ t, t = .allowServices ∨ t = .allowFunctions →
      rulesOfType t (pre ++ r :: after) = rulesOfType t (pre ++ after) := by
    rintro t (rfl | rfl) <;> rcases hd with hd | hd <;> simp [rulesOfType, hd]
  refine ⟨fun q hq => h.services_not_denied q (hm q hq), fun q hq => h.functions_not_denied q (hm q hq), ?_, ?_⟩
  · rw [← allowedBy_ok_iff, ← hsame _ (.inl rfl)]
    exact allowedBy_ok_iff.mpr h.services_allowed
  · rintro ⟨q, hq, ht⟩
    obtain ⟨p, hp, hle⟩ := h.functions_allowed ⟨q, hm q hq, ht⟩
    rw [← find?_eq_some_iff, hsame _ (.inr rfl), find?_eq_some_iff] at hp
    exact ⟨p, hp, hle⟩

/-- The decision on a function is what the rules permit, a deny rule put in anywhere turns no denial into an
allowance, and the state keys that are kept are the allowed ones, in their order. -/
theorem access_decisions (glob : String → String → Bool) (accessRules : Option AccessRules) :
    (∀ service function trust, (decideFunction glob accessRules service function trust).1 = true ↔
      ∀ doc, accessRules = some doc → Permits glob doc.functionRules service function trust) ∧
    (∀ before r after state service function trust, r.type = some .denyServices ∨ r.type = some .denyFunctions →
      (decideFunction glob (some ⟨before ++ after, state⟩) service function trust).1 = false →
      (decideFunction glob (some ⟨before ++ r :: after, state⟩) service function trust).1 = false) ∧
    ∀ keys, filterStateKeys glob accessRules keys = keys.filter fun key => (decideState glob accessRules key).1 := by
  refine ⟨fun service function trust => ?_, ?_, fun keys => ?_⟩
  · cases accessRules with
    | none => simp [decideFunction]
    | some doc => simp [decideFunction_iff]
  · intro before r after state service function trust hd hn
    rw [← Bool.not_eq_true, decideFunction_iff] at hn ⊢
    exact fun h => hn (h.of_insert hd)
  · cases accessRules with
    | none => simp [filterStateKeys, decideState]
    | some doc => rfl

end McpworksApi.Access
