import McpworksApi.Create.FunctionInvariants
import McpworksApi.Services.FunctionHistory

/-! Locked functions. New versions of a locked function and its deletion are refused to callers who are not admins, but
`update` and `set_active_version` do not look at the lock, and `update_function` writes metadata before a new version
is refused. -/

namespace McpworksApi.Create

open Models Py Services Services.Functions Services.GitImport Session

def versionsWith (db : Db) (functionId : ℕ) : List FunctionVersion := db.versions.select (·.functionId = functionId)

/-- The function and its versions are as they were, up to who locked it and when. -/
structure Frozen (e : Function) (versions : List FunctionVersion) (db : Db) : Prop where
  row : ∃ lockedBy lockedAt, db.functions.get? e.id = some { e with lockedBy, lockedAt }
  versions_eq : versionsWith db e.id = versions

theorem frozen_ofFunctions (e : Function) (ve : List FunctionVersion) : OfFunctions (Frozen e ve) := by
  intro db db' hf hv h
  refine ⟨hf ▸ h.row, ?_⟩
  unfold versionsWith
  rw [hv]
  exact h.versions_eq

variable {e : Function} {vers : List FunctionVersion} {db : Db}

variable {a : UpdateArgs} {f : Function} {i : ℕ}

theorem Frozen.eq_of_id (h : Frozen e vers db) (hf : f ∈ db.functions.rows) (hid : f.id = e.id) :
    ∃ lockedBy lockedAt, f = { e with lockedBy, lockedAt } := by
  obtain ⟨lockedBy, lockedAt, hr⟩ := h.row
  have hg : db.functions.get? e.id = some f := Table.get?_eq_some.mpr ⟨hf, hid⟩
  exact ⟨lockedBy, lockedAt, Option.some.inj (hg.symm.trans hr)⟩

theorem maintains_change {g : Function → Function} {hg : ∀ f, (g f).id = f.id}
    (h : f.id = e.id → ∀ lockedBy lockedAt, ∃ by_' lat',
      g { e with lockedBy, lockedAt } = { e with lockedBy := by_', lockedAt := lat' }) :
    Maintains (Frozen e vers) (change f g hg) fun _ => True := by
  apply Maintains.write _ trivial
  intro db hdb
  refine ⟨?_, hdb.versions_eq⟩
  obtain ⟨lockedBy, lockedAt, hr⟩ := hdb.row
  by_cases hid : f.id = e.id
  · obtain ⟨by_', lat', hs⟩ := h hid lockedBy lockedAt
    refine ⟨by_', lat', ?_⟩
    change (db.functions.update f.id g hg).get? e.id = _
    rw [hid, Table.get?_update, hr, Option.map_some, hs]
  · refine ⟨lockedBy, lockedAt, ?_⟩
    change (db.functions.update f.id g hg).get? e.id = _
    rw [Table.get?_update_of_ne (Ne.symm hid)]
    exact hr

theorem maintains_addVersion {fid ver : ℕ} {v : NewVersion} (hne : fid ≠ e.id) :
    Maintains (Frozen e vers) (addVersion fid ver v) fun _ => True := by
  apply Maintains.fetch_bind
  intro _ row _ hr
  apply Maintains.query_bind
  intro _ _
  apply Maintains.write_bind
  · intro db hdb
    refine ⟨hdb.row, ?_⟩
    have ho : row.functionId ≠ e.id := (versionRow_eq_ok hr).1 ▸ hne
    change (db.versions.rows ++ [_]).filter _ = vers
    rw [List.filter_append, List.filter_cons_of_neg (by simpa using ho)]
    exact (List.append_nil _).trans hdb.versions_eq
  · exact .pure trivial

section Service

variable (hlo : e.locked = true) (hlive : e.deletedAt = none)

theorem Frozen.getById_locked (h : Frozen e vers db) {i : ℕ} {f : Function}
    (hf : getById db i = .ok f) (hid : f.id = e.id) :
    ∃ lockedBy lockedAt, f = { e with lockedBy, lockedAt } :=
  h.eq_of_id (getById_eq_ok hf).1 hid

include hlo in
theorem Frozen.ne_of_checkLock (h : Frozen e vers db) {i : ℕ} {f : Function}
    (hf : getById db i = .ok f) {what : String}
    (hc : checkLock f false what = .ok ()) : f.id ≠ e.id := by
  intro hid
  obtain ⟨by_, lat, rfl⟩ := h.getById_locked hf hid
  unfold checkLock at hc
  rw [if_pos ⟨hlo, rfl⟩] at hc
  cases hc

include hlive in
theorem maintains_create (sid : ℕ) (n : NewFunction) :
    Maintains (Frozen e vers) (Functions.create sid n) fun _ => True := by
  apply Maintains.fetch_bind
  intro _ name _ _
  apply Maintains.fetch_bind
  intro db found hdb hf
  cases found with
  | none =>
    apply Maintains.fetch_bind
    intro _ row _ _
    apply Maintains.fetch_bind
    intro _ _ _ _
    apply Maintains.query_bind
    intro db hdb
    have hne : db.functions.freshId ≠ e.id := by
      obtain ⟨_, _, hr⟩ := hdb.row
      exact Ne.symm (Table.freshId_ne (Table.get?_eq_some.mp hr).1)
    apply Maintains.write_bind
    · intro db hdb
      obtain ⟨by_, lat, hr⟩ := hdb.row
      exact ⟨⟨by_, lat, Table.get?_insert_of_some _ hr⟩, hdb.versions_eq⟩
    · exact (maintains_addVersion hne).map
  | some f =>
    dsimp only
    split
    · exact .raise
    · rename_i hd
      have hne : f.id ≠ e.id := by
        intro hid
        have hm := mem_of_scalarOneOrNone hf
        obtain ⟨_, _, rfl⟩ := hdb.eq_of_id (Table.mem_select.mp hm).1 hid
        exact hd hlive
      have hc {g : Function → Function} {hg : ∀ f, (g f).id = f.id} :
        Maintains (Frozen e vers) (change f g hg) fun _ => True :=
        maintains_change fun hid => absurd hid hne
      apply Maintains.fetch_bind
      intro _ desc _ _
      apply Maintains.fetch_bind
      intro _ tags _ _
      apply hc.bind
      intro _ _
      apply Maintains.query_bind
      intro _ _
      apply (maintains_addVersion hne).bind
      intro _ _
      exact hc.map

include hlo in
theorem maintains_createVersion (i : ℕ) (v : NewVersion) (act : Bool) :
    Maintains (Frozen e vers) (createVersion i v false act) fun _ => True := by
  apply Maintains.fetch_bind
  intro db f hdb hf
  apply Maintains.fetch_bind
  intro _ _ _ hc
  have hne : f.id ≠ e.id := hdb.ne_of_checkLock hlo hf hc
  apply Maintains.fetch_bind
  intro _ lang _ _
  apply Maintains.query_bind
  intro _ _
  apply Maintains.bind (maintains_addVersion ((getById_eq_ok hf).2.1 ▸ hne))
  intro row _
  exact Maintains.map (maintains_change fun hid => absurd hid hne)

include hlo in
theorem maintains_delete (now : Time) (i : ℕ) : Maintains (Frozen e vers) (delete now i false) fun _ => True := by
  apply Maintains.fetch_bind
  intro db f hdb hf
  apply Maintains.fetch_bind
  intro _ _ _ hc
  have hne : f.id ≠ e.id := hdb.ne_of_checkLock hlo hf hc
  exact maintains_change fun hid => absurd hid hne

theorem maintains_spared_update {i : ℕ} {desc tags safe trust : Json}
    (h : i = e.id → desc = .null ∧ tags = .null ∧ safe = .null ∧ trust = .null) :
    Maintains (Frozen e vers) (Functions.update i desc tags safe trust) fun _ => True := by
  refine maintains_update fun _ f d t p o hf hd ht hp ho => maintains_change fun hid by_ lat => ?_
  obtain ⟨rfl, rfl, rfl, rfl⟩ := h ((getById_eq_ok hf).2.1.symm.trans hid)
  cases hd
  cases ht
  cases hp
  cases ho
  exact ⟨by_, lat, rfl⟩

theorem maintains_setActiveVersion {i : ℕ} {ver : ℤ} (h : i = e.id → ver = e.activeVersion) :
    Maintains (Frozen e vers) (setActiveVersion i ver) fun _ => True := by
  apply Maintains.fetch_bind
  intro _ f _ hf
  apply Maintains.fetch_bind
  intro _ v _ hv
  apply Maintains.bind
  · apply maintains_change
    intro hid by_ lat
    have hve := h ((getById_eq_ok hf).2.1.symm.trans hid)
    have hn : v.version = e.activeVersion := Int.ofNat.inj ((mem_of_getVersion hv).2.2.trans hve)
    refine ⟨by_, lat, ?_⟩
    rw [hn]
  · intro _ _
    exact .pure trivial

include hlo in
theorem maintains_lockFunction (now : Time) (i by_ : ℕ) :
    Maintains (Frozen e vers) (lockFunction now i by_) fun _ => True := by
  apply Maintains.fetch_bind
  intro _ f _ _
  apply Maintains.bind
  · apply maintains_change
    intro _ _ _
    refine ⟨some by_, some now, ?_⟩
    rw [← hlo]
  · intro _ _
    exact .pure trivial

theorem maintains_unlockFunction {i : ℕ} (h : i ≠ e.id) :
    Maintains (Frozen e vers) (unlockFunction i) fun _ => True := by
  apply Maintains.fetch_bind
  intro _ f _ hf
  have hne : f.id ≠ e.id := (getById_eq_ok hf).2.1 ▸ h
  exact Maintains.map (maintains_change fun hid => absurd hid hne)

end Service

inductive Operation
  | service (call : FunctionCall)
  | tool (handler : CreateHandler) (call : FunctionTool)

def Operation.run (env : FunctionEnv) : Operation → DbSession Unit
  | .service call => call.run
  | .tool handler call => call.run env handler

def performOperation (env : FunctionEnv) (c : Scope × Operation) : DbSession Unit := inScope c.1 (c.2.run env)

def ByOthers (e : Function) : Operation → Prop
  | .service (.createVersion _ _ isAdmin _) => isAdmin = false
  | .service (.delete _ _ isAdmin) => isAdmin = false
  | .service (.unlockFunction i) => i ≠ e.id
  | _ => True

def Spares (e : Function) (db : Db) (scope : Scope) : Operation → Prop
  | .service (.update i description tags publicSafe outputTrust) =>
    i = e.id → description = .null ∧ tags = .null ∧ publicSafe = .null ∧ outputTrust = .null
  | .service (.setActiveVersion i version) => i = e.id → version = e.activeVersion
  | .tool handler (.updateFunction a) =>
    ∀ f, functionNamed handler a.service a.name db = .ok f → f.id = e.id →
      a.hasMetadata = false ∨ (scope = .rolledBack ∧ (a.restoreVersion.truthy || a.hasVersion) = true)
  | _ => True

variable {env : FunctionEnv} {hdl : CreateHandler}

theorem maintains_of_service (hloc : e.locked = true) (hlive : e.deletedAt = none) {call : FunctionCall} {sc : Scope}
    (ho : ByOthers e (.service call)) (hs : Spares e db sc (.service call)) :
    Maintains (Frozen e vers) call.run fun _ => True := by
  cases call with
  | create sid n => exact (maintains_create hlive sid n).map
  | createVersion i v adm act =>
    obtain rfl : adm = false := ho
    exact (maintains_createVersion hloc i v act).map
  | setActiveVersion i version => exact (maintains_setActiveVersion hs).map
  | update i desc tags safe trust => exact (maintains_spared_update hs).map
  | delete now i adm =>
    obtain rfl : adm = false := ho
    exact maintains_delete hloc now i
  | lockFunction now i by_ => exact (maintains_lockFunction hloc now i by_).map
  | unlockFunction i => exact (maintains_unlockFunction ho).map

theorem maintains_updateMetadata {fid : ℕ} (h : fid = e.id → a.hasMetadata = false) :
    Maintains (Frozen e vers) (updateMetadata fid a) fun _ => True := by
  unfold updateMetadata
  split
  · rename_i hm
    have hne : fid ≠ e.id := fun hid => by rw [h hid] at hm; cases hm
    exact Maintains.map (maintains_spared_update fun hid => absurd hid hne)
  · exact .pure trivial

theorem maintains_updateVersion (hloc : e.locked = true) (fid : ℕ) (a : UpdateArgs) (vd : List String) :
    Maintains (Frozen e vers) (updateVersion fid a vd) fun _ => True := by
  unfold updateVersion
  split
  · apply Maintains.fetch_bind
    intro _ no _ _
    apply Maintains.fetch_bind
    intro _ old _ _
    exact (maintains_createVersion hloc fid _ true).map
  · split
    · apply Maintains.fetch_bind
      intro _ act _ _
      exact (maintains_createVersion hloc fid _ true).map
    · exact .pure trivial

theorem updateFunction_frozen (hloc : e.locked = true) (hdb : Frozen e vers db)
    (h : ∀ f, functionNamed hdl a.service a.name db = .ok f → f.id = e.id → a.hasMetadata = false) :
    Wp (updateFunction hdl a) (fun _ => Frozen e vers) (fun _ => Frozen e vers) db := by
  apply Wp.fetch_bind (fun _ _ => hdb)
  intro f hf
  apply Wp.query_bind
  refine (Wp.of_maintains (maintains_whenChecked fun vd _ => ?_) hdb).mono (fun _ _ h => h.1) fun _ _ h => h
  apply (maintains_updateMetadata (h f hf)).bind
  intro _ _
  apply (maintains_updateVersion hloc f.id a vd).bind
  intro msg _
  apply Maintains.fetch_bind
  intro _ g _ _
  exact .pure trivial

def Locked (functionId : ℕ) (db : Db) : Prop := ∃ f, db.functions.get? functionId = some f ∧ f.locked = true

theorem Frozen.locked (h : Frozen e vers db) (hloc : e.locked = true) : Locked e.id db := by
  obtain ⟨_, _, hr⟩ := h.row
  exact ⟨_, hr, hloc⟩

theorem createVersion_refused (h : Locked i db) (v : NewVersion) {E : ApiError → Db → Prop}
    (hE : ∀ error db', E error db')
    {Q : FunctionVersion → Db → Prop} : Wp (createVersion i v) Q E db := by
  obtain ⟨f, hge, hloc⟩ := h
  apply Wp.fetch_bind
  · exact fun error _ => hE error db
  · intro g hg
    obtain ⟨hm, hid, -⟩ := getById_eq_ok hg
    obtain rfl : g = f := Option.some.inj ((Table.get?_eq_some.mpr ⟨hm, hid⟩).symm.trans hge)
    apply Wp.fetch_bind
    · exact fun error _ => hE error db
    · intro _ hc
      unfold checkLock at hc
      rw [if_pos ⟨hloc, rfl⟩] at hc
      cases hc

theorem updateVersion_refused (h : Locked i db) {vd : List String}
    (hv : (a.restoreVersion.truthy || a.hasVersion) = true) {Q : String → Db → Prop} :
    Wp (updateVersion i a vd) Q (fun _ _ => True) db := by
  unfold updateVersion
  split
  · apply Wp.fetch_bind (fun _ _ => trivial)
    intro no _
    apply Wp.fetch_bind (fun _ _ => trivial)
    intro old _
    exact Wp.bind (createVersion_refused h _ fun _ _ => trivial)
  · rename_i hr
    rw [if_pos (by simpa [hr] using hv)]
    apply Wp.fetch_bind (fun _ _ => trivial)
    intro act _
    exact Wp.bind (createVersion_refused h _ fun _ _ => trivial)

theorem maintains_locked_change {g : Function → Function} {hg : ∀ f, (g f).id = f.id}
    (h : ∀ f, (g f).locked = f.locked) : Maintains (Locked i) (change f g hg) fun _ => True := by
  apply Maintains.write _ trivial
  rintro db ⟨r, hge, hr⟩
  by_cases hid : f.id = i
  · refine ⟨g r, ?_, (h r).trans hr⟩
    change (db.functions.update f.id g hg).get? i = _
    rw [hid, Table.get?_update, hge]
    rfl
  · refine ⟨r, ?_, hr⟩
    change (db.functions.update f.id g hg).get? i = _
    rw [Table.get?_update_of_ne (Ne.symm hid)]
    exact hge

theorem updateFunction_refused (hloc : e.locked = true) (hdb : Frozen e vers db)
    (hv : (a.restoreVersion.truthy || a.hasVersion) = true)
    (h : ∀ f, functionNamed hdl a.service a.name db = .ok f → f.id = e.id) :
    Wp (updateFunction hdl a) (fun _ => Frozen e vers) (fun _ _ => True) db := by
  apply Wp.fetch_bind (fun _ _ => trivial)
  intro f hf
  apply Wp.query_bind
  unfold whenChecked
  split
  · rw [h f hf]
    apply Wp.bind
    have hl : Maintains (Locked e.id) (updateMetadata e.id a) fun _ => True :=
      maintains_metadata fun _ _ _ _ _ => maintains_locked_change fun _ => rfl
    apply (Wp.of_maintains hl (hdb.locked hloc)).mono
    · rintro _ db' ⟨hd', -⟩
      exact Wp.bind (updateVersion_refused hd' hv)
    · exact fun _ _ _ => trivial
  · exact hdb
  · trivial

theorem frozen_of_rolledBack {m : DbSession Unit} (hdb : Frozen e vers db)
    (h : Wp m (fun _ => Frozen e vers) (fun _ _ => True) db) : Frozen e vers (inScope .rolledBack m db).2 := by
  unfold inScope
  rcases hm : m db with ⟨_ | _, db'⟩
  · exact hdb
  · exact h.of_ok hm

theorem frozen_step (hloc : e.locked = true) (hlive : e.deletedAt = none) {c : Scope × Operation}
    (hdb : Frozen e vers db)
    (ho : ByOthers e c.2) (hs : Spares e db c.1 c.2) : Frozen e vers (performOperation env c db).2 := by
  obtain ⟨scope, op⟩ := c
  cases op with
  | service call => exact inScope_snd scope ((maintains_of_service hloc hlive ho hs) db hdb).1 hdb
  | tool hdl call =>
    cases call with
    | makeFunction a =>
      have hma : Maintains (Frozen e vers) (makeFunction env hdl a) fun _ => True :=
        maintains_makeFunction fun sid n _ => maintains_create hlive sid n
      exact inScope_snd scope (hma.map db hdb).1 hdb
    | updateFunction a =>
      by_cases hn : ∀ f, functionNamed hdl a.service a.name db = .ok f → f.id = e.id → a.hasMetadata = false
      · exact inScope_snd scope (Wp.always (.bind (updateFunction_frozen hloc hdb hn))) hdb
      · push Not at hn
        obtain ⟨f, hf, hid, hme⟩ := hn
        rcases hs f hf hid with hno | ⟨rfl, hv⟩
        · exact absurd hno hme
        · apply frozen_of_rolledBack hdb
          exact Wp.bind (updateFunction_refused hloc hdb hv fun g hg => Except.ok.inj (hf.symm.trans hg) ▸ hid)
    | deleteFunction now service name =>
      have hd : Maintains (Frozen e vers) (deleteFunction now hdl service name) fun _ => True := by
        apply Maintains.fetch_bind
        intro _ f _ _
        exact (maintains_delete hloc now f.id).map
      exact inScope_snd scope (hd.map db hdb).1 hdb
    | importTree clone conflict call =>
      have him : Maintains (Frozen e vers) (call.run env.strftime hdl clone conflict) fun _ => True :=
        maintains_import (P := fun _ => True) (fun sid d _ => maintains_create hlive sid (newFunction d))
          (frozen_ofFunctions e vers) fun _ _ _ _ _ _ _ => trivial
      exact inScope_snd scope (him.map db hdb).1 hdb

/-- A locked function stays as it is, with all its versions, in every history in which callers without admin rights
spare it. -/
theorem locked_function_frozen (env : FunctionEnv) {db₀ : Db} (he : e ∈ db₀.functions.rows)
    (hlocked : e.locked = true)
    (hlive : e.deletedAt = none) {history : List ((Scope × Operation) × Except ApiError Unit)}
    (hrun : GuardedRun (performOperation env) (fun db c => ByOthers e c.2 ∧ Spares e db c.1 c.2) db₀ history db) :
    Frozen e (versionsWith db₀ e.id) db := by
  apply GuardedRun.invariant _ _ hrun
  · exact ⟨⟨e.lockedBy, e.lockedAt, Table.get?_eq_some.mpr ⟨he, rfl⟩⟩, rfl⟩
  · intro db c hdb hc
    exact frozen_step hlocked hlive hdb hc.1 hc.2

section Instances

def lockedSend : Function := { id := 1, serviceId := 1, name := .send, description := some "sends mail", locked := true }

def acmeLocked : Db := { acmeWithSend with functions := .single lockedSend }

def newCode : Scope × Operation :=
  (.answered, .tool owner (.updateFunction { service := .str "mail", name := .str "send", code := .str "new = 1" }))

def newDescription : Scope × Operation :=
  (.answered, .tool owner (.updateFunction { service := .str "mail", name := .str "send", description := .str "sends spam" }))

theorem new_code_refused :
    Frozen lockedSend (versionsWith acmeLocked 1) (performOperation plainFunctionEnv newCode acmeLocked).2 := by
  have hr : GuardedRun (performOperation plainFunctionEnv) (fun db c => ByOthers lockedSend c.2 ∧
    Spares lockedSend db c.1 c.2)
      acmeLocked _ (performOperation plainFunctionEnv newCode acmeLocked).2 :=
        .step newCode .nil ⟨trivial, fun _ _ _ => .inl rfl⟩
  exact locked_function_frozen plainFunctionEnv List.mem_cons_self rfl rfl hr

/-- A new description for it is written. -/
theorem new_description_written :
    ((performOperation plainFunctionEnv newDescription acmeLocked).2.functions.get? 1).map
      (fun f => (f.description, f.locked)) =
        some (some "sends spam", true) ∧
      ¬ Frozen lockedSend (versionsWith acmeLocked 1)
        (performOperation plainFunctionEnv newDescription acmeLocked).2 := by
  have hw : ((performOperation plainFunctionEnv newDescription acmeLocked).2.functions.get? 1).map
    (fun f => (f.description, f.locked)) =
      some (some "sends spam", true) := by decide +kernel
  refine ⟨hw, ?_⟩
  rintro ⟨⟨by_, lat, hr⟩, -⟩
  replace hr : (performOperation plainFunctionEnv newDescription acmeLocked).2.functions.get? 1 = _ := hr
  rw [hr] at hw
  have hd : some "sends mail" = some "sends spam" := congrArg Prod.fst (Option.some.inj hw)
  revert hd
  decide

end Instances

end McpworksApi.Create
