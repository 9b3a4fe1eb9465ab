import McpworksApi.Create.FunctionInvariants
import McpworksApi.Services.FunctionHistory

/-! The packages that versions ask for. `make_function` and `update_function` check requirements against the allow-list
of the function's language, and versions of a function share their language, so a restored version brings only what was
accepted before; but the imports store the requirements of a manifest as they are. -/

namespace McpworksApi.Create

open Models Py Services Services.Functions Services.GitImport Packages Session

/-- The requirements of every version are on the allowlist of its language. -/
structure Vetted (db : Db) : Prop where
  live : ∀ f ∈ db.functions.rows, f.deletedAt = none
  owned : ∀ v ∈ db.versions.rows, ∃ f ∈ db.functions.rows, f.id = v.functionId
  oneLanguage : ∀ v ∈ db.versions.rows, ∀ w ∈ db.versions.rows, v.functionId = w.functionId → v.language = w.language
  accepted : ∀ v ∈ db.versions.rows, ∀ r ∈ v.requirements.getD [], Accepted v.language r

theorem vetted_ofFunctions : OfFunctions Vetted := by
  intro db db' hf hv h
  refine ⟨?_, ?_, ?_, ?_⟩
  · rw [hf]
    exact h.live
  · rw [hf, hv]
    exact h.owned
  · rw [hv]
    exact h.oneLanguage
  · rw [hv]
    exact h.accepted

def AsksAccepted (v : NewVersion) : Prop :=
  ∀ language rs, validateLanguage v.language = .ok language →
    arrayColumn v.requirements = .ok (some rs) → ∀ r ∈ rs, Accepted language r

variable {db : Db}

variable {language : Language} {vd : List String} {f : Function} {n : NewFunction} {v : NewVersion}
  {a : UpdateArgs} {i : ℕ}

theorem addVersion_vetted (hdb : Vetted db) {fid ver : ℕ} (hf : ∃ f ∈ db.functions.rows, f.id = fid)
    (hla : ∀ language, validateLanguage v.language = .ok language →
      ∀ w ∈ db.versions.rows, w.functionId = fid → w.language = language)
    (ha : AsksAccepted v) : Wp (addVersion fid ver v) (fun _ => Vetted) (fun _ => Vetted) db := by
  apply Wp.fetch_bind
  · exact fun _ _ => hdb
  · intro row hro
    obtain ⟨hid, -, -, hl, -, -, -, -, hre, -⟩ := versionRow_eq_ok hro
    apply Wp.query_bind
    apply Wp.write_bind
    apply Wp.pure
    have hm {w : FunctionVersion} (hw : w ∈ (db.versions.insert fun i => { row with id := i }).rows) :
        w ∈ db.versions.rows ∨ w = { row with id := db.versions.freshId } := Table.mem_insert.mp hw
    have hn : ∀ w ∈ db.versions.rows, w.functionId = row.functionId → w.language = row.language := by
      rw [hid]
      exact hla row.language hl
    refine ⟨hdb.live, ?_, ?_, ?_⟩
    · intro w hw
      rcases hm hw with hw | rfl
      · exact hdb.owned w hw
      · rw [← hid] at hf
        exact hf
    · intro w hw u hu hwu
      rcases hm hw with hw | rfl <;> rcases hm hu with hu | rfl
      · exact hdb.oneLanguage w hw u hu hwu
      · exact hn w hw hwu
      · exact (hn u hu hwu.symm).symm
      · rfl
    · intro w hw r hr
      rcases hm hw with hw | rfl
      · exact hdb.accepted w hw r hr
      · change r ∈ row.requirements.getD [] at hr
        cases hrs : row.requirements with
        | none =>
          rw [hrs] at hr
          cases hr
        | some rs =>
          rw [hrs] at hr hre
          exact ha row.language rs hl hre r hr

theorem change_vetted (hdb : Vetted db) {g : Function → Function} {hg : ∀ f, (g f).id = f.id}
    (hl : ∀ f, f.deletedAt = none → (g f).deletedAt = none) :
      Vetted { db with functions := db.functions.update f.id g hg } where
  live h hh := by
    rcases Table.mem_update hg hh with ⟨hm, -⟩ | ⟨h₀, hm, -, rfl⟩
    · exact hdb.live h hm
    · exact hl h₀ (hdb.live h₀ hm)
  owned v hv := by
    obtain ⟨h, hm, hid⟩ := hdb.owned v hv
    refine ⟨if h.id = f.id then g h else h, List.mem_map.mpr ⟨h, hm, by simp [Row.id]⟩, ?_⟩
    split
    · exact (hg h).trans hid
    · exact hid
  oneLanguage := hdb.oneLanguage
  accepted := hdb.accepted

theorem createFresh_vetted (hdb : Vetted db) {sid : ℕ} {name : String} (ha : AsksAccepted n.toNewVersion) :
    Wp (createFresh sid name n) (fun _ => Vetted) (fun _ => Vetted) db := by
  apply Wp.fetch_bind (fun _ _ => hdb)
  intro row hr
  apply Wp.fetch_bind (fun _ _ => hdb)
  intro _ _
  apply Wp.query_bind
  apply Wp.write_bind
  obtain ⟨-, -, -, hro, -⟩ := functionRow_eq_ok hr
  have hin : Vetted { db with functions := db.functions.insert fun i => { row with id := i } } := by
    refine ⟨?_, ?_, hdb.oneLanguage, hdb.accepted⟩
    · intro f hf
      rcases Table.mem_insert.mp hf with hf | rfl
      · exact hdb.live f hf
      · exact hro
    · intro v hv
      obtain ⟨f, hf, hid⟩ := hdb.owned v hv
      exact ⟨f, List.mem_append_left _ hf, hid⟩
  apply Wp.bind
  apply addVersion_vetted hin _ _ ha
  · exact ⟨_, List.mem_append_right _ List.mem_cons_self, rfl⟩
  · -- no version has the key of the new function
    intro _ _ w hw hid
    obtain ⟨f, hf, hfi⟩ := hdb.owned w hw
    exact absurd (hfi.trans hid) (Table.freshId_ne hf)

theorem create_vetted (hdb : Vetted db) {sid : ℕ} (ha : AsksAccepted n.toNewVersion) :
    Wp (Functions.create sid n) (fun _ => Vetted) (fun _ => Vetted) db := by
  apply Wp.fetch_bind (fun _ _ => hdb)
  intro name _
  apply Wp.fetch_bind (fun _ _ => hdb)
  intro found hf
  cases found with
  | none => exact createFresh_vetted hdb ha
  | some f =>
    have hm := mem_of_scalarOneOrNone hf
    dsimp only
    rw [if_pos (hdb.live f (Table.mem_select.mp hm).1)]
    exact hdb

theorem createVersion_vetted (hdb : Vetted db)
    (ha : ∀ f language, getById db i = .ok f → inheritLanguage db f v.language = .ok language →
      AsksAccepted { v with language }) :
    Wp (createVersion i v) (fun _ => Vetted) (fun _ => Vetted) db := by
  apply Wp.fetch_bind (fun _ _ => hdb)
  intro f hf
  obtain ⟨hm, hid, -⟩ := getById_eq_ok hf
  apply Wp.fetch_bind (fun _ _ => hdb)
  intro _ _
  apply Wp.fetch_bind (fun _ _ => hdb)
  intro language hla
  apply Wp.query_bind
  apply Wp.bind
  apply (addVersion_vetted hdb ⟨f, hm, hid⟩ _ (ha f language hf hla)).mono
  · intro row db' hd'
    apply Wp.write_bind
    apply Wp.pure
    exact change_vetted hd' fun _ h => h
  · exact fun _ _ h => h
  · intro l hl w hw hwi
    rcases inheritLanguage_cases hla with hn | ⟨u, hu, huf, -, rfl⟩
    · exact absurd (hwi.trans hid.symm) (hn w hw)
    · obtain rfl : u.language = l := Except.ok.inj ((validateLanguage_text u.language).symm.trans hl)
      exact hdb.oneLanguage w hw u hu ((hwi.trans hid.symm).trans huf.symm)

theorem accepted_of_checkRequirements {reqs : Json}
    (h : checkRequirements reqs language = .ok vd) : ∀ r ∈ vd, Accepted language r := by
  obtain ⟨⟨kept, errs⟩, hva, h⟩ := bind_eq_ok.mp h
  have hk : validateRequirementsForLanguage reqs language = .ok (kept, errs) := by
    unfold orRaise at hva
    cases hv : validateRequirementsForLanguage reqs language with
    | error e =>
      rw [hv] at hva
      cases hva
    | ok r =>
      rw [hv] at hva
      exact congrArg Except.ok (Except.ok.inj hva)
  dsimp only at h
  split at h
  · cases h
    exact accepted_of_validate hk
  · cases h

theorem asksAccepted_of_checkMake {env : FunctionEnv} {a : MakeArgs} (h : checkMake env a = .ok n) :
    AsksAccepted n.toNewVersion := by
  obtain ⟨_, -, h⟩ := bind_eq_ok.mp h
  obtain ⟨⟨a', language⟩, -, h⟩ := bind_eq_ok.mp h
  obtain ⟨reqs, hr, h⟩ := bind_eq_ok.mp h
  obtain ⟨⟨renv, oenv⟩, -, h⟩ := bind_eq_ok.mp h
  obtain ⟨trust, -, h⟩ := bind_eq_ok.mp h
  obtain ⟨_, -, h⟩ := bind_eq_ok.mp h
  cases h
  intro l rs hl hrs
  obtain rfl : language = l := Except.ok.inj ((validateLanguage_text language).symm.trans hl)
  unfold newRequirements at hr
  split at hr
  · obtain ⟨vd, hv, h⟩ := bind_eq_ok.mp hr
    cases h
    obtain rfl : vd = rs := Option.some.inj (Except.ok.inj ((arrayColumn_texts vd).symm.trans hrs))
    exact accepted_of_checkRequirements hv
  · cases hr
    cases hrs

theorem Vetted.asksAccepted_of_old (hdb : Vetted db) {old : FunctionVersion} (ho : old ∈ db.versions.rows)
    (hf : old.functionId = f.id) {language : Json} (hla : inheritLanguage db f v.language = .ok language)
    (hv : ∀ rs, arrayColumn v.requirements = .ok (some rs) → ∀ r ∈ rs, Accepted old.language r) :
    AsksAccepted { v with language } := by
  intro l rs hl hrs
  rcases inheritLanguage_cases hla with hn | ⟨u, hu, huf, -, rfl⟩
  · exact absurd hf (hn old ho)
  · obtain rfl : u.language = l := Except.ok.inj ((validateLanguage_text u.language).symm.trans hl)
    rw [hdb.oneLanguage u hu old ho (huf.trans hf.symm)]
    exact hv rs hrs

theorem arrayColumn_arrayValue (l : Option (List String)) : arrayColumn (arrayValue l) = .ok l := by
  cases l with
  | none => rfl
  | some l => exact arrayColumn_texts l

theorem Vetted.accepted_arrayValue (hdb : Vetted db) {old : FunctionVersion}
    (ho : old ∈ db.versions.rows) {rs : List String}
    (hrs : arrayColumn (arrayValue old.requirements) = .ok (some rs)) : ∀ r ∈ rs, Accepted old.language r := by
  have hs : old.requirements = some rs := Except.ok.inj ((arrayColumn_arrayValue old.requirements).symm.trans hrs)
  intro r hr
  apply hdb.accepted old ho r
  rw [hs]
  exact hr

def ActiveIn (db : Db) (functionId : ℕ) (language : Language) : Prop :=
  ∀ number, (db.functions.get? functionId).map (·.activeVersion) = some number →
    ∀ v ∈ db.versions.rows, v.functionId = functionId → v.version = number → v.language = language

theorem Vetted.activeIn_languageOf (hdb : Vetted db) (hf : f ∈ db.functions.rows) :
    ActiveIn db f.id (languageOf db f) := by
  intro number hn v hv hid hve
  have hg : db.functions.get? f.id = some f := Table.get?_eq_some.mpr ⟨hf, rfl⟩
  rw [hg] at hn
  obtain rfl : f.activeVersion = number := Option.some.inj hn
  have hm : v ∈ db.versions.select (·.functionId = f.id) := Table.mem_select.mpr ⟨hv, by simpa using hid⟩
  unfold languageOf activeVersion
  cases hfi : (db.versions.select (·.functionId = f.id)).find? (·.version = f.activeVersion) with
  | none =>
    have hno := List.find?_eq_none.mp hfi v hm
    exact absurd (by simpa using hve) hno
  | some w =>
    have hw := List.mem_of_find?_eq_some hfi
    obtain ⟨hwr, hwi⟩ := Table.mem_select.mp hw
    have hwf : w.functionId = f.id := by simpa using hwi
    exact hdb.oneLanguage v hv w hwr (hid.trans hwf.symm)

theorem activeVersion_update {t : Table Function} {j : ℕ} {g : Function → Function} (hg : ∀ f, (g f).id = f.id)
    (h : ∀ f, (g f).activeVersion = f.activeVersion) :
    ((t.update i g hg).get? j).map (·.activeVersion) = (t.get? j).map (·.activeVersion) := by
  by_cases hij : j = i
  · subst hij
    rw [Table.get?_update]
    cases t.get? j with
    | none => rfl
    | some f => exact congrArg some (h f)
  · rw [Table.get?_update_of_ne hij]

theorem updateMetadata_vetted {fid : ℕ} (i : ℕ) (a : UpdateArgs) :
    Maintains (fun db => Vetted db ∧ ActiveIn db fid language) (updateMetadata i a) fun _ => True := by
  refine maintains_metadata fun f desc tags safe trust => .write ?_ trivial
  rintro db ⟨hdb, ha⟩
  refine ⟨change_vetted hdb fun _ h => h, ?_⟩
  intro no hn
  apply ha no
  exact (activeVersion_update (g := updated desc tags safe trust) (fun _ => rfl) fun _ => rfl).symm.trans hn

theorem mem_of_getActiveVersion {act : FunctionVersion} (h : getActiveVersion db i = .ok act) :
    ∃ f, db.functions.get? i = some f ∧ act ∈ db.versions.rows ∧ act.functionId = i ∧
      act.version = f.activeVersion := by
  obtain ⟨f, hf, h⟩ := bind_eq_ok.mp h
  obtain ⟨hm, hid, -⟩ := getById_eq_ok hf
  obtain ⟨ha, hfu, hv⟩ := mem_of_getVersion h
  exact ⟨f, Table.get?_eq_some.mpr ⟨hm, hid⟩, ha, hfu, Int.ofNat.inj hv⟩

theorem updateVersion_vetted (hdb : Vetted db) (ha : ActiveIn db i language) (hv : ∀ r ∈ vd, Accepted language r) :
    Wp (updateVersion i a vd) (fun _ => Vetted) (fun _ => Vetted) db := by
  unfold updateVersion
  split
  · apply Wp.fetch_bind (fun _ _ => hdb)
    intro no _
    apply Wp.fetch_bind (fun _ _ => hdb)
    intro old ho
    obtain ⟨hm, hid, -⟩ := mem_of_getVersion ho
    refine Wp.bind (createVersion_vetted hdb fun f l hf hl => ?_)
    exact hdb.asksAccepted_of_old hm (hid.trans (getById_eq_ok hf).2.1.symm) hl fun rs hrs =>
      hdb.accepted_arrayValue hm hrs
  · split
    · apply Wp.fetch_bind (fun _ _ => hdb)
      intro act hg
      obtain ⟨f₀, hge, hm, hid, hve⟩ := mem_of_getActiveVersion hg
      have hla : act.language = language := ha f₀.activeVersion (congrArg _ hge) act hm hid hve
      refine Wp.bind (createVersion_vetted hdb fun f l hf hl => ?_)
      apply hdb.asksAccepted_of_old hm (hid.trans (getById_eq_ok hf).2.1.symm) hl
      intro rs hrs
      -- requirements that are given were checked for the language of the active version
      replace hrs : arrayColumn (if isNone a.requirements then arrayValue act.requirements else
        texts vd) = .ok (some rs) := hrs
      split at hrs
      · exact hdb.accepted_arrayValue hm hrs
      · obtain rfl : vd = rs := Option.some.inj (Except.ok.inj ((arrayColumn_texts vd).symm.trans hrs))
        rw [hla]
        exact hv
    · exact hdb

theorem accepted_of_checkUpdate
    (h : checkUpdate a language = .ok vd) : ∀ r ∈ vd, Accepted language r := by
  obtain ⟨kept, hk, h⟩ := Models.bind_eq_ok.mp h
  obtain ⟨_, -, h⟩ := Models.bind_eq_ok.mp h
  obtain ⟨_, -, h⟩ := Models.bind_eq_ok.mp h
  obtain ⟨_, -, h⟩ := Models.bind_eq_ok.mp h
  cases h
  unfold givenRequirements at hk
  split at hk
  · cases hk
    exact nofun
  · exact accepted_of_checkRequirements hk

theorem mem_of_functionNamed {hdl : CreateHandler} {svc name : Json}
    (h : functionNamed hdl svc name db = .ok f) : f ∈ db.functions.rows := by
  obtain ⟨s, -, h⟩ := Models.bind_eq_ok.mp h
  obtain ⟨stored, -, h⟩ := Models.bind_eq_ok.mp h
  obtain ⟨found, hf, h⟩ := Models.bind_eq_ok.mp h
  cases found with
  | none => cases h
  | some g =>
    cases h
    have hm := mem_of_scalarOneOrNone hf
    exact (Table.mem_select.mp (List.mem_of_mem_filter hm)).1

theorem updateFunction_vetted (hdb : Vetted db) {hdl : CreateHandler} :
    Wp (updateFunction hdl a) (fun _ => Vetted) (fun _ => Vetted) db := by
  apply Wp.fetch_bind (fun _ _ => hdb)
  intro f hf
  have ha := hdb.activeIn_languageOf (mem_of_functionNamed hf)
  apply Wp.query_bind
  unfold whenChecked
  split
  · rename_i vd hc
    apply Wp.bind
    apply (Wp.of_maintains (updateMetadata_vetted f.id a) ⟨hdb, ha⟩).mono
    · rintro _ db₁ ⟨⟨hd₁, ha₁⟩, -⟩
      apply Wp.bind
      apply (updateVersion_vetted hd₁ ha₁ (accepted_of_checkUpdate hc)).mono
      · intro msg db₂ hd₂
        apply Wp.fetch_bind (fun _ _ => hd₂)
        intro g _
        exact hd₂
      · exact fun _ _ h => h
    · exact fun _ _ h => h.1
  · exact hdb
  · exact hdb

structure Request where
  scope : Scope
  handler : CreateHandler
  tool : FunctionTool

def performRequest (env : FunctionEnv) (r : Request) : DbSession Unit := inScope r.scope (r.tool.run env r.handler)

def AsksFine (r : Request) : Prop :=
  match r.tool with
  | .makeFunction _ | .updateFunction _ => True
  | .deleteFunction _ _ _ => False
  | .importTree clone _ call => ∀ c name es, clone = .ok c → call.manifest r.handler c = some (name, es) →
    ∀ e ∈ es, AsksAccepted (newFunction e.2).toNewVersion

theorem vetted_step {env : FunctionEnv} (hdb : Vetted db) {r : Request} (hr : AsksFine r) :
    Vetted (performRequest env r db).2 := by
  obtain ⟨scope, hdl, tool⟩ := r
  have hc (sid : ℕ) {n : NewFunction} (hn : AsksAccepted n.toNewVersion) :
      Maintains Vetted (Functions.create sid n) fun _ => True :=
    fun db hdb => ⟨(create_vetted hdb hn).always, fun _ _ => trivial⟩
  have hu {α : Type} {m : DbSession α} (hm : Vetted (m db).2) : Vetted ((do let _ ← m; pure ()) db).2 :=
    Maintains.bind_from (Q := fun _ => True) hm fun _ => .pure trivial
  refine inScope_snd (R := Vetted) scope ?_ hdb
  cases tool with
  | makeFunction a =>
    have hma : Maintains Vetted (makeFunction env hdl a) fun _ => True :=
      maintains_makeFunction fun sid n hn => hc sid (asksAccepted_of_checkMake hn)
    exact hu (hma db hdb).1
  | updateFunction a => exact hu (updateFunction_vetted hdb).always
  | deleteFunction now svc name => exact hr.elim
  | importTree clone conflict call =>
    have him : Maintains Vetted (call.run env.strftime hdl clone conflict) fun _ => True :=
      maintains_import (fun sid d hd => hc sid hd) vetted_ofFunctions hr
    exact hu (him db hdb).1

/-- In every state that is reached from one without functions, what the versions ask for is accepted. -/
theorem stored_requirements_accepted (env : FunctionEnv) {db₀ : Db}
    (hfunctions : db₀.functions.rows = []) (hversions : db₀.versions.rows = [])
    {history : List (Request × Except ApiError Unit)}
      (hrun : GuardedRun (performRequest env) (fun _ r => AsksFine r) db₀ history db) :
    ∀ v ∈ db.versions.rows, ∀ r ∈ v.requirements.getD [], Accepted v.language r := by
  have hve : Vetted db := by
    apply GuardedRun.invariant _ _ hrun
    · have hn : ∀ v, v ∉ db₀.versions.rows := by
        intro v hv
        rw [hversions] at hv
        cases hv
      refine ⟨?_, fun v hv => absurd hv (hn v), fun v hv => absurd hv (hn v), fun v hv => absurd hv (hn v)⟩
      intro f hf
      rw [hfunctions] at hf
      cases hf
    · intro db r hdb hr
      exact vetted_step hdb hr
  exact hve.accepted

section Instances

def acmeWithMail : Db := { emptyAcme with services := .single { id := 1, namespaceId := 1, name := .mail } }

def makeSend : Request where
  scope := .answered
  handler := owner
  tool := .makeFunction
    { service := .str "mail", name := .str "send", backend := .str "code_sandbox",
      code := .str "import yaml", requirements := texts ["YAML"],
      outputTrust := .str "prompt" }

theorem made_with_listed_package :
    (performRequest plainFunctionEnv makeSend acmeWithMail).2.versions.rows.map (·.requirements) = [some ["pyyaml"]] ∧
      ∀ v ∈ (performRequest plainFunctionEnv makeSend acmeWithMail).2.versions.rows,
        ∀ r ∈ v.requirements.getD [], Accepted v.language r := by
  have hr : GuardedRun (performRequest plainFunctionEnv) (fun _ r => AsksFine r) acmeWithMail _
      (performRequest plainFunctionEnv makeSend acmeWithMail).2 := .step makeSend .nil trivial
  exact ⟨by decide +kernel, stored_requirements_accepted plainFunctionEnv rfl rfl hr⟩

def cloneAsking (package : String) : Checkout where
  yaml := terseYaml
  root := .dir [(acme, .dir
    [(namespaceYaml, manifestFile acmeManifest),
      (services, .dir [(mail, .dir
        [(serviceYaml, manifestFile (.obj [])),
          (functions, .dir [(GitImport.send, .dir
            [(functionYaml, manifestFile (.obj [("spec", .obj [("requirements", texts [package])])])),
              (handlerPy, .file (.text "ours = 1"))])])])])])]
  directory := []

def importAsking (package : String) : Request where
  scope := .answered
  handler := owner
  tool := .importTree (.ok (cloneAsking package)) (.str "fail") (.ofService (.str "mail"))

/-- An import stores a package that is not in the list. -/
theorem import_stores_unlisted_package :
    ∃ v ∈ (performRequest plainFunctionEnv (importAsking "paramiko") emptyAcme).2.versions.rows,
      v.requirements = some ["paramiko"] ∧ ¬ Accepted v.language "paramiko" := by
  decide +kernel

end Instances

end McpworksApi.Create
