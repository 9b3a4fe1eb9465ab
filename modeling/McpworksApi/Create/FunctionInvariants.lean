import McpworksApi.Create.FunctionTools

/-! Invariants of functions and versions under the tools. A tool that creates functions keeps what the creation of
each of them keeps; beside that an import writes namespaces and services only. -/

namespace McpworksApi.Create

open Models Py Services Services.GitImport Session

variable {I : Db → Prop} {env : FunctionEnv} {hdl : CreateHandler}

theorem maintains_whenChecked {α : Type} {che : Except Stop α} {go : α → DbSession ToolResult}
    (hgo : ∀ a, che = .ok a → Maintains I (go a) fun _ => True) : Maintains I (whenChecked che go) fun _ => True := by
  unfold whenChecked
  split
  · exact hgo _ rfl
  · exact .pure trivial
  · exact .raise

theorem maintains_makeFunction {a : MakeArgs}
    (hcre : ∀ serviceId n, checkMake env a = .ok n → Maintains I (Functions.create serviceId n) fun _ => True) :
    Maintains I (makeFunction env hdl a) fun _ => True := by
  apply maintains_whenChecked
  intro n hn
  apply Maintains.fetch_bind
  intro db s _ _
  exact (hcre s.id n hn).map

theorem maintains_update {i : ℕ} {desc tags safe trust : Json}
    (h : ∀ db f d t p o, Functions.getById db i = .ok f → textColumn desc = .ok d → arrayColumn tags = .ok t →
      Functions.givenBool safe = .ok p → varcharColumn 10 trust = .ok o →
      Maintains I (Functions.change f (Functions.updated d t p o)) fun _ => True) :
    Maintains I (Functions.update i desc tags safe trust) fun _ => True := by
  refine .fetch_bind fun db f _ hf => .fetch_bind fun _ d _ hd => .fetch_bind fun _ t _ ht => ?_
  exact .fetch_bind fun _ p _ hp => .fetch_bind fun _ o _ ho => (h db f d t p o hf hd ht hp ho).map

theorem maintains_metadata {fid : ℕ} {a : UpdateArgs}
    (h : ∀ f d t p o, Maintains I (Functions.change f (Functions.updated d t p o)) fun _ => True) :
    Maintains I (updateMetadata fid a) fun _ => True := by
  unfold updateMetadata
  split
  · exact (maintains_update fun _ f d t p o _ _ _ _ _ => h f d t p o).map
  · exact .pure trivial

def OfFunctions (I : Db → Prop) : Prop := ∀ db db', db'.functions = db.functions →
    db'.versions = db.versions → I db → I db'

theorem maintains_createService (hI : OfFunctions I) {nid : ℕ} {name : String} {desc : Json} :
    Maintains I (ServiceService.create nid name desc) fun _ => True := by
  refine .fetch_bind fun _ _ _ _ => .fetch_bind fun _ _ _ _ => .fetch_bind fun _ _ _ _ => .query_bind fun _ _ => ?_
  exact .write_bind (fun db hdb => hI db _ rfl rfl hdb) (.pure trivial)

theorem maintains_targetNamespace (hI : OfFunctions I) {fmt : Time → String} {fail : Bool} {nsn desc : Json} :
    Maintains I (targetNamespace fmt hdl fail nsn desc) fun _ => True := by
  apply Maintains.fetch_bind
  intro _ name _ _
  apply Maintains.fetch_bind
  intro _ found _ _
  cases found with
  | none => exact Namespaces.create_maintains fun db _ => hI db _ rfl rfl
  | some n =>
    cases fail
    · exact .pure trivial
    · exact .raise

theorem maintains_targetService (hI : OfFunctions I) {fail : Bool} {nid : ℕ} {data : ServiceData} :
    Maintains I (targetService fail nid data) fun _ => True := by
  apply Maintains.fetch_bind
  intro _ name _ _
  apply Maintains.fetch_bind
  intro _ found _ _
  cases found with
  | none => exact maintains_createService hI
  | some s =>
    cases fail
    · exact .pure trivial
    · exact .raise

section Import

variable {P : FunctionData → Prop} (hcr : ∀ serviceId d, P d →
    Maintains I (Functions.create serviceId (newFunction d)) fun _ => True)

include hcr

theorem maintains_importFunctions {fail : Bool} {serviceId : ℕ} {ds : List FunctionData} (hds : ∀ d ∈ ds, P d) :
    Maintains I (importFunctions fail serviceId ds) fun _ => True := by
  induction ds with
  | nil => exact .pure trivial
  | cons d ds ih =>
    have ho : Maintains I (importFunction fail serviceId d) fun _ => True := by
      apply Maintains.handle
      · exact (hcr serviceId d (hds d List.mem_cons_self)).map
      · intro e
        split
        · exact .pure trivial
        · exact .raise
    apply ho.bind
    intro count _
    exact (ih fun d hd => hds d (List.mem_cons_of_mem _ hd)).map

theorem maintains_importServices (hI : OfFunctions I) {fail : Bool} {nid : ℕ} {svcs : List ServiceData}
    (hs : ∀ e ∈ entries svcs, P e.2) : Maintains I (importServices fail nid svcs) fun _ => True := by
  induction svcs with
  | nil => exact .pure trivial
  | cons data rest ih =>
    have hda : ∀ d ∈ data.functions, P d := fun d hd => hs (data.name, d) (by simp [entries, hd])
    have hr : ∀ e ∈ entries rest, P e.2 := fun e he => hs e (by
      rw [entries, List.flatMap_cons]
      exact List.mem_append_right _ he)
    apply (maintains_targetService hI).bind
    intro s _
    apply (maintains_importFunctions hcr hda).bind
    intro functions _
    exact (ih hr).map

theorem maintains_import (hI : OfFunctions I) {fmt : Time → String} {clone : Except ApiError Checkout} {con : Json}
    {call : ImportCall}
    (hm : ∀ c name es, clone = .ok c → call.manifest hdl c = some (name, es) → ∀ e ∈ es, P e.2) :
    Maintains I (call.run fmt hdl clone con) fun _ => True := by
  cases call with
  | ofNamespace name =>
    apply Maintains.fetch_bind
    intro _ c _ hc
    rcases hp : (validateAndParse c {}).1 with (errors | e) | parsed
    · exact .pure trivial
    · exact .raise
    · have hes : ∀ e ∈ entries parsed.services, P e.2 := by
        apply hm c (name.orElse parsed.name) _ hc
        simp only [ImportCall.manifest, hp, Except.toOption, Option.map_some]
      apply (maintains_targetNamespace hI).bind
      intro n _
      exact (maintains_importServices hcr hI hes).map
  | ofService svc =>
    apply Maintains.fetch_bind
    intro _ n _ _
    apply Maintains.fetch_bind
    intro _ c _ hc
    rcases hp : parseServiceArgument c svc with (errors | e) | data
    · exact .pure trivial
    · exact .raise
    · have hes : ∀ e ∈ entries [data], P e.2 := by
        apply hm c (.str hdl.namespaceName) _ hc
        simp only [ImportCall.manifest, hp, Except.toOption, Option.map_some]
      apply (maintains_targetService hI).bind
      intro s _
      have hda : ∀ d ∈ data.functions, P d := fun d hd => hes (data.name, d) (by simp [entries, hd])
      exact (maintains_importFunctions hcr hda).map

end Import

end McpworksApi.Create
