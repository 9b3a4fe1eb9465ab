import McpworksApi.Models.Columns
import McpworksApi.Models.Servers
import McpworksApi.Store.FirstFree

/-! The extractor for OpenAPI and Swagger documents, `core/openapi_import.py`. Operations get their ids in the order of
the document, and an id that is taken is given a number, so that the ids of the endpoints are distinct but depend on
the order. -/

namespace McpworksApi.OpenApi

open Models Py

inductive SpecError
  | openApiImport (message : String)
  | other (e : ApiError)

def httpMethods : List HttpMethod := [.get, .put, .post, .delete, .patch, .head, .options]

def methodKey : HttpMethod → String
  | .get => "get"
  | .put => "put"
  | .post => "post"
  | .delete => "delete"
  | .patch => "patch"
  | .head => "head"
  | .options => "options"

def maxEndpointsPerServer : ℕ := 1000

structure ImportedEndpoint where
  operationId : String
  method : HttpMethod
  path : String
  summary : Json := .null
  paramSchema : Json := .obj []
  requestBodySchema : Json := .null
  responseSchema : Json := .null

structure ImportResult where
  endpoints : List ImportedEndpoint
  totalDiscovered : ℕ
  truncated : Bool

structure SpecEnv where
  loads : String → Except JsonError Json
  safeLoad : String → Except YamlError Json
  fetchSpecText : String → Except ApiError String

def yamlErrorText : YamlError → String
  | .invalid message => message
  | .other e => e.text

def parseSpec (env : SpecEnv) (text : String) : Except SpecError Args :=
  let text := strip text
  if text = "" then .error (.openApiImport "empty spec document")
  else do
    let doc ← match env.loads text with
      | .ok doc => .ok doc
      | .error .jsonDecodeError =>
        match env.safeLoad text with
        | .ok doc => .ok doc
        | .error e => .error (.openApiImport ("could not parse spec as JSON or YAML: " ++ yamlErrorText e))
      | .error (.other e) => .error (.other e)
    match doc with
    | .obj fields => .ok fields
    | _ => .error (.openApiImport "spec document is not a mapping")

def replaceRuns (p : Char → Bool) : Bool → List Char → List Char
  | _, [] => []
  | inRun, c :: l =>
    if p c then if inRun then replaceRuns p true l else '_' :: replaceRuns p true l
    else c :: replaceRuns p false l

def isSlugChar (c : Char) : Bool := ('a' ≤ c ∧ c ≤ 'z') ∨ ('0' ≤ c ∧ c ≤ '9') ∨ c = '_'

def slug (text : String) : String :=
  let l := replaceRuns (fun c => !isSlugChar c) false (lower text).toList
  let l := replaceRuns (· = '_') false l
  let s := String.ofList ((l.dropWhile (· = '_')).reverse.dropWhile (· = '_')).reverse
  if s = "" then "op" else s

def deriveOperationId (method : HttpMethod) (path : String) : String := slug (methodKey method ++ "_" ++ path)

def candidateId (opId : String) : ℕ → String
  | 0 => opId
  | n + 1 => opId ++ "_" ++ toString (n + 2)

theorem candidateId_injective (opId : String) : Function.Injective (candidateId opId) := by
  have hs (n : ℕ) : opId ++ "_" ++ toString (n + 2) ≠ opId := by
    intro h
    have hle := congrArg String.length h
    have ho : "_".length = 1 := by decide
    simp only [String.length_append] at hle
    omega
  intro m n h
  cases m with
  | zero =>
    cases n with
    | zero => rfl
    | succ n => exact absurd h.symm (hs n)
  | succ m =>
    cases n with
    | zero => exact absurd h (hs m)
    | succ n =>
      have hl := congrArg String.toList h
      simp only [candidateId, String.toList_append, List.append_assoc] at hl
      have hn := toString_injective (String.toList_injective
        (List.append_cancel_left (List.append_cancel_left hl)))
      omega

def resolveRef (ref : String) (root : Args) : Option Json :=
  if startsWith ref "#/" then
    ((ref.toList.drop 2).splitOn '/').foldlM (fun node part =>
      match node with
      | .obj fields => Args.get? fields (replace (replace (String.ofList part) "~1" "/") "~0" "~")
      | _ => none) (.obj root)
  else none

def maxRefDepth : ℕ := 32

def derefFrom (root : Args) : ℕ → Json → Json
  | 0, _ => .obj []
  | depth + 1, node =>
    match node with
    | .obj fields =>
      match Args.get? fields "$ref" with
      | some (.str ref) =>
        match resolveRef ref root with
        | none | some .null => .obj []
        | some resolved => derefFrom root depth resolved
      | _ => .obj (fields.map fun e => (e.1, derefFrom root depth e.2))
    | .arr items => .arr (items.map (derefFrom root depth))
    | node => node

def deref (root : Args) (node : Json) : Json := derefFrom root (maxRefDepth + 1) node

inductive Location
  | path
  | query
  | header

def Location.ofJson : Json → Option Location
  | .str "path" => some .path
  | .str "query" => some .query
  | .str "header" => some .header
  | _ => none

structure Bucket where
  properties : Args := []
  required : List Json := []

def Bucket.schema (b : Bucket) : Json :=
  .obj ([("type", .str "object"), ("properties", .obj b.properties)] ++
    if b.required.isEmpty then [] else [("required", .arr b.required)])

structure Buckets where
  path : Bucket := {}
  query : Bucket := {}
  header : Bucket := {}
  bodySchema : Json := .null

def Buckets.update (b : Buckets) (f : Bucket → Bucket) : Location → Buckets
  | .path => { b with path := f b.path }
  | .query => { b with query := f b.query }
  | .header => { b with header := f b.header }

def Buckets.schema (b : Buckets) : Json :=
  .obj [("path", b.path.schema), ("query", b.query.schema), ("header", b.header.schema)]

def plainText : Json := .obj [("type", .str "string")]

def swagger2ParamProperty (param : Args) : Json :=
  let prop := ["type", "format", "items", "enum", "description", "default"].filterMap fun key =>
    (Args.get? param key).map fun value => (key, value)
  (Json.obj prop).orElse plainText

def propertyKey : Json → Except SpecError String
  | .str s => .ok s
  | .arr _ => .error (.other (.py .typeError "unhashable type: 'list'"))
  | .obj _ => .error (.other (.py .typeError "unhashable type: 'dict'"))
  | j => .ok j.dumps

def addParameter (root : Args) (isSwagger2 : Bool) (b : Buckets) (raw : Json) : Except SpecError Buckets :=
  match deref root raw with
  | .obj param =>
    match Args.get? param "in" with
    | some (.str "body") => .ok { b with bodySchema := (Args.get? param "schema").getD (.obj []) }
    | location =>
      match location.bind Location.ofJson, (Args.get? param "name").getD .null with
      | none, _ => .ok b
      | some location, name =>
        if name.truthy then do
          let prop :=
            if isSwagger2 then swagger2ParamProperty param else (Args.get? param "schema").getD plainText
          let key ← propertyKey name
          let required := ((Args.get? param "required").getD .null).truthy
          .ok (b.update (fun bucket =>
            { properties := bucket.properties.set key prop
              required := if required then bucket.required ++ [name] else bucket.required }) location)
        else .ok b
  | _ => .ok b

def bucketParameters (parameters : List Json) (root : Args) (isSwagger2 : Bool) : Except SpecError Buckets :=
  parameters.foldlM (addParameter root isSwagger2) {}

def schemaOf : Json → Option Json
  | .obj media =>
    match Args.get? media "schema" with
    | some (.obj fields) => some (.obj fields)
    | _ => none
  | _ => none

def extractRequestBody (operation : Args) : Json :=
  match Args.get? operation "requestBody" with
  | some (.obj body) =>
    match (Args.get? body "content").getD (.obj []) with
    | .obj content =>
      (("application/json" :: content.map Prod.fst).findSome? fun mime =>
        (Args.get? content mime).bind schemaOf).getD .null
    | _ => .null
  | _ => .null

def responseSchemaOf : Json → Option Json
  | .obj response =>
    (schemaOf (.obj response)).or
      (match Args.get? response "content" with
      | some (.obj content) => content.findSome? fun media => schemaOf media.2
      | _ => none)
  | _ => none

def extractResponseSchema (operation : Args) : Json :=
  match (Args.get? operation "responses").getD (.obj []) with
  | .obj responses =>
    ((["200", "201", "2XX", "default"] ++ responses.map Prod.fst).findSome? fun code =>
      (Args.get? responses code).bind responseSchemaOf).getD .null
  | _ => .null

def listOf : Json → Except SpecError (List Json)
  | .arr items => .ok items
  | .obj fields => .ok (fields.map fun e => .str e.1)
  | .str s => .ok (s.toList.map fun c => .str (String.ofList [c]))
  | j => .error (.other (.py .typeError ("'" ++ j.typeName ++ "' object is not iterable")))

def getOr (fields : Args) (key : String) (default : Json) : Json := ((Args.get? fields key).getD .null).orElse default

def isSwagger2 (spec : Args) : Bool :=
  match Args.get? spec "swagger" with
  | some (.str s) => startsWith s "2"
  | some (.int n) => startsWith (toString n) "2"
  | some (.float text) => startsWith text "2"
  | _ => false

structure Extraction where
  endpoints : List ImportedEndpoint := []
  seenIds : List String := []
  total : ℕ := 0

def requestedId (method : HttpMethod) (path : String) (operation : Args) : Except SpecError String :=
  let raw := (Args.get? operation "operationId").getD .null
  if raw.truthy then
    match asName raw with
    | .ok s => .ok (slug s)
    | .error e => .error (.other e)
  else .ok (deriveOperationId method path)

def importOperation (spec : Args) (ceiling : ℕ) (path : String) (sharedParams : Json) (method : HttpMethod)
    (operation : Args) (x : Extraction) : Except SpecError Extraction :=
  if ceiling ≤ x.endpoints.length then .ok { x with total := x.total + 1 }
  else do
    let opId ← requestedId method path operation
    let candidate := firstFree (candidateId opId) x.seenIds
    let shared ← listOf sharedParams
    let own ← listOf (getOr operation "parameters" (.arr []))
    let buckets ← bucketParameters (shared ++ own) spec (isSwagger2 spec)
    let requestBody := if isSwagger2 spec then buckets.bodySchema else extractRequestBody operation
    let endpoint : ImportedEndpoint :=
      { operationId := candidate, method, path
        summary := getOr operation "summary" (getOr operation "description" .null)
        paramSchema := buckets.schema
        requestBodySchema := if requestBody.truthy then deref spec requestBody else .null
        responseSchema := extractResponseSchema operation }
    .ok { endpoints := x.endpoints ++ [endpoint], seenIds := candidate :: x.seenIds, total := x.total + 1 }

def importPath (spec : Args) (ceiling : ℕ) (x : Extraction) (entry : String × Json) : Except SpecError Extraction :=
  match entry.2 with
  | .obj pathItem =>
    httpMethods.foldlM (fun x method =>
      match Args.get? pathItem (methodKey method) with
      | some (.obj operation) =>
        importOperation spec ceiling entry.1 (getOr pathItem "parameters" (.arr [])) method operation x
      | _ => .ok x) x
  | _ => .ok x

def extractEndpoints (spec : Args) (ceiling : ℕ) : Except SpecError ImportResult :=
  match Args.get? spec "paths" with
  | some (.obj (entry :: paths)) => do
    let x ← (entry :: paths).foldlM (importPath spec ceiling) {}
    if x.total = 0 then .error (.openApiImport "spec 'paths' contains no operations")
    else .ok { endpoints := x.endpoints, totalDiscovered := x.total, truncated := x.endpoints.length < x.total }
  | _ => .error (.openApiImport "spec has no 'paths'")

structure Extraction.Distinct (x : Extraction) : Prop where
  seen : x.seenIds = (x.endpoints.map ImportedEndpoint.operationId).reverse
  nodup : x.seenIds.Nodup

/-- An operation of the document, with the path item that it stands in. -/
structure Operation where
  path : String
  pathItem : Args
  method : HttpMethod
  fields : Args

def operationsIn (entry : String × Json) : List Operation :=
  match entry.2 with
  | .obj pathItem => httpMethods.filterMap fun method =>
    match Args.get? pathItem (methodKey method) with
    | some (.obj fields) => some ⟨entry.1, pathItem, method, fields⟩
    | _ => none
  | _ => []

/-- The operations in the order of the document. -/
def operationsOf (spec : Args) : List Operation :=
  match Args.get? spec "paths" with
  | some (.obj paths) => paths.flatMap operationsIn
  | _ => []

structure Describes (e : ImportedEndpoint) (o : Operation) : Prop where
  path : e.path = o.path
  method : e.method = o.method
  operationId : ∃ opId n, requestedId o.method o.path o.fields = .ok opId ∧ e.operationId = candidateId opId n

structure Extraction.Of (ceiling : ℕ) (done : List Operation) (x : Extraction) : Prop extends x.Distinct where
  endpoints : List.Forall₂ Describes x.endpoints (done.take ceiling)
  total : x.total = done.length

variable {spec : Args} {ceiling : ℕ} {x x' : Extraction} {done : List Operation}

theorem importOperation_of {o : Operation} {shared : Json} (hx : x.Of ceiling done)
    (h : importOperation spec ceiling o.path shared o.method o.fields x = .ok x') : x'.Of ceiling (done ++ [o]) := by
  have hl := hx.endpoints.length_eq
  rw [List.length_take] at hl
  have ht : x.total + 1 = (done ++ [o]).length := by simp [hx.total]
  unfold importOperation at h
  split at h
  · cases h
    refine ⟨⟨hx.seen, hx.nodup⟩, ?_, ht⟩
    rw [List.take_append_of_le_length (by omega)]
    exact hx.endpoints
  · obtain ⟨opId, hid, h⟩ := bind_eq_ok.mp h
    obtain ⟨_, -, h⟩ := bind_eq_ok.mp h
    obtain ⟨_, -, h⟩ := bind_eq_ok.mp h
    obtain ⟨_, -, h⟩ := bind_eq_ok.mp h
    cases h
    obtain ⟨n, -, hn, -⟩ := firstFree_eq (candidateId_injective opId) x.seenIds
    have hf := firstFree_not_mem (candidateId_injective opId) x.seenIds
    refine ⟨⟨by simp [hx.seen], List.nodup_cons.mpr ⟨hf, hx.nodup⟩⟩, ?_, ht⟩
    have hd := hx.endpoints
    rw [List.take_of_length_le (by omega)] at hd
    rw [List.take_of_length_le (by simp; omega)]
    exact List.rel_append hd (.cons ⟨rfl, rfl, opId, n, hid, hn⟩ .nil)

theorem foldlM_traces {ε α β : Type} {f : β → α → Except ε β} {I : List α → β → Prop}
    (hs : ∀ done b a b', I done b → f b a = .ok b' → I (done ++ [a]) b') {l d : List α} {b b' : β} (hb : I d b)
    (h : l.foldlM f b = .ok b') : I (d ++ l) b' := by
  induction l generalizing b d with
  | nil =>
    cases h
    rwa [List.append_nil]
  | cons a l ih =>
    rw [List.foldlM_cons] at h
    obtain ⟨c, hc, h⟩ := bind_eq_ok.mp h
    have := ih (hs d b a c hb hc) h
    rwa [List.append_assoc] at this

theorem importPath_eq (x : Extraction) (entry : String × Json) :
    importPath spec ceiling x entry = (operationsIn entry).foldlM (fun x o =>
      importOperation spec ceiling o.path (getOr o.pathItem "parameters" (.arr [])) o.method o.fields x) x := by
  unfold importPath operationsIn
  split
  · rw [List.foldlM_filterMap]
    congr 1
    funext x method
    split <;> rfl
  · rfl

theorem extractEndpoints_of {r : ImportResult} (h : extractEndpoints spec ceiling = .ok r) :
    ∃ x : Extraction, x.Of ceiling (operationsOf spec) ∧
      r = { endpoints := x.endpoints, totalDiscovered := x.total, truncated := x.endpoints.length < x.total } := by
  unfold extractEndpoints at h
  split at h
  · rename_i entry paths hp
    obtain ⟨x, hx, h⟩ := bind_eq_ok.mp h
    split at h
    · cases h
    · cases h
      refine ⟨x, ?_, rfl⟩
      rw [operationsOf, hp]
      refine foldlM_traces (I := fun done x => x.Of ceiling (done.flatMap operationsIn)) (d := [])
        (fun done x entry x' hx h => ?_) ⟨⟨rfl, List.nodup_nil⟩, by simp, rfl⟩ hx
      rw [importPath_eq] at h
      rw [List.flatMap_append, List.flatMap_singleton]
      exact foldlM_traces (fun _ _ _ _ => importOperation_of) hx h
  · cases h

theorem extractEndpoints_nodup {r : ImportResult}
    (h : extractEndpoints spec ceiling = .ok r) : (r.endpoints.map ImportedEndpoint.operationId).Nodup := by
  obtain ⟨x, hx, rfl⟩ := extractEndpoints_of h
  have hn := hx.nodup
  rwa [hx.seen, List.nodup_reverse] at hn

theorem mem_replaceRuns {p : Char → Bool} {inRun : Bool} {l : List Char} {c : Char} (h : c ∈ replaceRuns p inRun l) :
    c = '_' ∨ c ∈ l ∧ p c = false := by
  induction l generalizing inRun with
  | nil => cases h
  | cons d l ih =>
    rw [replaceRuns] at h
    split_ifs at h with hd hr
    · exact (ih h).imp_right fun h => ⟨List.mem_cons_of_mem _ h.1, h.2⟩
    · rcases List.mem_cons.mp h with h | h
      · exact .inl h
      · exact (ih h).imp_right fun h => ⟨List.mem_cons_of_mem _ h.1, h.2⟩
    · rcases List.mem_cons.mp h with rfl | h
      · exact .inr ⟨List.mem_cons_self, by simpa using hd⟩
      · exact (ih h).imp_right fun h => ⟨List.mem_cons_of_mem _ h.1, h.2⟩

/-- The lower-case letters, digits and underscores, of which there is at least one. -/
def IsSlug (s : String) : Prop := s ≠ "" ∧ ∀ c ∈ s.toList, isSlugChar c = true

theorem isSlug_slug (text : String) : IsSlug (slug text) := by
  unfold slug
  dsimp only
  split_ifs with h
  · exact ⟨by decide, List.all_eq_true.mp (by decide)⟩
  · refine ⟨h, fun c hc => ?_⟩
    rw [String.toList_ofList, List.mem_reverse] at hc
    have hm := (List.dropWhile_sublist _).subset hc
    rw [List.mem_reverse] at hm
    rcases mem_replaceRuns ((List.dropWhile_sublist _).subset hm) with rfl | ⟨hm, -⟩
    · decide
    · rcases mem_replaceRuns hm with rfl | ⟨-, hm⟩
      · decide
      · simpa using hm

theorem isSlug_requestedId {method : HttpMethod} {path opId : String} {operation : Args}
    (h : requestedId method path operation = .ok opId) : IsSlug opId := by
  unfold requestedId at h
  dsimp only at h
  split_ifs at h
  · split at h
    · exact Except.ok.inj h ▸ isSlug_slug _
    · cases h
  · exact Except.ok.inj h ▸ isSlug_slug _

theorem IsSlug.candidateId {opId : String} (h : IsSlug opId) (n : ℕ) : IsSlug (candidateId opId n) := by
  cases n with
  | zero => exact h
  | succ n =>
    refine ⟨fun he => h.1 (String.toList_injective ?_), fun c hc => ?_⟩
    · have := congrArg String.toList he
      simp [OpenApi.candidateId] at this
    · simp only [OpenApi.candidateId, String.toList_append, List.mem_append] at hc
      rcases hc with (hc | hc) | hc
      · exact h.2 c hc
      · rw [List.mem_singleton.mp hc]
        decide
      · rw [Nat.toString_eq_repr, Nat.toList_repr] at hc
        have hd := Nat.isDigit_of_mem_toDigits (by decide) (by decide) hc
        simp only [Char.isDigit, Bool.and_eq_true, decide_eq_true_eq] at hd
        exact decide_eq_true (.inr (.inl hd))

theorem isSlug_of_extracted {r : ImportResult} (h : extractEndpoints spec ceiling = .ok r) {e : ImportedEndpoint}
    (he : e ∈ r.endpoints) : IsSlug e.operationId := by
  obtain ⟨x, hx, rfl⟩ := extractEndpoints_of h
  obtain ⟨o, -, ho⟩ := exists_of_mem_left hx.endpoints he
  obtain ⟨opId, n, hid, hn⟩ := ho.operationId
  exact hn ▸ (isSlug_requestedId hid).candidateId n

/-- The endpoints are the first operations of the document under distinct ids, and all operations are counted; the
search for an id that is free ends. -/
theorem endpoints_extracted (spec : Args) (ceiling : ℕ) :
    (∀ r, extractEndpoints spec ceiling = .ok r →
      List.Forall₂ Describes r.endpoints ((operationsOf spec).take ceiling) ∧
      (r.endpoints.map ImportedEndpoint.operationId).Nodup ∧ (∀ e ∈ r.endpoints, IsSlug e.operationId) ∧
      r.totalDiscovered = (operationsOf spec).length ∧ (r.truncated = true ↔ ceiling < r.totalDiscovered)) ∧
    ∀ opId seen, ∃ n, firstFree (candidateId opId) seen = candidateId opId n ∧ candidateId opId n ∉ seen ∧
      ∀ m < n, candidateId opId m ∈ seen := by
  refine ⟨fun r h => ?_, fun opId seen => ?_⟩
  · have hn := extractEndpoints_nodup h
    have hs := fun e => isSlug_of_extracted h (e := e)
    obtain ⟨x, hx, rfl⟩ := extractEndpoints_of h
    refine ⟨hx.endpoints, hn, hs, hx.total, ?_⟩
    dsimp only
    rw [decide_eq_true_iff, hx.endpoints.length_eq, List.length_take, hx.total]
    omega
  · obtain ⟨n, hm, hn, hlt⟩ := firstFree_eq (candidateId_injective opId) seen
    exact ⟨n, hn, hm, hlt⟩

end McpworksApi.OpenApi
