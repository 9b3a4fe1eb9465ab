import McpworksApi.Services.Lookup

/-! `FunctionService`: how functions and their versions are written. A new function takes the row of a deleted one with
its name, if there is one, and then keeps that row's `public_safe` and `cache_policy`. -/

namespace McpworksApi.Services.Functions

open Models Py Session

structure NewVersion where
  backend : Json
  language : Json := .str "python"
  code : Json := .null
  config : Json := .null
  inputSchema : Json := .null
  outputSchema : Json := .null
  requirements : Json := .null
  requiredEnv : Json := .null
  optionalEnv : Json := .null
  createdBy : Json := .null

structure NewFunction extends NewVersion where
  name : Json
  description : Json := .null
  tags : Json := .null
  publicSafe : Json := .bool false
  outputTrust : String := "prompt"

def versionsOf (db : Db) (f : Function) : List FunctionVersion :=
  (db.versions.select (·.functionId = f.id)).insertionSort fun v w => w.version ≤ v.version

def nextVersion (db : Db) (f : Function) : ℕ :=
  ((db.versions.select (·.functionId = f.id)).map (·.version)).foldr max 0 + 1

def versionRow (functionId version : ℕ) (v : NewVersion) : Except ApiError FunctionVersion := do
  let backend ← validateBackend v.backend
  let language ← validateLanguage v.language
  let code ← textColumn v.code
  let requirements ← arrayColumn v.requirements
  let requiredEnv ← arrayColumn v.requiredEnv
  let optionalEnv ← arrayColumn v.optionalEnv
  let createdBy ← varcharColumn 100 v.createdBy
  pure
    { id := 0
      functionId
      version
      backend
      language
      code
      config := jsonColumn v.config
      inputSchema := jsonColumn v.inputSchema
      outputSchema := jsonColumn v.outputSchema
      requirements
      requiredEnv
      optionalEnv
      createdBy }

def addVersion (functionId version : ℕ) (v : NewVersion) : DbSession FunctionVersion := do
  let row ← fetch fun _ => versionRow functionId version v
  let i ← query (·.versions.freshId)
  write fun db => { db with versions := db.versions.insert fun i => { row with id := i } }
  pure { row with id := i }

def change (f : Function) (g : Function → Function) (hg : ∀ f, (g f).id = f.id := by intro; exact id rfl) :
    DbSession Unit :=
  write fun db => { db with functions := db.functions.update f.id g hg }

def functionRow (serviceId : ℕ) (name : String) (n : NewFunction) : Except ApiError Function := do
  let stored ← newName .slug "Function" (lower name)
  let description ← textColumn n.description
  let tags ← arrayColumn n.tags
  let publicSafe ← boolColumn n.publicSafe
  pure
    { id := 0
      serviceId
      name := stored
      description
      tags
      outputTrust := n.outputTrust
      activeVersion := 1
      publicSafe }

def checkService (db : Db) (serviceId : ℕ) : Except ApiError Unit :=
  if (db.services.get? serviceId).isSome then .ok ()
  else .error (.py .integrityError "insert on table functions violates foreign key constraint")

def createFresh (serviceId : ℕ) (name : String) (n : NewFunction) : DbSession Function := do
  let row ← fetch fun _ => functionRow serviceId name n
  fetch fun db => checkService db serviceId
  let i ← query (·.functions.freshId)
  write fun db => { db with functions := db.functions.insert fun i => { row with id := i } }
  let _ ← addVersion i 1 n.toNewVersion
  pure { row with id := i }

def revived (description : Option String) (tags : Option (List String)) (outputTrust : String) (f : Function) :
    Function :=
  { f with
    description
    tags
    outputTrust
    deletedAt := none
    locked := false
    lockedBy := none
    lockedAt := none }

def revive (f : Function) (n : NewFunction) : DbSession Function := do
  let description ← fetch fun _ => textColumn n.description
  let tags ← fetch fun _ => arrayColumn n.tags
  change f (revived description tags n.outputTrust)
  let next ← query fun db => nextVersion db f
  let _ ← addVersion f.id next n.toNewVersion
  change f fun g => { g with activeVersion := next }
  pure { revived description tags n.outputTrust f with activeVersion := next }

def rowsAt (db : Db) (serviceId : ℕ) (stored : String) : List Function :=
  db.functions.select fun f => f.serviceId = serviceId ∧ f.name.val = stored

def create (serviceId : ℕ) (n : NewFunction) : DbSession Function := do
  let name ← fetch fun _ => asName n.name
  match ← fetch fun db => scalarOneOrNone (rowsAt db serviceId (lower name)) with
  | none => createFresh serviceId name n
  | some f =>
    if f.deletedAt = none then
      raise (conflict ("Function '" ++ name ++ "' already exists in this service"))
    else revive f n

def getById (db : Db) (id : ℕ) : Except ApiError Function :=
  match (db.functions.get? id).filter (·.deletedAt = none) with
  | none => .error (notFound ("Function '" ++ toString id ++ "' not found"))
  | some f => .ok f

def getByName (db : Db) (serviceId : ℕ) (name : String) : Except ApiError Function := do
  match ← scalarOneOrNone ((rowsAt db serviceId (lower name)).filter (·.deletedAt = none)) with
  | none => .error (notFound ("Function '" ++ name ++ "' not found in service"))
  | some f => .ok f

def getVersion (db : Db) (functionId : ℕ) (version : ℤ) : Except ApiError FunctionVersion := do
  match ← scalarOneOrNone (db.versions.select fun v => v.functionId = functionId ∧ (v.version : ℤ) = version) with
  | none =>
    .error (notFound ("Version " ++ toString version ++ " not found for function '" ++ toString functionId ++ "'"))
  | some v => .ok v

def getActiveVersion (db : Db) (functionId : ℕ) : Except ApiError FunctionVersion := do
  let f ← getById db functionId
  getVersion db functionId f.activeVersion

def updated (description : Option String) (tags : Option (List String)) (publicSafe : Option Bool)
    (outputTrust : Option String) (f : Function) : Function :=
  { f with
    description := description.orElse fun _ => f.description
    tags := tags.orElse fun _ => f.tags
    publicSafe := publicSafe.getD f.publicSafe
    outputTrust := outputTrust.getD f.outputTrust }

def givenBool : Json → Except ApiError (Option Bool)
  | .null => .ok none
  | j => (boolColumn j).map some

def update (functionId : ℕ) (description tags publicSafe outputTrust : Json) : DbSession Function := do
  let f ← fetch fun db => getById db functionId
  let newDescription ← fetch fun _ => textColumn description
  let newTags ← fetch fun _ => arrayColumn tags
  let newPublicSafe ← fetch fun _ => givenBool publicSafe
  let newTrust ← fetch fun _ => varcharColumn 10 outputTrust
  change f (updated newDescription newTags newPublicSafe newTrust)
  pure (updated newDescription newTags newPublicSafe newTrust f)

def inheritLanguage (db : Db) (f : Function) (language : Json) : Except ApiError Json :=
  match (versionsOf db f).head?, language with
  | none, .null => .ok (.str "python")
  | none, l => .ok l
  | some v, .null => .ok (.str v.language.text)
  | some v, .str l =>
    if l = v.language.text then .ok (.str l)
    else .error (valueError ("Cannot change function language from '" ++ v.language.text ++ "' to '" ++ l ++ "'. " ++
      "Create a new function for a different language."))
  | some v, l =>
    .error (valueError ("Cannot change function language from '" ++ v.language.text ++ "' to '" ++ l.text ++ "'. " ++
      "Create a new function for a different language."))

def checkLock (f : Function) (isAdmin : Bool) (what : String) : Except ApiError Unit :=
  if f.locked ∧ !isAdmin then .error (.app .forbidden ("Function '" ++ f.name.val ++
    "' is locked and cannot be " ++ what))
  else .ok ()

def createVersion (functionId : ℕ) (v : NewVersion) (isAdmin : Bool := false) (activate : Bool := true) :
    DbSession FunctionVersion := do
  let f ← fetch fun db => getById db functionId
  fetch fun _ => checkLock f isAdmin "modified"
  let language ← fetch fun db => inheritLanguage db f v.language
  let next ← query fun db => nextVersion db f
  let row ← addVersion functionId next { v with language }
  change f fun g => { g with activeVersion := if activate then next else g.activeVersion }
  pure row

def setActiveVersion (functionId : ℕ) (version : ℤ) : DbSession Function := do
  let f ← fetch fun db => getById db functionId
  let v ← fetch fun db => getVersion db functionId version
  change f fun g => { g with activeVersion := v.version }
  pure { f with activeVersion := v.version }

def delete (now : Time) (functionId : ℕ) (isAdmin : Bool := false) : DbSession Unit := do
  let f ← fetch fun db => getById db functionId
  fetch fun _ => checkLock f isAdmin "deleted"
  change f fun g => { g with deletedAt := some now }

def lockFunction (now : Time) (functionId lockedBy : ℕ) : DbSession Function := do
  let f ← fetch fun db => getById db functionId
  change f fun g => { g with locked := true, lockedBy := some lockedBy, lockedAt := some now }
  pure { f with locked := true, lockedBy := some lockedBy, lockedAt := some now }

def unlockFunction (functionId : ℕ) : DbSession Function := do
  let f ← fetch fun db => getById db functionId
  change f fun g => { g with locked := false, lockedBy := none, lockedAt := none }
  pure { f with locked := false, lockedBy := none, lockedAt := none }

theorem versionRow_eq_ok {fid ver : ℕ} {n : NewVersion} {row : FunctionVersion}
    (h : versionRow fid ver n = .ok row) :
    row.functionId = fid ∧ row.version = ver ∧ validateBackend n.backend = .ok row.backend ∧
      validateLanguage n.language = .ok row.language ∧ textColumn n.code = .ok row.code ∧
      row.config = jsonColumn n.config ∧ row.inputSchema = jsonColumn n.inputSchema ∧
      row.outputSchema = jsonColumn n.outputSchema ∧ arrayColumn n.requirements = .ok row.requirements ∧
      arrayColumn n.requiredEnv = .ok row.requiredEnv ∧ arrayColumn n.optionalEnv = .ok row.optionalEnv := by
  obtain ⟨be, hb, h⟩ := bind_eq_ok.mp h
  obtain ⟨lang, hl, h⟩ := bind_eq_ok.mp h
  obtain ⟨code, hc, h⟩ := bind_eq_ok.mp h
  obtain ⟨reqs, hr, h⟩ := bind_eq_ok.mp h
  obtain ⟨renv, hre, h⟩ := bind_eq_ok.mp h
  obtain ⟨oenv, hoe, h⟩ := bind_eq_ok.mp h
  obtain ⟨cb, -, h⟩ := bind_eq_ok.mp h
  cases h
  exact ⟨rfl, rfl, hb, hl, hc, rfl, rfl, rfl, hr, hre, hoe⟩

theorem version_lt_nextVersion {db : Db} {f : Function} {v : FunctionVersion} (hv : v ∈ db.versions.rows)
    (hf : v.functionId = f.id) : v.version < nextVersion db f := by
  have hm : v.version ∈ (db.versions.select (·.functionId = f.id)).map (·.version) :=
    List.mem_map_of_mem (Table.mem_select.mpr ⟨hv, by simpa using hf⟩)
  exact Nat.lt_succ_of_le (List.le_max_of_le hm le_rfl)

theorem nextVersion_eq_one {db : Db} {f : Function} (h : ∀ v ∈ db.versions.rows, v.functionId ≠ f.id) :
    nextVersion db f = 1 := by
  have hn : db.versions.select (·.functionId = f.id) = [] := by
    rw [List.eq_nil_iff_forall_not_mem]
    intro v hv
    exact h v (Table.mem_select.mp hv).1 (by simpa using (Table.mem_select.mp hv).2)
  rw [nextVersion, hn]
  rfl

end McpworksApi.Services.Functions
