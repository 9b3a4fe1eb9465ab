import McpworksApi.Py.Dict
import McpworksApi.Run.Sandbox

/-! The `functions/` packages of code mode. Functions are grouped by service, in the order in which the services first
appear, and each function's code goes into one file whose path is made from the sanitised names; a later function under
the same path replaces an earlier one. -/

namespace McpworksApi.Run

open Models Py Services.Functions

def sanitize (name : String) : String :=
  String.ofList ((lower name).toList.map fun c => if c ∈ '_' :: alnumChars then c else '_')

def addFile (files : List CodeFile) (f : CodeFile) : List CodeFile :=
  if files.any (·.path = f.path) then files.map fun g => if g.path = f.path then f else g
  else files ++ [f]

def addToService {α : Type} (services : List (String × List α)) (name : String) (x : α) : List (String × List α) :=
  if services.any (·.1 = name) then services.map fun s => if s.1 = name then (s.1, s.2 ++ [x]) else s
  else services ++ [(name, [x])]

def byService (db : Db) (functions : List (Function × FunctionVersion)) :
    List (String × List (Function × FunctionVersion)) :=
  functions.foldl (fun services p =>
    match serviceOf db p.1 with
    | some s => addToService services s.name.val p
    | none => services) []

def codeFiles (db : Db) (ending : String) (keep : FunctionVersion → Bool)
    (functions : List (Function × FunctionVersion)) : List CodeFile :=
  ((byService db functions).flatMap fun s => (s.2.filter (keep ·.2)).map fun p =>
    (⟨"functions/_code/" ++ sanitize s.1 ++ "__" ++ sanitize p.1.name.val ++ ending, p.1, p.2⟩ : CodeFile)).foldl
      addFile []

def generateFunctionsPackage (db : Db) (functions : List (Function × FunctionVersion)) : List CodeFile :=
  codeFiles db ".py" (fun v => v.language ≠ .typescript) functions

def generateTsFunctionsPackage (db : Db) (functions : List (Function × FunctionVersion)) : List CodeFile :=
  codeFiles db ".js" (fun _ => true) functions

theorem foldl_addFile (l : List CodeFile) : l.foldl addFile [] = l.foldl (upsert CodeFile.path) [] := rfl

theorem mem_addToService {α : Type} {svcs : List (String × List α)} {name : String} {x y : α}
    {s : String × List α} (hs : s ∈ addToService svcs name x) (hy : y ∈ s.2) :
    (∃ t ∈ svcs, y ∈ t.2) ∨ y = x := by
  unfold addToService at hs
  split at hs
  · obtain ⟨t, ht, rfl⟩ := List.mem_map.mp hs
    by_cases hn : t.1 = name
    · rw [if_pos hn] at hy
      rcases List.mem_append.mp hy with hy | hy
      · exact .inl ⟨t, ht, hy⟩
      · exact .inr (List.mem_singleton.mp hy)
    · rw [if_neg hn] at hy
      exact .inl ⟨t, ht, hy⟩
  · rcases List.mem_append.mp hs with hs | hs
    · exact .inl ⟨s, hs, hy⟩
    · obtain rfl := List.mem_singleton.mp hs
      exact .inr (List.mem_singleton.mp hy)

variable {functions : List (Function × FunctionVersion)} {db : Db}

theorem mem_byService {s : String × List (Function × FunctionVersion)} (hs : s ∈ byService db functions)
    {p : Function × FunctionVersion} (hp : p ∈ s.2) : p ∈ functions := by
  suffices hf : ∀ (l : List (Function × FunctionVersion)) (acc : List (String × List (Function × FunctionVersion))),
      (∀ t ∈ acc, ∀ q ∈ t.2, q ∈ functions) → (∀ q ∈ l, q ∈ functions) →
      ∀ t ∈ l.foldl (fun services p =>
        match serviceOf db p.1 with
        | some s => addToService services s.name.val p
        | none => services) acc, ∀ q ∈ t.2, q ∈ functions from
    hf functions [] (by simp) (fun _ h => h) s hs p hp
  intro l
  induction l with
  | nil => exact fun acc ha _ => ha
  | cons q l ih =>
    intro acc ha hl
    refine ih _ ?_ fun r hr => hl r (List.mem_cons_of_mem _ hr)
    dsimp only
    split
    · intro t ht r hr
      rcases mem_addToService ht hr with ⟨t', ht', hr'⟩ | rfl
      · exact ha t' ht' r hr'
      · exact hl r List.mem_cons_self
    · exact ha

theorem mem_codeFiles {fin : String} {keep : FunctionVersion → Bool} {c : CodeFile}
    (h : c ∈ codeFiles db fin keep functions) :
    (c.function, c.version) ∈ functions := by
  rw [codeFiles, foldl_addFile] at h
  rcases mem_foldl_upsert h with h | h
  · cases h
  · obtain ⟨s, hs, hc⟩ := List.mem_flatMap.mp h
    obtain ⟨p, hp, rfl⟩ := List.mem_map.mp hc
    exact mem_byService hs (List.mem_of_mem_filter hp)

end McpworksApi.Run
