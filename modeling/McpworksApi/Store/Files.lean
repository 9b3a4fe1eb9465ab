import Mathlib.Data.List.TakeWhile
import Mathlib.Tactic

/-! File trees with symbolic links, and the resolution of a path in one of them. A path is a list of steps, down to a
name or up; the resolved path of what it leads to is a list of names. -/

namespace McpworksApi.Files

variable {γ : Type}

def Proper (s : String) : Prop := s ≠ "" ∧ s ≠ "." ∧ s ≠ ".." ∧ '/' ∉ s.toList

instance (s : String) : Decidable (Proper s) := inferInstanceAs (Decidable (_ ∧ _))

structure FileName where
  val : String
  proper : Proper val

instance : DecidableEq FileName := fun a b => decidable_of_iff (a.val = b.val) (by cases a; cases b; simp)

inductive Node (γ : Type)
  | file (contents : γ)
  | dir (entries : List (FileName × Node γ))
  | link (target : String)

def entry (entries : List (FileName × Node γ)) (name : FileName) : Option (Node γ) :=
  (entries.find? (·.1 = name)).map Prod.snd

def Node.at? : Node γ → List FileName → Option (Node γ)
  | node, [] => some node
  | .dir entries, name :: path => (entry entries name).bind fun node => node.at? path
  | .file _, _ :: _ => none
  | .link _, _ :: _ => none

inductive Step
  | up
  | down (name : FileName)
  deriving DecidableEq

abbrev Path := List Step

def Path.of (place : List FileName) : Path := place.map .down

def step (s : String) : Option Step :=
  if s = ".." then some .up else if h : Proper s then some (.down ⟨s, h⟩) else none

def steps (s : String) : List Step := (s.toList.splitOn '/').filterMap fun part => step (String.ofList part)

theorem steps_ne_nil {s : String} {c : Char} {rest : List Char} (h : s.toList = c :: rest) (hs : c ≠ '/')
    (hd : c ≠ '.') : steps s ≠ [] := by
  -- the first part is what comes before the first slash
  have hpa : ∃ parts, (c :: rest).splitOn '/' = (c :: rest.takeWhile (· ≠ '/')) :: parts := by
    have hf : ∀ x ∈ c :: rest.takeWhile (· ≠ '/'), (x == '/') = false := by
      intro x hx
      rcases List.mem_cons.mp hx with rfl | hx
      · simpa using hs
      · simpa using List.mem_takeWhile_imp hx
    cases hr : rest.dropWhile (· ≠ '/') with
    | nil =>
      have ha : rest.takeWhile (· ≠ '/') = rest := by
        have := List.takeWhile_append_dropWhile (p := (· ≠ '/')) (l := rest)
        rwa [hr, List.append_nil] at this
      rw [ha] at hf ⊢
      exact ⟨[], List.splitOnP_eq_singleton hf⟩
    | cons x later =>
      have hx : x = '/' := by
        have := List.head?_dropWhile_not (· ≠ '/') rest
        rw [hr] at this
        simpa using this
      have hsp : c :: rest = (c :: rest.takeWhile (· ≠ '/')) ++ x :: later := by
        rw [List.cons_append, ← hr, List.takeWhile_append_dropWhile]
      rw [hsp]
      exact ⟨_, List.splitOnP_append_cons_of_forall_mem hf x (by simp [hx]) later⟩
  obtain ⟨parts, hpr⟩ := hpa
  have hp : Proper (String.ofList (c :: rest.takeWhile (· ≠ '/'))) := by
    refine ⟨?_, ?_, ?_, ?_⟩
    · simp [← String.toList_inj]
    · simp [← String.toList_inj, hd]
    · simp [← String.toList_inj, hd]
    · rw [String.toList_ofList]
      intro hm
      rcases List.mem_cons.mp hm with heq | hm
      · exact hs heq.symm
      · simpa using List.mem_takeWhile_imp hm
  unfold steps
  rw [h, hpr, List.filterMap_cons]
  unfold step
  rw [if_neg hp.2.2.1, dif_pos hp]
  exact List.cons_ne_nil _ _

def isAbsolute (s : String) : Bool := s.toList.head? = some '/'

def Path.join (path : Path) (s : String) : Path := if isAbsolute s then steps s else path ++ steps s

def Path.child (path : Path) (name : FileName) : Path := path ++ [.down name]

def walk (root : Node γ) (jump : List FileName → Path → Option (List FileName)) :
    List FileName → Path → Option (List FileName)
  | here, [] => some here
  | here, .up :: rest => walk root jump here.dropLast rest
  | here, .down name :: rest =>
    match root.at? (here ++ [name]) with
    | some (.dir _) => walk root jump (here ++ [name]) rest
    | some (.link target) => jump (if isAbsolute target then [] else here) (steps target ++ rest)
    | some (.file _) => if rest = [] then some (here ++ [name]) else none
    | none => none

def follow (root : Node γ) : ℕ → List FileName → Path → Option (List FileName)
  | 0 => walk root fun _ _ => none
  | n + 1 => walk root (follow root n)

def maxLinks : ℕ := 40

def resolve (root : Node γ) (path : Path) : Option (List FileName) := follow root maxLinks [] path

def node? (root : Node γ) (path : Path) : Option (Node γ) := (resolve root path).bind root.at?

def pathExists (root : Node γ) (path : Path) : Bool := (node? root path).isSome

def isDir (root : Node γ) (path : Path) : Bool :=
  match node? root path with
  | some (.dir _) => true
  | _ => false

def names (root : Node γ) (path : Path) : List FileName :=
  match node? root path with
  | some (.dir entries) => entries.map Prod.fst
  | _ => []

theorem at?_append (node : Node γ) (p q : List FileName) : node.at? (p ++ q) = (node.at? p).bind (·.at? q) := by
  induction p generalizing node with
  | nil => rfl
  | cons name p ih =>
    cases node with
    | file | link => rfl
    | dir entries =>
      simp only [List.cons_append, Node.at?]
      cases entry entries name with
      | none => rfl
      | some node => exact ih node

variable {place : List FileName} {root : Node γ} {path : Path}

theorem at?_dropLast (h : (root.at? place).isSome = true) : (root.at? place.dropLast).isSome = true := by
  induction place using List.reverseRecOn with
  | nil => exact h
  | append_singleton place name _ =>
    obtain ⟨node, hn⟩ := Option.isSome_iff_exists.mp h
    rw [at?_append] at hn
    obtain ⟨parent, hp, -⟩ := Option.bind_eq_some_iff.mp hn
    rw [List.dropLast_concat, hp]
    rfl

theorem isSome_of_walk {jump : List FileName → Path → Option (List FileName)}
    (hj : ∀ here path place, (root.at? here).isSome = true → jump here path = some place →
      (root.at? place).isSome = true)
    {here : List FileName} (hh : (root.at? here).isSome = true)
    (h : walk root jump here path = some place) : (root.at? place).isSome = true := by
  induction path generalizing here with
  | nil =>
    obtain rfl := Option.some.inj h
    exact hh
  | cons s rest ih =>
    cases s with
    | up => exact ih (at?_dropLast hh) h
    | down name =>
      unfold walk at h
      split at h
      · rename_i hn
        exact ih (by rw [hn]; rfl) h
      · refine hj _ _ _ ?_ h
        split
        · rfl
        · exact hh
      · rename_i hn
        split at h
        · obtain rfl := Option.some.inj h
          rw [hn]
          rfl
        · cases h
      · cases h

theorem isSome_of_follow {n : ℕ} {here : List FileName}
    (hh : (root.at? here).isSome = true) (h : follow root n here path = some place) :
    (root.at? place).isSome = true := by
  induction n generalizing here path place with
  | zero => exact isSome_of_walk (fun _ _ _ _ h => by cases h) hh h
  | succ n ih => exact isSome_of_walk (fun _ _ _ hh h => ih hh h) hh h

theorem pathExists_iff : pathExists root path = true ↔ ∃ place, resolve root path = some place := by
  unfold pathExists node?
  constructor
  · intro h
    obtain ⟨node, hn⟩ := Option.isSome_iff_exists.mp h
    obtain ⟨place, hp, -⟩ := Option.bind_eq_some_iff.mp hn
    exact ⟨place, hp⟩
  · rintro ⟨place, hp⟩
    rw [hp]
    exact isSome_of_follow rfl hp

end McpworksApi.Files
