import McpworksApi.Py.Str

/-! The blocked paths of the sandbox runner (`deploy/nsjail/execute.py`). The hardened `open`, `io.open` and `os.open`
compare the text of their argument with a list before they pass it on; the system resolves it. -/

namespace McpworksApi.Sandbox

open Py

/-- An argument of `open`: a text, bytes by the text they decode to, or an object whose `__fspath__` is the text. -/
inductive PathArg
  | str (text : String)
  | bytes (text : String)
  | pathLike (text : String)

def PathArg.text : PathArg → String
  | str s | bytes s | pathLike s => s

def blockedPrefixes : List String := ["/proc/net/", "/proc/self/net/", "/proc/1/net/", "/opt/mcpworks/bin/"]

def blockedPaths : List String :=
  ["/proc/self/mountinfo", "/proc/1/mountinfo", "/proc/self/mounts", "/proc/1/mounts", "/proc/self/maps",
    "/proc/1/maps", "/proc/self/smaps", "/proc/1/smaps", "/proc/self/status", "/proc/1/status", "/proc/self/cgroup",
    "/proc/1/cgroup", "/proc/self/environ", "/proc/1/environ", "/opt/mcpworks/bin/execute.pyc"]

def isBlockedPath : PathArg → Bool
  | .pathLike _ => false
  | .str p | .bytes p => blockedPrefixes.any (startsWith p) || p ∈ blockedPaths

inductive OpenError (ε : Type)
  | permissionError (message : String)
  | other (e : ε)

/-- `_build_restricted_open` and `_build_restricted_os_open`. -/
def restrictedOpen {ε α : Type} (realFn : PathArg → Except ε α) (file : PathArg) : Except (OpenError ε) α :=
  if isBlockedPath file then .error (.permissionError ("Access denied: " ++ file.text))
  else (realFn file).mapError .other

def components (s : String) : List String :=
  ((s.toList.splitOn '/').map String.ofList).filter fun c => c ≠ "" ∧ c ≠ "."

/-- The file a path denotes: its components from the root or from the working directory, `..` leaving one. -/
def resolve (cwd : List String) (path : String) : List String :=
  (components path).foldl (fun dir c => if c = ".." then dir.dropLast else dir ++ [c])
    (if startsWith path "/" then [] else cwd)

/-- The names of a file: `/proc/self` is a link to the directory of the process. -/
def aliases (pid : String) (file : List String) : List (List String) :=
  file :: if file.take 2 = ["proc", pid] then ["proc" :: "self" :: file.drop 2] else []

def Listed (file : List String) : Prop :=
  (∃ d ∈ blockedPrefixes, ∃ name rest, file = components d ++ name :: rest) ∨ ∃ p ∈ blockedPaths, file = components p

def DenotesBlocked (pid : String) (cwd : List String) (path : PathArg) : Prop :=
  ∃ file ∈ aliases pid (resolve cwd path.text), Listed file

def render (file : List String) : List Char := file.flatMap fun c => '/' :: c.toList

/-- The spelling of a path is the plain one of the file it denotes: absolute, no component to drop or leave, and the
process's own directory not by its number. -/
def Plain (pid : String) (cwd : List String) (path : PathArg) : Prop :=
  path.text.toList = render (resolve cwd path.text) ∧ (resolve cwd path.text).take 2 ≠ ["proc", pid]

theorem isBlockedPath_of_listed {p : String} {file : List String} (hp : p.toList = render file) (h : Listed file) :
    isBlockedPath (.str p) = true := by
  have hd : ∀ d ∈ blockedPrefixes, d.toList = render (components d) ++ ['/'] := by decide +kernel
  have hl : ∀ q ∈ blockedPaths, q.toList = render (components q) := by decide +kernel
  rw [isBlockedPath, Bool.or_eq_true]
  rcases h with ⟨d, hm, name, rest, rfl⟩ | ⟨q, hm, rfl⟩
  · refine .inl (List.any_eq_true.mpr ⟨d, hm, List.isPrefixOf_iff_prefix.mpr ⟨name.toList ++ render rest, ?_⟩⟩)
    rw [hp, hd d hm]
    simp [render]
  · refine .inr (decide_eq_true ?_)
    rwa [String.toList_injective (hp.trans (hl q hm).symm)]

/-- A path that denotes a blocked file is refused exactly when it is given as text or bytes that begin with a blocked
directory or are a blocked path letter by letter; the plain spelling is refused. -/
theorem restrictedOpen_blocked_iff {ε α : Type} (realFn : PathArg → Except ε α) (pid : String) (cwd : List String)
    (path : PathArg) (h : DenotesBlocked pid cwd path) :
    ((∃ msg, restrictedOpen realFn path = .error (.permissionError msg)) ↔ (∀ s, path ≠ .pathLike s) ∧
      ((∃ d ∈ blockedPrefixes, d.toList <+: path.text.toList) ∨ path.text ∈ blockedPaths)) ∧
      ((∀ s, path ≠ .pathLike s) → Plain pid cwd path →
        ∃ msg, restrictedOpen realFn path = .error (.permissionError msg)) := by
  have hr : (∃ msg, restrictedOpen realFn path = .error (.permissionError msg)) ↔ isBlockedPath path = true := by
    unfold restrictedOpen
    split_ifs with hb
    · exact iff_of_true ⟨_, rfl⟩ hb
    · refine iff_of_false (fun ⟨msg, he⟩ => ?_) hb
      cases hf : realFn path <;> rw [hf] at he <;> cases he
  have hs : ∀ p, isBlockedPath (.str p) = true ↔
      (∃ d ∈ blockedPrefixes, d.toList <+: p.toList) ∨ p ∈ blockedPaths := by
    simp [isBlockedPath, startsWith]
  rw [hr]
  cases path with
  | pathLike p => exact ⟨iff_of_false Bool.false_ne_true fun hn => hn.1 p rfl, fun hn => absurd rfl (hn p)⟩
  | str p | bytes p =>
    refine ⟨(hs p).trans (and_iff_right fun _ => nofun).symm, fun _ hp => ?_⟩
    obtain ⟨file, hf, hl⟩ := h
    rw [aliases, if_neg hp.2, List.mem_singleton] at hf
    exact isBlockedPath_of_listed hp.1 (hf ▸ hl)

theorem restrictedOpen_environ :
    ∃ msg, restrictedOpen (ε := Unit) (fun _ => .ok ()) (.str "/proc/self/environ") = .error (.permissionError msg) :=
  (restrictedOpen_blocked_iff _ "7" [] (.str "/proc/self/environ")
    ⟨_, List.mem_cons_self, .inr ⟨"/proc/self/environ", by decide +kernel⟩⟩).2 nofun
    ⟨by decide +kernel, by decide +kernel⟩

/-- A doubled slash passes the check. -/
theorem doubled_slash_opens : DenotesBlocked "7" [] (.str "//proc/self/environ") ∧
    restrictedOpen (ε := Unit) (fun _ => .ok ()) (.str "//proc/self/environ") = .ok () :=
  ⟨⟨_, List.mem_cons_self, .inr ⟨"/proc/self/environ", by decide +kernel⟩⟩, by rfl⟩

end McpworksApi.Sandbox
