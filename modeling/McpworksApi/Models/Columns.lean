import McpworksApi.Models.Namespaces
import McpworksApi.Py.Literal

/-! Values as columns take them. What comes from a manifest or a tool call can be any data; the
validators of a model refuse some of it when a row is made, and the database driver when the row is
written, which is a `DataError` here whatever its class. -/

namespace McpworksApi.Models

open Py

def asName : Json → Except ApiError String
  | .str s => .ok s
  | j => .error (.py .attributeError ("'" ++ j.typeName ++ "' object has no attribute 'lower'"))

def textColumn : Json → Except ApiError (Option String)
  | .null => .ok none
  | .str s => .ok (some s)
  | j => .error (.py .dataError ("expected str, got " ++ j.typeName))

def textValue : Option String → Json
  | none => .null
  | some s => .str s

def varcharColumn (limit : ℕ) (value : Json) : Except ApiError (Option String) := do
  match ← textColumn value with
  | some s =>
    if s.length ≤ limit then .ok (some s)
    else .error (.py .dataError ("value too long for type character varying(" ++ toString limit ++ ")"))
  | none => .ok none

def textItem : Json → Except ApiError String
  | .str s => .ok s
  | j => .error (.py .dataError ("expected str, got " ++ j.typeName))

def arrayColumn : Json → Except ApiError (Option (List String))
  | .null => .ok none
  | .arr items => (items.mapM textItem).map some
  | .str s => .ok (some (s.toList.map fun c => String.ofList [c]))
  | .obj fields => .ok (some (fields.map Prod.fst))
  | j => .error (.py .dataError ("'" ++ j.typeName ++ "' object is not iterable"))

/-- A truth value with the default `False`, which a null in an `INSERT` leaves in place; the numbers 0
and 1 pass for truth values. -/
def boolColumn : Json → Except ApiError Bool
  | .bool b => .ok b
  | .int 0 => .ok false
  | .int 1 => .ok true
  | .null => .ok false
  | j => .error (.py .dataError ("Not a boolean value: " ++ j.repr))

def jsonColumn : Json → Option Json
  | .null => none
  | j => some j

def jsonValue (column : Option Json) : Json := column.getD .null

def Backend.text : Backend → String
  | .codeSandbox => "code_sandbox"
  | .nanobot => "nanobot"
  | .githubRepo => "github_repo"

def Language.text : Language → String
  | .python => "python"
  | .typescript => "typescript"

def hashable : Json → Except ApiError Unit
  | .arr _ => .error (.py .typeError "unhashable type: 'list'")
  | .obj _ => .error (.py .typeError "unhashable type: 'dict'")
  | _ => .ok ()

def validateBackend (value : Json) : Except ApiError Backend := do
  hashable value
  match value with
  | .str "code_sandbox" => .ok .codeSandbox
  | .str "nanobot" => .ok .nanobot
  | .str "github_repo" => .ok .githubRepo
  | _ => .error (.py .valueError "Backend must be one of \x7b'code_sandbox', 'nanobot', 'github_repo'\x7d")

def validateLanguage (value : Json) : Except ApiError Language := do
  hashable value
  match value with
  | .str "python" => .ok .python
  | .str "typescript" => .ok .typescript
  | _ => .error (.py .valueError "Language must be one of \x7b'python', 'typescript'\x7d")

def ApiError.IsPy (e : ApiError) : Prop := ∃ kind message, e = .py kind message

def ApiError.IsData (e : ApiError) : Prop := ∃ message, e = .py .dataError message

theorem ApiError.IsData.isPy {e : ApiError} (h : e.IsData) : e.IsPy := by
  obtain ⟨msg, rfl⟩ := h
  exact ⟨_, msg, rfl⟩

def Fails {α : Type} (P : ApiError → Prop) (r : Except ApiError α) : Prop := ∀ e, r = .error e → P e

namespace Fails

variable {α β : Type} {P : ApiError → Prop}

protected theorem ok (a : α) : Fails P (.ok a) := fun _ h => by cases h

protected theorem error {e : ApiError} (h : P e) : Fails P (.error e : Except ApiError α) :=
  fun _ heq => Except.error.inj heq ▸ h

theorem isPy {r : Except ApiError α} (hr : Fails ApiError.IsData r) : Fails ApiError.IsPy r :=
    fun e h => (hr e h).isPy

protected theorem bind {r : Except ApiError α} {f : α → Except ApiError β} (hr : Fails P r)
    (hf : ∀ a, Fails P (f a)) :
    Fails P (r >>= f) := by
  intro e h
  cases r with
  | ok a => exact hf a e h
  | error e' => exact hr e (by cases h; rfl)

protected theorem map {r : Except ApiError α} (hr : Fails P r) (f : α → β) : Fails P (r.map f) := by
  intro e h
  cases r with
  | ok a => cases h
  | error e' => exact hr e (by cases h; rfl)

protected theorem mapM {f : α → Except ApiError β} (hf : ∀ a, Fails P (f a)) (l : List α) : Fails P (l.mapM f) := by
  induction l with
  | nil => exact Fails.ok []
  | cons a l ih =>
    rw [List.mapM_cons]
    exact (hf a).bind fun _ => ih.bind fun _ => Fails.ok _

end Fails

theorem fails_textColumn (j : Json) : Fails ApiError.IsData (textColumn j) := by
  cases j <;> first | exact Fails.ok _ | exact Fails.error ⟨_, rfl⟩

theorem fails_varcharColumn (lim : ℕ) (j : Json) : Fails ApiError.IsData (varcharColumn lim j) := by
  refine (fails_textColumn j).bind fun s => ?_
  cases s with
  | none => exact Fails.ok _
  | some s =>
    dsimp only
    split
    · exact Fails.ok _
    · exact Fails.error ⟨_, rfl⟩

theorem fails_arrayColumn (j : Json) : Fails ApiError.IsData (arrayColumn j) := by
  cases j with
  | arr its =>
    refine (Fails.mapM (fun item => ?_) its).map some
    cases item <;> first | exact Fails.ok _ | exact Fails.error ⟨_, rfl⟩
  | null | str _ | obj _ => exact Fails.ok _
  | bool _ | int _ | float _ => exact Fails.error ⟨_, rfl⟩

theorem fails_boolColumn (j : Json) : Fails ApiError.IsData (boolColumn j) := by
  unfold boolColumn
  split <;> first | exact Fails.ok _ | exact Fails.error ⟨_, rfl⟩

theorem fails_hashable (j : Json) : Fails ApiError.IsPy (hashable j) := by
  cases j <;> first | exact Fails.ok _ | exact Fails.error ⟨_, _, rfl⟩

theorem fails_validateBackend (j : Json) : Fails ApiError.IsPy (validateBackend j) := by
  refine (fails_hashable j).bind fun _ => ?_
  split <;> first | exact Fails.ok _ | exact Fails.error ⟨_, _, rfl⟩

theorem fails_validateLanguage (j : Json) : Fails ApiError.IsPy (validateLanguage j) := by
  refine (fails_hashable j).bind fun _ => ?_
  split <;> first | exact Fails.ok _ | exact Fails.error ⟨_, _, rfl⟩

theorem fails_scalarOneOrNone {α : Type} (l : List α) : Fails ApiError.IsPy (scalarOneOrNone l) := by
  unfold scalarOneOrNone
  split <;> first | exact Fails.ok _ | exact Fails.error ⟨_, _, rfl⟩

theorem asName_eq_ok {j : Json} {s : String} : asName j = .ok s ↔ j = .str s := by
  cases j <;> simp [asName]

theorem fails_asName (j : Json) : Fails ApiError.IsPy (asName j) := by
  cases j <;> first | exact Fails.ok _ | exact Fails.error ⟨_, _, rfl⟩

@[simp] theorem arrayColumn_texts (l : List String) : arrayColumn (.arr (l.map .str)) = .ok (some l) := by
  have hit : (l.map Json.str).mapM textItem = .ok l :=
    mapM_eq_ok.mpr (List.forall₂_map_left_iff.mpr (List.forall₂_same.mpr fun _ _ => rfl))
  rw [arrayColumn, hit]
  rfl

theorem textValue_of_textColumn {j : Json} {s : Option String} (h : textColumn j = .ok s) : textValue s = j := by
  cases j <;> cases h <;> rfl

@[simp] theorem validateLanguage_text (l : Language) : validateLanguage (.str l.text) = .ok l := by
  cases l <;> rfl

theorem text_of_validateBackend {j : Json} {b : Backend} (h : validateBackend j = .ok b) : .str b.text = j := by
  obtain ⟨-, -, h⟩ := bind_eq_ok.mp h
  split at h <;> cases h <;> rfl

theorem text_of_validateLanguage {j : Json} {l : Language} (h : validateLanguage j = .ok l) : .str l.text = j := by
  obtain ⟨-, -, h⟩ := bind_eq_ok.mp h
  split at h <;> cases h <;> rfl

@[simp] theorem jsonValue_jsonColumn (j : Json) : jsonValue (jsonColumn j) = j := by
  cases j <;> rfl

end McpworksApi.Models
