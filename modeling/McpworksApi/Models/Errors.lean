import Mathlib.Tactic

/-! Errors. `AppError` lists the exception classes of `core/exceptions.py` that the modelled
code raises, with their class attributes; `ApiError` is an exception as it travels through
a handler, together with the HTTP and plain Python errors. -/

namespace McpworksApi.Models

inductive AppError
  | invalidApiKey
  | tokenExpired
  | invalidToken
  | notFound
  | conflict
  | forbidden
  | userNotFound
  | emailExists
  | invalidVerificationPin
  | verificationPinExpired
  | verificationAttemptsExceeded
  | verificationResendLimit
  | alreadyVerified
  | validation
  deriving DecidableEq, Repr

namespace AppError

def defaultMessage : AppError → String
  | invalidApiKey => "Invalid or revoked API key"
  | tokenExpired => "Access token has expired"
  | invalidToken => "Invalid access token"
  | notFound => "Resource not found"
  | conflict => "Resource already exists"
  | forbidden => "Access denied"
  | userNotFound => "User not found"
  | emailExists => "Email address is already registered"
  | invalidVerificationPin => "Invalid verification PIN"
  | verificationPinExpired => "Verification PIN has expired. Please request a new one."
  | verificationAttemptsExceeded => "Too many failed attempts. Please request a new PIN."
  | verificationResendLimit => "Maximum verification email resend limit reached"
  | alreadyVerified => "Email is already verified"
  | validation => "Validation error"

end AppError

inductive PyError
  | valueError
  | typeError
  | keyError
  | attributeError
  | integrityError
  | dataError
  | multipleResultsFound
  | noResultFound
  | responseError
  | agentAccessDenied
  | aiClientError
  | unicodeDecodeError
  | osError
  | runtimeError
  | missingGreenlet
  deriving DecidableEq, Repr

inductive ApiError
  | app (kind : AppError) (message : String)
  | py (kind : PyError) (message : String)
  | http (status : ℕ) (detail : String)
  | httpApp (status : ℕ) (kind : AppError) (message : String)
  deriving DecidableEq, Repr

inductive JsonError
  | jsonDecodeError
  | other (e : ApiError)

inductive YamlError
  | invalid (message : String)
  | other (e : ApiError)

def ApiError.text : ApiError → String
  | app _ m | py _ m | http _ m | httpApp _ _ m => m

def AppError.raised (k : AppError) : ApiError := .app k k.defaultMessage

abbrev Time := ℕ

def scalarOneOrNone {α : Type} : List α → Except ApiError (Option α)
  | [] => .ok none
  | [a] => .ok (some a)
  | _ => .error (.py .multipleResultsFound "Multiple rows were found when one or none was required")

def scalarOne {α : Type} : List α → Except ApiError α
  | [] => .error (.py .noResultFound "No row was found when one was required")
  | [a] => .ok a
  | _ => .error (.py .multipleResultsFound "Multiple rows were found when exactly one was required")

variable {α β γ ε : Type}

theorem scalarOneOrNone_map (g : α → β) (l : List α) :
    scalarOneOrNone (l.map g) = (scalarOneOrNone l).map (Option.map g) := by
  match l with
  | [] => rfl
  | [a] => rfl
  | a :: b :: l => rfl

theorem bind_eq_ok {x : Except ε α} {f : α → Except ε β} {b : β} :
    (x >>= f) = .ok b ↔ ∃ a, x = .ok a ∧ f a = .ok b := by
  constructor
  · intro h
    cases x with
    | ok a => exact ⟨a, rfl, h⟩
    | error e => cases h
  · rintro ⟨a, rfl, h⟩
    exact h

theorem mapM_eq_ok {f : α → Except ε β} {l : List α} {r : List β} :
    l.mapM f = .ok r ↔ List.Forall₂ (fun a b => f a = .ok b) l r := by
  induction l generalizing r with
  | nil => simp [pure, Except.pure, eq_comm]
  | cons a l ih => simp [List.mapM_cons, bind_eq_ok, pure, Except.pure, ih,
      List.forall₂_cons_left_iff, eq_comm (a := r)]

theorem mapM_eq_some {f : α → Option β} {l : List α} {r : List β} :
    l.mapM f = some r ↔ List.Forall₂ (fun a b => f a = some b) l r := by
  induction l generalizing r with
  | nil => simp [eq_comm]
  | cons a l ih => simp [List.mapM_cons, Option.bind_eq_some_iff, ih, List.forall₂_cons_left_iff, eq_comm (a := r)]

theorem map_eq_of_forall₂ {R : α → β → Prop} {f : α → γ} {g : β → γ} {l : List α} {m : List β}
    (h : List.Forall₂ R l m) (hR : ∀ a b, R a b → f a = g b) : l.map f = m.map g := by
  induction h with
  | nil => rfl
  | cons hab _ ih => rw [List.map_cons, List.map_cons, hR _ _ hab, ih]

theorem exists_mapM_eq_ok {f : α → Except ε β} {l : List α} (h : ∀ a ∈ l, ∃ b, f a = .ok b) :
    ∃ r, l.mapM f = .ok r := by
  induction l with
  | nil => exact ⟨[], rfl⟩
  | cons a l ih =>
    obtain ⟨b, hb⟩ := h a List.mem_cons_self
    obtain ⟨r, hr⟩ := ih fun a ha => h a (List.mem_cons_of_mem _ ha)
    exact ⟨b :: r, mapM_eq_ok.mpr (.cons hb (mapM_eq_ok.mp hr))⟩

theorem exists_of_mem_left {R : α → β → Prop} {l : List α} {r : List β} (h : List.Forall₂ R l r) {a : α}
    (ha : a ∈ l) : ∃ b ∈ r, R a b := by
  induction h with
  | nil => cases ha
  | cons hab _ ih =>
    rcases List.mem_cons.mp ha with rfl | ha
    · exact ⟨_, List.mem_cons_self, hab⟩
    · obtain ⟨b, hb, hR⟩ := ih ha
      exact ⟨b, List.mem_cons_of_mem _ hb, hR⟩

theorem exists_of_mem_right {R : α → β → Prop} {l : List α} {r : List β} (h : List.Forall₂ R l r) {b : β}
    (hb : b ∈ r) : ∃ a ∈ l, R a b := by
  obtain ⟨a, ha, hR⟩ := exists_of_mem_left h.flip hb
  exact ⟨a, ha, hR⟩

theorem scalarOneOrNone_eq_some {l : List α} {a : α} : scalarOneOrNone l = .ok (some a) ↔ l = [a] := by
  match l with
  | [] => simp [scalarOneOrNone]
  | [b] => simp [scalarOneOrNone]
  | b :: c :: l => simp [scalarOneOrNone]

theorem mem_of_scalarOneOrNone {l : List α} {a : α} (h : scalarOneOrNone l = .ok (some a)) : a ∈ l := by
  rw [scalarOneOrNone_eq_some.mp h]
  exact List.mem_singleton_self a

theorem scalarOneOrNone_eq_none {l : List α} : scalarOneOrNone l = .ok none ↔ l = [] := by
  match l with
  | [] => simp [scalarOneOrNone]
  | [b] => simp [scalarOneOrNone]
  | b :: c :: l => simp [scalarOneOrNone]

theorem scalarOne_eq_ok {l : List α} {a : α} : scalarOne l = .ok a ↔ l = [a] := by
  match l with
  | [] => simp [scalarOne]
  | [b] => simp [scalarOne]
  | b :: c :: l => simp [scalarOne]

end McpworksApi.Models
