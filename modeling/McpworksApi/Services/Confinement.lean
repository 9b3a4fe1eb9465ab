import McpworksApi.Services.GitImport

/-! Where the data of an import comes from. `validate_and_parse` and `parse_service` join names to paths and open what
the paths lead to. -/

namespace McpworksApi.Services.GitImport

open Models Py Files Session

variable {α β : Type}

def fileText (c : Checkout) (path : Path) : Option String :=
  match node? c.root path with
  | some (.file (.text s)) => some (textMode s)
  | _ => none

def manifest (c : Checkout) (path : Path) : Option (List (String × Json)) :=
  (fileText c path).bind fun text =>
    match c.yaml.load text with
    | .ok (.obj fields) => some fields
    | _ => none

inductive FunctionFile (c : Checkout) (directory : Path) : Path → Prop
  | manifest : FunctionFile c directory (directory.child functionYaml)
  | handler {fields : List (String × Json)} {language : Json}
      (hfields : manifest c (directory.child functionYaml) = some fields)
    (hlanguage : getKey (section? fields "spec") "language" (.str "python") = .ok language) :
    FunctionFile c directory (directory.child (handlerName language))

inductive ServiceFile (c : Checkout) (directory : Path) : Path → Prop
  | manifest : ServiceFile c directory (directory.child serviceYaml)
  | function {name : FileName} {path : Path} (hname : name ∈ names c.root (directory.child functions))
    (hdir : isDir c.root ((directory.child functions).child name) = true)
    (hpath : FunctionFile c ((directory.child functions).child name) path) : ServiceFile c directory path

inductive NamespaceFile (c : Checkout) (directory : Path) : Path → Prop
  | manifest : NamespaceFile c directory (directory.child namespaceYaml)
  | service {name : FileName} {path : Path} (hname : name ∈ names c.root (directory.child services))
    (hdir : isDir c.root ((directory.child services).child name) = true)
    (hpath : ServiceFile c ((directory.child services).child name) path) : NamespaceFile c directory path
  | agent {name : FileName} (hname : name ∈ names c.root (directory.child agents))
    (hdir : isDir c.root ((directory.child agents).child name) = true) :
    NamespaceFile c directory (((directory.child agents).child name).child agentYaml)

def Inside (c : Checkout) (path : Path) : Prop := ∀ place, resolve c.root path = some place → c.directory <+: place

abbrev PlaceOf (c : Checkout) (F : Path → Prop) (place : List FileName) : Prop :=
  ∃ path, F path ∧ resolve c.root path = some place

abbrev InSubdirectory (c : Checkout) (directory : Path) (R : Path → List FileName → Prop)
    (place : List FileName) : Prop :=
  ∃ name ∈ names c.root directory, isDir c.root (directory.child name) = true ∧ R (directory.child name) place

abbrev AgentPlace (c : Checkout) (directory : Path) (place : List FileName) : Prop :=
  resolve c.root (directory.child agentYaml) = some place

def Faulty (p : Progress) : Prop := p.errors ≠ []

/-! ### Reading files -/

/-- `m` forgets no complaint, and without any it returns what `Q` says and has read exactly the places of `R`
besides those before. -/
structure Gathers (m : Parse α) (Q : α → Prop) (R : List FileName → Prop) : Prop where
  faulty : Maintains Faulty m fun _ => True
  clean : ∀ p a p', m p = (.ok a, p') → ¬ Faulty p' →
    Q a ∧ ∀ place, place ∈ p'.sources ↔ place ∈ p.sources ∨ R place

variable {R : List FileName → Prop} {place : List FileName} {p : Progress} {Q : α → Prop} (msg : String)
  (fields : List (String × Json))

theorem addError_faulty (p : Progress) : Faulty (addError msg p).2 := by
  simp [addError, Faulty]

theorem maintains_addError : Maintains Faulty (addError msg) fun _ => True :=
  fun p _ => ⟨addError_faulty msg p, fun _ _ => trivial⟩

namespace Gathers

variable {Q : α → Prop} {Q' : β → Prop} {R T : List FileName → Prop}

protected theorem pure {a : α} (ha : Q a) : Gathers (pure a : Parse α) Q fun _ => False := by
  refine ⟨.pure trivial, fun p b p' h _ => ?_⟩
  cases h
  exact ⟨ha, fun place => by simp⟩

protected theorem raise {e : ImportError} : Gathers (raise e : Parse α) Q R := by
  refine ⟨.raise, fun p a p' h _ => ?_⟩
  cases (Prod.mk.inj h).1

theorem forget {m : Parse α} (hm : Gathers m Q R) : Gathers m (fun _ => True) R :=
  ⟨hm.faulty, fun p a p' h hc => ⟨trivial, (hm.clean p a p' h hc).2⟩⟩

protected theorem addError {msg : String} {f : Unit → Parse α} (hf : Maintains Faulty (f ()) fun _ => True) :
    Gathers (addError msg >>= f) Q R := by
  refine ⟨.bind (maintains_addError msg) fun _ _ => hf, fun p a p' h hc => absurd ?_ hc⟩
  have hs : (addError msg >>= f) p = f () (addError msg p).2 := rfl
  have hk := (hf _ (addError_faulty msg p)).1
  rw [← hs, h] at hk
  exact hk

protected theorem lift {r : Except ApiError α} {f : α → Parse β}
    (hf : ∀ a, r = .ok a → Gathers (f a) Q' R) : Gathers (lift r >>= f) Q' R := by
  cases r with
  | error e => exact Gathers.raise (e := .other e)
  | ok a => exact hf a rfl

protected theorem bind {m : Parse α} {f : α → Parse β} {S : α → List FileName → Prop} (hm : Gathers m Q R)
    (hfa : ∀ a, Maintains Faulty (f a) fun _ => True) (hf : ∀ a, Q a → Gathers (f a) Q' (S a))
    (hT : ∀ a, Q a → ∀ place, T place ↔ R place ∨ S a place) : Gathers (m >>= f) Q' T := by
  refine ⟨.bind hm.faulty fun a _ => hfa a, fun p b p'' h hc => ?_⟩
  obtain ⟨a, p', hp', hb⟩ := Session.bind_eq_ok.mp h
  have hp'clean : ¬ Faulty p' := by
    intro hp'faulty
    have hk := (hfa a p' hp'faulty).1
    rw [hb] at hk
    exact hc hk
  obtain ⟨hQ, hR⟩ := hm.clean p a p' hp' hp'clean
  obtain ⟨hQ', hS⟩ := (hf a hQ).clean p' b p'' hb hc
  refine ⟨hQ', fun place => ?_⟩
  rw [hS, hR, hT a hQ place, or_assoc]

theorem congr {m : Parse α} (hm : Gathers m Q R) (hT : ∀ place, T place ↔ R place) : Gathers m Q T :=
  ⟨hm.faulty, fun p a p' h hc => ⟨(hm.clean p a p' h hc).1, fun place => by
    rw [(hm.clean p a p' h hc).2, hT]⟩⟩

end Gathers

variable {c : Checkout} {path directory : Path} {name : FileName}

theorem readText_eq_ok {p' : Progress} {r : Option String} (h : readText c path p = (.ok r, p')) :
    (r = none ∧ p' = p) ∨ ∃ s place, r = some s ∧ fileText c path = some s ∧ resolve c.root path = some place ∧
      p' = { p with sources := p.sources ++ [place] } := by
  cases hp : resolve c.root path with
  | none =>
    simp only [readText, hp] at h
    cases h
  | some place =>
    have hn : node? c.root path = c.root.at? place := by rw [node?, hp]; rfl
    simp only [readText, hp] at h
    cases hat : c.root.at? place with
    | none =>
      simp only [hat] at h
      cases h
    | some node =>
      cases node with
      | dir | link =>
        simp only [hat] at h
        cases h
      | file cs =>
        cases cs with
        | binary =>
          simp only [hat] at h
          obtain ⟨hr, hp'⟩ := Prod.mk.inj h
          exact .inl ⟨(Except.ok.inj hr).symm, hp'.symm⟩
        | text s =>
          simp only [hat] at h
          obtain ⟨hr, hp'⟩ := Prod.mk.inj h
          refine .inr ⟨textMode s, place, (Except.ok.inj hr).symm, ?_, rfl, hp'.symm⟩
          rw [fileText, hn, hat]

theorem maintains_readText : Maintains Faulty (readText c path) fun _ => True := by
  unfold readText
  split
  · exact .raise
  · split
    · exact .write_bind (fun _ hp => hp) (.pure trivial)
    · exact .pure trivial
    · exact .raise

theorem gathers_readText {f : Option String → Parse α} {msg : String} {g : Unit → Parse α}
    {T : List FileName → Prop} (hn : f none = addError msg >>= g)
    (hg : Maintains Faulty (g ()) fun _ => True) (hfa : ∀ s, Maintains Faulty (f (some s)) fun _ => True)
    (hs : ∀ s, fileText c path = some s → Gathers (f (some s)) Q R)
    (hT : ∀ place, T place ↔ resolve c.root path = some place ∨ R place) : Gathers (readText c path >>= f) Q T := by
  have hf : ∀ r, Maintains Faulty (f r) fun _ => True := by
    intro r
    cases r with
    | none =>
      rw [hn]
      exact .bind (maintains_addError msg) fun _ _ => hg
    | some s => exact hfa s
  refine ⟨.bind maintains_readText fun r _ => hf r, fun p a p'' h hc => ?_⟩
  obtain ⟨r, p', hr, ha⟩ := Session.bind_eq_ok.mp h
  obtain ⟨rfl, rfl⟩ | ⟨s, place, rfl, ht, hp, rfl⟩ := readText_eq_ok hr
  · rw [hn] at ha
    exact ((Gathers.addError hg).clean p' a p'' ha hc)
  · obtain ⟨hQ, hR⟩ := (hs s ht).clean _ a p'' ha hc
    refine ⟨hQ, fun pl' => ?_⟩
    rw [hR, hT, hp, List.mem_append, List.mem_singleton, Option.some.injEq, or_assoc]
    exact or_congr Iff.rfl (or_congr eq_comm Iff.rfl)

theorem gathers_loadYaml (c : Checkout) (directory : Path) (name : FileName) : Gathers (loadYaml c directory name)
    (fun r => ∃ fields, r = some fields ∧ manifest c (directory.child name) = some fields)
    fun place => resolve c.root (directory.child name) = some place := by
  unfold loadYaml
  refine gathers_readText (R := fun _ => False) rfl (.pure trivial) (fun text => ?_) (fun text ht => ?_)
    fun place => by simp
  · dsimp only
    split
    · exact .pure trivial
    · exact .map (maintains_addError _)
    · exact .map (maintains_addError _)
    · exact .raise
  · dsimp only
    split
    · rename_i fields hl
      refine Gathers.pure ⟨fields, rfl, ?_⟩
      rw [manifest, ht, Option.bind_some, hl]
    · exact .addError (.pure trivial)
    · exact .addError (.pure trivial)
    · exact .raise

theorem Gathers.loadYaml_bind {f : Option (List (String × Json)) → Parse α}
    (hf : ∀ r, Maintains Faulty (f r) fun _ => True)
    (hs : ∀ fields, manifest c (directory.child name) = some fields → Gathers (f (some fields)) Q R) :
    Gathers (loadYaml c directory name >>= f) Q fun place =>
      resolve c.root (directory.child name) = some place ∨ R place := by
  refine (gathers_loadYaml c directory name).bind hf ?_ fun _ _ _ => Iff.rfl
  rintro r ⟨fields, rfl, hfi⟩
  exact hs fields hfi

theorem maintains_lift {r : Except ApiError α} : Maintains Faulty (lift r) fun _ => True :=
    .fetch fun _ _ _ _ => trivial

theorem gathers_readHandler (c : Checkout) (directory : Path) (lang : Json) :
    Gathers (readHandler c directory lang) (fun r => r.isSome = true)
      fun place => resolve c.root (directory.child (handlerName lang)) = some place := by
  unfold readHandler
  split
  · exact gathers_readText (R := fun _ => False) rfl (.pure trivial) (fun _ => .pure trivial) (fun _ _ => .pure rfl)
      fun place => by simp
  · rename_i he
    have hn : Gathers (pure (some none) : Parse (Option (Option String))) (fun r => r.isSome = true) fun _ => False :=
      .pure rfl
    exact hn.congr fun place => ⟨fun hp => he (pathExists_iff.mpr ⟨place, hp⟩), False.elim⟩

def HandlerPlace (c : Checkout) (directory : Path) (fields : List (String × Json)) (place : List FileName) : Prop :=
  ∃ language, getKey (section? fields "spec") "language" (.str "python") = .ok language ∧
    resolve c.root (directory.child (handlerName language)) = some place

theorem functionFile_iff : PlaceOf c (FunctionFile c directory) place ↔
    resolve c.root (directory.child functionYaml) = some place ∨
        ∃ fields, manifest c (directory.child functionYaml) = some fields ∧
          HandlerPlace c directory fields place := by
  constructor
  · rintro ⟨path, hpa, hp⟩
    cases hpa with
    | manifest => exact .inl hp
    | handler hf hl => exact .inr ⟨_, hf, _, hl, hp⟩
  · rintro (hp | ⟨fields, hf, lang, hl, hp⟩)
    · exact ⟨_, .manifest, hp⟩
    · exact ⟨_, .handler hf hl, hp⟩

theorem gathers_parseFunctionFields (c : Checkout) (directory : Path) (fields : List (String × Json)) :
    Gathers (parseFunctionFields c directory fields) (fun _ => True) (HandlerPlace c directory fields) := by
  refine .lift fun env _ => .lift fun lang hl => ?_
  refine (gathers_readHandler c directory lang).bind (S := fun _ _ => False) (fun r => ?_) (fun r hr => ?_)
    fun r hr place => ?_
  · cases r with
    | none => exact .pure trivial
    | some code => exact .map maintains_lift
  · obtain ⟨code, rfl⟩ := Option.isSome_iff_exists.mp hr
    exact .lift fun data _ => .pure trivial
  · simp [HandlerPlace, hl]

theorem gathers_parseFunction (c : Checkout) (directory : Path) : Gathers (parseFunction c directory) (fun _ => True)
    (PlaceOf c (FunctionFile c directory)) := by
  unfold parseFunction
  split
  · refine Gathers.congr (Gathers.loadYaml_bind (fun r => ?_) fun fields hf => ?_) fun place => functionFile_iff
    · cases r with
      | none => exact .pure trivial
      | some fields => exact (gathers_parseFunctionFields c directory fields).faulty
    · refine (gathers_parseFunctionFields c directory fields).congr fun place => ⟨?_, fun h => ⟨fields, hf, h⟩⟩
      rintro ⟨fs', hf', h⟩
      obtain rfl := Option.some.inj (hf.symm.trans hf')
      exact h
  · exact .addError (.pure trivial)

/-! ### Directories -/

section Directories

variable {parse : Path → Parse (Option α)} {R : Path → List FileName → Prop}

theorem gathers_parseEach (h : ∀ path, Gathers (parse path) (fun _ => True) (R path)) (l : List FileName) :
    Gathers (parseEach c directory parse l) (fun _ => True) fun place =>
      ∃ name ∈ l, isDir c.root (directory.child name) = true ∧ R (directory.child name) place := by
  induction l with
  | nil => exact (Gathers.pure trivial).congr fun place => by simp
  | cons name rest ih =>
    unfold parseEach
    split
    · rename_i hd
      refine (h (directory.child name)).bind
        (S := fun _ place => ∃ name ∈ rest, isDir c.root (directory.child name) = true ∧
          R (directory.child name) place)
        (fun _ => .bind ih.faulty fun _ _ => .pure trivial) (fun item _ => ?_) fun _ _ place => ?_
      · refine ih.bind (S := fun _ _ => False) (fun _ => .pure trivial) (fun its _ => .pure trivial)
          fun _ _ place => ?_
        simp
      · simp [hd]
    · rename_i hd
      refine ih.congr fun place => ?_
      simp [hd]

theorem mem_sortedNames : name ∈ sortedNames c directory ↔ name ∈ names c.root directory := List.mem_insertionSort _

theorem names_of_not_isDir (h : isDir c.root directory = false) : names c.root directory = [] := by
  unfold isDir at h
  unfold names
  split at h
  · cases h
  · rfl

theorem gathers_parseAll (h : ∀ path, Gathers (parse path) (fun _ => True) (R path)) :
    Gathers (parseAll c directory parse) (fun _ => True) (InSubdirectory c directory R) := by
  unfold parseAll
  split
  · refine (gathers_parseEach h _).congr fun place => ?_
    simp only [mem_sortedNames]
  · rename_i hd
    refine (Gathers.pure trivial).congr fun place => ?_
    simp [names_of_not_isDir (by simpa using hd)]

end Directories

theorem serviceFile_iff : PlaceOf c (ServiceFile c directory) place ↔
    resolve c.root (directory.child serviceYaml) = some place ∨
      InSubdirectory c (directory.child functions) (fun d => PlaceOf c (FunctionFile c d)) place := by
  constructor
  · rintro ⟨path, hpa, hp⟩
    cases hpa with
    | manifest => exact .inl hp
    | function hn hd hf => exact .inr ⟨_, hn, hd, _, hf, hp⟩
  · rintro (hp | ⟨name, hn, hd, path, hf, hp⟩)
    · exact ⟨_, .manifest, hp⟩
    · exact ⟨_, .function hn hd hf, hp⟩

theorem gathers_parseServiceFields (c : Checkout) (directory : Path) (fields : List (String × Json)) :
    Gathers (parseServiceFields c directory fields) (fun r => r.isSome = true)
      (InSubdirectory c (directory.child functions) fun d => PlaceOf c (FunctionFile c d)) := by
  refine .lift fun _ _ => .lift fun _ _ => ?_
  refine (gathers_parseAll (gathers_parseFunction c)).bind (S := fun _ _ => False) (fun _ => .pure trivial)
    (fun _ _ => .pure rfl) fun _ _ place => ?_
  simp

theorem gathers_parseSingleService (c : Checkout) (directory : Path) :
    Gathers (parseSingleService c directory) (fun r => r.isSome = true)
      (PlaceOf c (ServiceFile c directory)) := by
  unfold parseSingleService
  split
  · refine Gathers.congr (Gathers.loadYaml_bind (fun r => ?_) fun fields _ =>
      gathers_parseServiceFields c directory fields)
      fun place => serviceFile_iff
    cases r with
    | none => exact .pure trivial
    | some fields => exact (gathers_parseServiceFields c directory fields).faulty
  · exact .addError (.pure trivial)

theorem gathers_parseAgent (c : Checkout) (directory : Path) : Gathers (parseAgent c directory) (fun _ => True)
    (AgentPlace c directory) := by
  unfold parseAgent
  split
  · refine Gathers.congr (Gathers.loadYaml_bind (R := fun _ => False) (fun r => ?_) fun fields _ =>
      ?_) fun place => by simp
    · cases r with
      | none => exact .pure trivial
      | some fields => exact .map maintains_lift
    · exact .lift fun _ _ => .pure trivial
  · exact .addError (.pure trivial)

theorem namespaceFile_iff : PlaceOf c (NamespaceFile c directory) place ↔
    resolve c.root (directory.child namespaceYaml) = some place ∨
      InSubdirectory c (directory.child services) (fun d => PlaceOf c (ServiceFile c d)) place ∨
        InSubdirectory c (directory.child agents) (AgentPlace c) place := by
  constructor
  · rintro ⟨path, hpa, hp⟩
    cases hpa with
    | manifest => exact .inl hp
    | service hn hd hf => exact .inr (.inl ⟨_, hn, hd, _, hf, hp⟩)
    | agent hn hd => exact .inr (.inr ⟨_, hn, hd, hp⟩)
  · rintro (hp | ⟨name, hn, hd, path, hf, hp⟩ | ⟨name, hn, hd, hp⟩)
    · exact ⟨_, .manifest, hp⟩
    · exact ⟨_, .service hn hd hf, hp⟩
    · exact ⟨_, .agent hn hd, hp⟩

theorem gathers_complain : Gathers (addError msg) (fun _ => True) fun _ => False := by
  refine ⟨maintains_addError msg, fun p a p' h hc => absurd ?_ hc⟩
  have hf := addError_faulty msg p
  rw [h] at hf
  exact hf

theorem gathers_requireField (key exp : String) (com : String → String) :
    Gathers (requireField fields key exp com) (fun _ => True) fun _ => False := by
  unfold requireField
  dsimp only
  split
  · split
    · exact .pure trivial
    · exact gathers_complain _
  · exact gathers_complain _

theorem gathers_raiseErrors : Gathers raiseErrors (fun _ => True) fun _ => False := by
  refine ⟨.fetch fun _ _ _ _ => trivial, fun p a p' h _ => ⟨trivial, fun place => ?_⟩⟩
  obtain ⟨-, rfl⟩ := Prod.mk.inj h
  simp

theorem Gathers.step {m : Parse α} {f : α → Parse β} {Q' : β → Prop}
    (hm : Gathers m Q fun _ => False) (hf : ∀ a, Gathers (f a) Q' R) : Gathers (m >>= f) Q' R :=
  hm.bind (fun a => (hf a).faulty) (fun a _ => hf a) fun _ _ place => by simp

theorem gathers_parseNamespaceFields (c : Checkout) (directory : Path) (fields : List (String × Json)) :
    Gathers (parseNamespaceFields c directory fields) (fun _ => True) fun place =>
      InSubdirectory c (directory.child services) (fun d => PlaceOf c (ServiceFile c d)) place ∨
        InSubdirectory c (directory.child agents) (AgentPlace c) place := by
  refine (gathers_requireField ..).step fun _ => (gathers_requireField ..).step fun _ => .lift fun name _ => ?_
  have hn : Gathers (requireName name) (fun _ => True) fun _ => False := by
    unfold requireName
    split
    · exact .pure trivial
    · exact gathers_complain _
  have hr : ∀ svcs : List ServiceData, Gathers (do
      let agts ← parseAgents c (directory.child agents)
      raiseErrors
      let description ← lift (getKey (section? fields "metadata") "description")
      pure ({ name, description, services := svcs, agents := agts } : NamespaceData) : Parse _)
      (fun _ => True) (InSubdirectory c (directory.child agents) (AgentPlace c)) := by
    intro svcs
    refine (gathers_parseAll (gathers_parseAgent c)).bind (S := fun _ _ => False) (fun _ => ?_) (fun _ _ => ?_)
      fun _ _ place => by simp
    · exact .bind gathers_raiseErrors.faulty fun _ _ => .map maintains_lift
    · exact gathers_raiseErrors.step fun _ => .lift fun _ _ => .pure trivial
  refine hn.step fun _ => ?_
  exact (gathers_parseAll fun path => (gathers_parseSingleService c path).forget).bind (fun svcs => (hr svcs).faulty)
    (fun svcs _ => hr svcs) fun _ _ place => Iff.rfl

/-! ### What is imported -/

def Checked (m : Parse α) : Prop := ∀ p a p', m p = (.ok a, p') → ¬ Faulty p'

theorem Checked.bind {m : Parse α} {f : α → Parse β} (hf : ∀ a, Checked (f a)) : Checked (m >>= f) := by
  intro p b p'' h
  obtain ⟨a, p', -, hb⟩ := Session.bind_eq_ok.mp h
  exact hf a p' b p'' hb

theorem checked_raiseErrors_bind {f : Unit → Parse α} (hf : Keeps Progress.errors (f ())) :
    Checked (raiseErrors >>= f) := by
  intro p a p' h
  obtain ⟨u, q, hr, ha⟩ := Session.bind_eq_ok.mp h
  have hc : (if p.errors = [] then .ok () else .error (.validation p.errors) : Except ImportError Unit) = .ok u :=
    (Prod.mk.inj hr).1
  obtain rfl : p = q := (Prod.mk.inj hr).2
  have hk := hf p
  rw [ha] at hk
  split at hc
  · rename_i hn
    rw [hn] at hk
    exact fun hfa => hfa hk
  · cases hc

theorem keeps_lift {r : Except ApiError α} : Keeps Progress.errors (lift r) := .fetch _

theorem checked_parseNamespaceFields (c : Checkout) (directory : Path) (fields : List (String × Json)) :
    Checked (parseNamespaceFields c directory fields) :=
  .bind fun _ => .bind fun _ => .bind fun _ => .bind fun _ => .bind fun _ => .bind fun _ =>
    checked_raiseErrors_bind (.bind keeps_lift fun _ => .pure _)

theorem sources_validateAndParse {data : NamespaceData} (h : validateAndParse c {} = (.ok data, p)) :
    ∃ directory, namespaceDir c = .ok directory ∧
      ∀ place, place ∈ p.sources ↔ PlaceOf c (NamespaceFile c directory) place := by
  obtain ⟨directory, q, hfe, h⟩ := Session.bind_eq_ok.mp h
  obtain ⟨hd, rfl⟩ : namespaceDir c = .ok directory ∧ ({} : Progress) = q := Prod.mk.inj hfe
  refine ⟨directory, hd, fun place => ?_⟩
  obtain ⟨r, q, hl, hb⟩ := Session.bind_eq_ok.mp h
  cases r with
  | none => cases (Prod.mk.inj hb).1
  | some fields =>
    have hr : parseNamespaceFields c directory fields q = (.ok data, p) := hb
    have hc : ¬ Faulty p := checked_parseNamespaceFields c directory fields q data p hr
    have hf := gathers_parseNamespaceFields c directory fields
    have hq : ¬ Faulty q := by
      intro hfa
      have hk := (hf.faulty q hfa).1
      rw [hr] at hk
      exact hc hk
    rw [(hf.clean q data p hr hc).2, ((gathers_loadYaml c directory namespaceYaml).clean _ _ q hl hq).2,
      namespaceFile_iff, or_assoc]
    simp

theorem checked_parseService_rest (svc : Option ServiceData) : Checked (do
    raiseErrors
    match svc with
    | some data => pure data
    | none => Session.raise (.validation []) : Parse ServiceData) := by
  refine checked_raiseErrors_bind ?_
  cases svc with
  | some data => exact .pure _
  | none => exact .raise _

theorem sources_parseService {sv : String} {data : ServiceData}
    (h : parseService c sv {} = (.ok data, p)) :
    ∃ directory, serviceDir c sv = some directory ∧
      ∀ place, place ∈ p.sources ↔ PlaceOf c (ServiceFile c directory) place := by
  cases hd : serviceDir c sv with
  | none =>
    simp only [parseService, hd] at h
    cases h
  | some directory =>
    refine ⟨directory, rfl, fun place => ?_⟩
    simp only [parseService, hd] at h
    obtain ⟨svc, q, hs, hr⟩ := Session.bind_eq_ok.mp h
    have hc : ¬ Faulty p := checked_parseService_rest svc q data p hr
    have hg : Gathers (do
        let svc ← parseSingleService c directory
        raiseErrors
        match svc with
        | some data => pure data
        | none => Session.raise (.validation []) : Parse ServiceData) (fun _ => True)
        (PlaceOf c (ServiceFile c directory)) := by
      refine (gathers_parseSingleService c directory).bind (S := fun _ _ => False) (fun svc => ?_) (fun svc hs => ?_)
        fun _ _ place => by simp
      · refine .bind gathers_raiseErrors.faulty fun _ _ => ?_
        cases svc with
        | some data => exact .pure trivial
        | none => exact .raise
      · obtain ⟨data, rfl⟩ := Option.isSome_iff_exists.mp hs
        exact gathers_raiseErrors.step fun _ => .pure trivial
    rw [(hg.clean _ data p h hc).2]
    simp

theorem inside_iff {F : Path → Prop}
    (h : ∀ place, place ∈ p.sources ↔ PlaceOf c F place) :
    (∀ place ∈ p.sources, c.directory <+: place) ↔ ∀ path, F path → Inside c path := by
  constructor
  · intro hin path hp place hpl
    exact hin place ((h place).mpr ⟨path, hp, hpl⟩)
  · intro hf place hm
    obtain ⟨path, hp, hpl⟩ := (h place).mp hm
    exact hf path hp place hpl

/-- An import that returns has its data from inside the clone exactly if the files of the layout, wherever their
paths lead, are inside. -/
theorem importConfined_iff (c : Checkout) (service : String) :
    (∀ data p, validateAndParse c {} = (.ok data, p) → ((∀ place ∈ p.sources, c.directory <+: place) ↔
      ∃ directory, namespaceDir c = .ok directory ∧ ∀ path, NamespaceFile c directory path → Inside c path)) ∧
    ∀ data p, parseService c service {} = (.ok data, p) → ((∀ place ∈ p.sources, c.directory <+: place) ↔
      ∃ directory, serviceDir c service = some directory ∧ ∀ path, ServiceFile c directory path → Inside c path) := by
  constructor
  · intro data p h
    obtain ⟨directory, hd, hs⟩ := sources_validateAndParse h
    rw [inside_iff hs, hd]
    simp
  · intro data p h
    obtain ⟨directory, hd, hs⟩ := sources_parseService h
    rw [inside_iff hs, hd]
    simp

/-! ### A clone with a link -/

def srv : FileName := ⟨"srv", by decide⟩

def repo : FileName := ⟨"repo", by decide⟩

def acme : FileName := ⟨"acme", by decide⟩

def mail : FileName := ⟨"mail", by decide⟩

def send : FileName := ⟨"send", by decide⟩

def etc : FileName := ⟨"etc", by decide⟩

def shadow : FileName := ⟨"shadow", by decide⟩

def manifestFile (j : Json) : Node Contents := .file (.text (terseYaml.dump j))

def acmeManifest : Json :=
  .obj [("apiVersion", .str "mcpworks/v1"), ("kind", .str "Namespace"), ("metadata", .obj [("name", .str "acme")])]

def mailService (handler : Node Contents) : Node Contents :=
  .dir [(serviceYaml, manifestFile (.obj [])),
    (functions, .dir [(send, .dir [(functionYaml, manifestFile (.obj [])), (handlerPy, handler)])])]

/-- The clone `/srv/repo` of a repository with the function `mail.send`, beside a service in `/srv/mail` and the
file `/etc/shadow`. -/
def cloneWith (handler : Node Contents) : Checkout where
  yaml := terseYaml
  root := .dir
    [(srv, .dir
        [(repo, .dir [(acme, .dir
          [(namespaceYaml, manifestFile acmeManifest), (services, .dir [(mail, mailService handler)])])]),
          (mail, mailService (.file (.text "theirs = 1")))]),
      (etc, .dir [(shadow, .file (.text "root:x"))])]
  directory := [srv, repo]

def importedCode (service : ServiceData) : List (Option String) := service.functions.map FunctionData.code

/-- A link for the code of a function brings in a file from outside, and so does a service name that leads up. -/
theorem import_leaves_clone :
    ((validateAndParse (cloneWith (.link "/etc/shadow")) {}).1.toOption.map fun data =>
      data.services.map importedCode) =
      some [[some "root:x"]] ∧
    [etc, shadow] ∈ (validateAndParse (cloneWith (.link "/etc/shadow")) {}).2.sources ∧
    ((parseService (cloneWith (.file (.text "ours = 1"))) "../../../mail" {}).1.toOption.map importedCode) =
      some [some "theirs = 1"] ∧
    [srv, mail, serviceYaml] ∈ (parseService (cloneWith (.file (.text "ours = 1"))) "../../../mail" {}).2.sources ∧
    ¬ [srv, repo] <+: [etc, shadow] ∧ ¬ [srv, repo] <+: [srv, mail, serviceYaml] := by
  decide +kernel

def plainClone : Checkout := cloneWith (.file (.text "ours = 1"))

theorem plain_clone_inside : (∃ data p, validateAndParse plainClone {} = (.ok data, p)) ∧
    (∃ data p, parseService plainClone "mail" {} = (.ok data, p)) ∧
    (∃ directory, namespaceDir plainClone = .ok directory ∧
      ∀ path, NamespaceFile plainClone directory path → Inside plainClone path) ∧
    ∃ directory, serviceDir plainClone "mail" = some directory ∧
      ∀ path, ServiceFile plainClone directory path → Inside plainClone path := by
  have hns : (validateAndParse plainClone {}).1.toOption.isSome = true := by decide +kernel
  have hsv : (parseService plainClone "mail" {}).1.toOption.isSome = true := by decide +kernel
  have hre : ∀ {α : Type} {m : Parse α}, (m {}).1.toOption.isSome = true → ∃ a, m {} = (.ok a, (m {}).2) := by
    intro α m hm
    cases hr : (m {}).1 with
    | ok a => exact ⟨a, Session.apply_of_ok hr⟩
    | error e =>
      rw [hr] at hm
      cases hm
  obtain ⟨data, hd⟩ := hre hns
  obtain ⟨svc, hs⟩ := hre hsv
  have hc := importConfined_iff plainClone "mail"
  refine ⟨⟨data, _, hd⟩, ⟨svc, _, hs⟩, (hc.1 data _ hd).mp ?_, (hc.2 svc _ hs).mp ?_⟩
  · decide +kernel
  · decide +kernel

end McpworksApi.Services.GitImport
