import McpworksApi.Run.CodeMode

/-! When the package of code mode keeps the stored functions apart. Service modules, wrappers and code files are named
by sanitised names, which are not one to one. -/

namespace McpworksApi.Run

open Models Py Services.Functions

variable {db : Db} {namespaceId : ℕ} {xs : List (Stored db namespaceId)} {x y : Stored db namespaceId}

def pairs (xs : List (Stored db namespaceId)) : List (Function × FunctionVersion) :=
  xs.map fun x => (x.function, x.version)

def inService (xs : List (Stored db namespaceId)) (service : String) : List (Stored db namespaceId) :=
  xs.filter (·.service.name.val = service)

def storedPath (x : Stored db namespaceId) : String := codePath x.service.name.val x.function.name.val

def storedFile (x : Stored db namespaceId) : CodeFile := ⟨storedPath x, x.function, x.version⟩

def storedWrapper (x : Stored db namespaceId) : Except ApiError Wrapper :=
  generateWrapper x.service.name.val x.function x.version

def definedNames (xs : List (Stored db namespaceId)) (service : String) : List String :=
  (inService xs service).map fun x => sanitize x.function.name.val

theorem stored_ext (h : x.function = y.function) : x = y := by
  obtain ⟨s, f, v, mem, live, hs, hns, hv⟩ := x
  obtain ⟨s', f', v', mem', live', hs', hn', hv'⟩ := y
  obtain rfl : f = f' := h
  obtain rfl : s = s' := Option.some.inj (hs.symm.trans hs')
  obtain rfl : v = v' := Option.some.inj (hv.symm.trans hv')
  rfl

theorem service_of_qualified
    (h : x.service.name.val ++ "." ++ x.function.name.val = y.service.name.val ++ "." ++ y.function.name.val) :
    x.service.name.val = y.service.name.val := by
  have hs := splitOnce_dot.mpr ⟨h, y.service.name.dot_not_mem⟩
  rw [splitOnce_dot.mpr ⟨rfl, x.service.name.dot_not_mem⟩] at hs
  exact (Prod.mk.inj (Option.some.inj hs)).1

/-! ### Grouping by service -/

/-- The groups are the services, each with all of its functions. -/
structure Grouped (xs : List (Stored db namespaceId)) (groups : List (String × List (Function × FunctionVersion))) :
    Prop where
  members : ∀ g ∈ groups, ∃ x ∈ xs, g = (x.service.name.val, pairs (inService xs x.service.name.val))
  complete : ∀ x ∈ xs, (x.service.name.val, pairs (inService xs x.service.name.val)) ∈ groups

theorem inService_concat_self : inService (xs ++ [x]) x.service.name.val =
    inService xs x.service.name.val ++ [x] := by
  simp [inService]

theorem inService_concat_of_ne {service : String} (h : x.service.name.val ≠ service) :
    inService (xs ++ [x]) service = inService xs service := by
  simp [inService, h]

theorem mem_inService {service : String} : x ∈ inService xs service ↔ x ∈ xs ∧ x.service.name.val = service := by
  simp [inService]

theorem pairs_append (l l' : List (Stored db namespaceId)) : pairs (l ++ l') = pairs l ++ pairs l' := List.map_append

theorem Grouped.concat {groups : List (String × List (Function × FunctionVersion))} (h : Grouped xs groups)
    (x : Stored db namespaceId) :
    Grouped (xs ++ [x]) (addToService groups x.service.name.val (x.function, x.version)) := by
  have hs : pairs (inService (xs ++ [x]) x.service.name.val) =
      pairs (inService xs x.service.name.val) ++ [(x.function, x.version)] := by
    rw [inService_concat_self, pairs_append]
    rfl
  unfold addToService
  split
  · rename_i ha
    constructor
    · intro g hg
      obtain ⟨g', hg', rfl⟩ := List.mem_map.mp hg
      obtain ⟨y, hy, rfl⟩ := h.members g' hg'
      refine ⟨y, List.mem_append_left _ hy, ?_⟩
      dsimp only
      split
      · rename_i heq
        rw [heq, hs]
      · rename_i hne
        rw [inService_concat_of_ne (Ne.symm hne)]
    · intro y hy
      by_cases heq : y.service.name.val = x.service.name.val
      · obtain ⟨g, hg, hna⟩ := List.any_eq_true.mp ha
        obtain ⟨z, -, rfl⟩ := h.members g hg
        have hz : z.service.name.val = x.service.name.val := by simpa using hna
        refine List.mem_map.mpr ⟨_, hg, ?_⟩
        rw [if_pos hz, hz, heq, hs]
      · have hm : y ∈ xs := by
          rcases List.mem_append.mp hy with hy | hy
          · exact hy
          · exact absurd (by rw [List.mem_singleton.mp hy]) heq
        refine List.mem_map.mpr ⟨_, h.complete y hm, ?_⟩
        rw [if_neg heq, inService_concat_of_ne (Ne.symm heq)]
  · rename_i hnw
    have hn : inService xs x.service.name.val = [] := by
      refine List.filter_eq_nil_iff.mpr fun y hy heq => hnw ?_
      exact List.any_eq_true.mpr ⟨_, h.complete y hy, heq⟩
    have hf : pairs (inService (xs ++ [x]) x.service.name.val) = [(x.function, x.version)] := by
      rw [hs, hn]
      rfl
    have ho : ∀ y ∈ xs, y.service.name.val ≠ x.service.name.val := by
      intro y hy heq
      have hm := mem_inService.mpr ⟨hy, heq⟩
      rw [hn] at hm
      cases hm
    constructor
    · intro g hg
      rcases List.mem_append.mp hg with hg | hg
      · obtain ⟨y, hy, rfl⟩ := h.members g hg
        refine ⟨y, List.mem_append_left _ hy, ?_⟩
        rw [inService_concat_of_ne (ho y hy).symm]
      · refine ⟨x, List.mem_append_right _ (List.mem_singleton_self x), ?_⟩
        rw [List.mem_singleton.mp hg, hf]
    · intro y hy
      rcases List.mem_append.mp hy with hy | hy
      · refine List.mem_append_left _ ?_
        rw [inService_concat_of_ne (ho y hy).symm]
        exact h.complete y hy
      · rw [List.mem_singleton.mp hy, hf]
        exact List.mem_append_right _ (List.mem_singleton_self _)

theorem grouped_byService (xs : List (Stored db namespaceId)) : Grouped xs (byService db (pairs xs)) := by
  induction xs using List.reverseRecOn with
  | nil => exact ⟨fun g hg => absurd hg List.not_mem_nil, fun x hx => absurd hx List.not_mem_nil⟩
  | append_singleton xs x ih =>
    have hs : byService db (pairs (xs ++ [x])) =
        addToService (byService db (pairs xs)) x.service.name.val (x.function, x.version) := by
      rw [pairs_append, byService, byService, List.foldl_append]
      simp only [pairs, List.map_cons, List.map_nil, List.foldl_cons, List.foldl_nil, x.serviceOf_eq]
    rw [hs]
    exact ih.concat x

variable {py : Python} {namespaceName : String} {pkg : FunctionsPackage} {w : Wrapper} {wrappers : List Wrapper}

theorem modulePath_inj {a b : String} : modulePath a = modulePath b ↔ sanitize a = sanitize b := by
  refine ⟨fun h => ?_, fun h => by rw [modulePath, modulePath, h]⟩
  have hc := congrArg String.toList h
  simp only [modulePath, String.toList_append, List.append_assoc, List.append_cancel_left_eq,
    List.append_cancel_right_eq] at hc
  exact String.toList_injective hc

/-! ### Wrappers and modules -/

/-- The wrapper was generated for this function. -/
structure WrapperOf (x : Stored db namespaceId) (w : Wrapper) : Prop where
  name : w.name = sanitize x.function.name.val
  qualified : w.qualified = x.service.name.val ++ "." ++ x.function.name.val
  params : paramsFromSchema x.version.inputSchema = .ok w.params
  codeFile : x.version.language = .python → w.codeFile = some (storedPath x)

theorem wrapperOf_storedWrapper (h : storedWrapper x = .ok w) : WrapperOf x w := by
  obtain ⟨ps, hp, h⟩ := bind_eq_ok.mp h
  cases hl : x.version.language with
  | python =>
    rw [hl] at h
    obtain rfl := Except.ok.inj h
    exact ⟨rfl, rfl, hp, fun _ => rfl⟩
  | typescript =>
    rw [hl] at h
    obtain rfl := Except.ok.inj h
    exact ⟨rfl, rfl, hp, fun hpy => by cases hl.symm.trans hpy⟩

def ModuleOf (xs : List (Stored db namespaceId)) (service : String) (wrappers : List Wrapper) : Prop :=
  List.Forall₂ (fun x w => storedWrapper x = .ok w) (inService xs service) wrappers

theorem generateServiceModule_eq_ok {service : String} {m : String × List Wrapper} :
    generateServiceModule (service, pairs (inService xs service)) = .ok m ↔
      m.1 = modulePath service ∧ ModuleOf xs service m.2 := by
  have hsa : (inService xs service).map (fun x => generateWrapper service x.function x.version) =
      (inService xs service).map storedWrapper :=
    List.map_congr_left fun x hx => by rw [storedWrapper, (mem_inService.mp hx).2]
  have hws : ∀ ws, (pairs (inService xs service)).mapM (fun p => generateWrapper service p.1 p.2) = .ok ws ↔
      ModuleOf xs service ws := by
    intro ws
    rw [mapM_eq_ok, pairs, List.forall₂_map_left_iff, ModuleOf,
      ← List.forall₂_map_left_iff (f := fun x : Stored db namespaceId => generateWrapper service x.function x.version)
        (R := fun r w => r = .ok w), hsa, List.forall₂_map_left_iff]
  unfold generateServiceModule
  simp only [bind_eq_ok, hws, pure, Except.pure, Except.ok.injEq]
  constructor
  · rintro ⟨ws, hm, rfl⟩
    exact ⟨rfl, hm⟩
  · rintro ⟨hp, hm⟩
    exact ⟨m.2, hm, by rw [← hp]⟩

section Package

variable (hpkg : functionsPackage db namespaceName (pairs xs) = .ok pkg)

include hpkg

theorem functionsPackage_parts : ∃ mods,
    List.Forall₂ (fun g m => generateServiceModule g = .ok m) (byService db (pairs xs)) mods ∧
      pkg.modules = mods.foldl (upsert Prod.fst) [] ∧ pkg.catalog = catalog namespaceName (byService db (pairs xs)) ∧
      pkg.imports = (sortedServices (byService db (pairs xs))).flatMap
        (fun s => s.2.map fun p => (s.1, p.1.name.val)) ∧
      pkg.code = generateFunctionsPackage db (pairs xs) := by
  obtain ⟨mods, hm, h⟩ := bind_eq_ok.mp hpkg
  obtain rfl := Except.ok.inj h
  exact ⟨mods, mapM_eq_ok.mp hm, rfl, rfl, rfl, rfl⟩

theorem exists_module (hx : x ∈ xs) : ∃ wrappers, pkg.module x.service.name.val = some wrappers ∧
    ∃ y ∈ xs, sanitize y.service.name.val = sanitize x.service.name.val ∧
      ModuleOf xs y.service.name.val wrappers := by
  obtain ⟨mods, hmo, hp, -, -, -⟩ := functionsPackage_parts hpkg
  obtain ⟨m, hm, hge⟩ := exists_of_mem_left hmo ((grouped_byService xs).complete x hx)
  have hpa : m.1 = modulePath x.service.name.val := (generateServiceModule_eq_ok.mp hge).1
  obtain ⟨m', hm', hk, hf⟩ := find?_foldl_upsert Prod.fst hm
  rw [hpa] at hk hf
  obtain ⟨g, hg, hg'⟩ := exists_of_mem_right hmo hm'
  obtain ⟨y, hy, rfl⟩ := (grouped_byService xs).members g hg
  obtain ⟨hp', hof⟩ := generateServiceModule_eq_ok.mp hg'
  refine ⟨m'.2, ?_, y, hy, ?_, hof⟩
  · rw [FunctionsPackage.module, hp, hf]
    rfl
  · exact modulePath_inj.mp (hp'.symm.trans hk)

theorem mem_imports {i : String × String} :
    i ∈ pkg.imports ↔ ∃ x ∈ xs, i = (x.service.name.val, x.function.name.val) := by
  obtain ⟨-, -, -, -, him, -⟩ := functionsPackage_parts hpkg
  rw [him, List.mem_flatMap]
  constructor
  · rintro ⟨g, hg, hi⟩
    obtain ⟨y, -, rfl⟩ := (grouped_byService xs).members g ((List.mem_insertionSort _).mp hg)
    obtain ⟨p, hp, rfl⟩ := List.mem_map.mp hi
    obtain ⟨x, hx, rfl⟩ := List.mem_map.mp hp
    obtain ⟨hm, hs⟩ := mem_inService.mp hx
    refine ⟨x, hm, ?_⟩
    rw [hs]
  · rintro ⟨x, hx, rfl⟩
    refine ⟨_, (List.mem_insertionSort _).mpr ((grouped_byService xs).complete x hx), List.mem_map.mpr ?_⟩
    exact ⟨(x.function, x.version), List.mem_map.mpr ⟨x, mem_inService.mpr ⟨hx, rfl⟩, rfl⟩, rfl⟩

end Package

theorem ModuleOf.names {service : String} (h : ModuleOf xs service wrappers) :
    wrappers.map Wrapper.name = definedNames xs service := by
  unfold ModuleOf at h
  unfold definedNames
  generalize inService xs service = l at h
  induction h with
  | nil => rfl
  | cons hw _ ih =>
    rw [List.map_cons, List.map_cons, ih, (wrapperOf_storedWrapper hw).name]

theorem ModuleOf.wrapper {svc : String} (h : ModuleOf xs svc wrappers) (hw : w ∈ wrappers) :
    ∃ x ∈ xs, x.service.name.val = svc ∧ storedWrapper x = .ok w := by
  obtain ⟨x, hx, hg⟩ := exists_of_mem_right h hw
  obtain ⟨hm, hs⟩ := mem_inService.mp hx
  exact ⟨x, hm, hs, hg⟩

theorem ModuleOf.exists_wrapper (h : ModuleOf xs x.service.name.val wrappers) (hx : x ∈ xs) :
    ∃ w ∈ wrappers, storedWrapper x = .ok w :=
  exists_of_mem_left h (mem_inService.mpr ⟨hx, rfl⟩)

theorem storedPath_eq {svc : String} (h : x.service.name.val = svc) :
    storedPath x = "functions/_code/" ++ sanitize svc ++ "__" ++ sanitize x.function.name.val ++ ".py" := by
  unfold storedPath codePath
  rw [h]

theorem code_of_functions (xs : List (Stored db namespaceId)) : ∃ files : List CodeFile,
    generateFunctionsPackage db (pairs xs) = files.foldl (upsert CodeFile.path) [] ∧
    (∀ c ∈ files, ∃ x ∈ xs, x.version.language = .python ∧ c = storedFile x) ∧
    ∀ x ∈ xs, x.version.language = .python → storedFile x ∈ files := by
  refine ⟨_, foldl_addFile _, ?_, ?_⟩
  · intro c hc
    obtain ⟨g, hg, hc⟩ := List.mem_flatMap.mp hc
    obtain ⟨y, -, rfl⟩ := (grouped_byService xs).members g hg
    obtain ⟨p, hp, rfl⟩ := List.mem_map.mp hc
    obtain ⟨hp, hk⟩ := List.mem_filter.mp hp
    obtain ⟨x, hx, rfl⟩ := List.mem_map.mp hp
    obtain ⟨hm, hs⟩ := mem_inService.mp hx
    refine ⟨x, hm, ?_, ?_⟩
    · cases hl : x.version.language with
      | python => rfl
      | typescript => simp [hl] at hk
    · rw [storedFile, storedPath_eq hs]
  · intro x hx hl
    refine List.mem_flatMap.mpr ⟨_, (grouped_byService xs).complete x hx, List.mem_map.mpr ?_⟩
    have hm : (x.function, x.version) ∈ pairs (inService xs x.service.name.val) :=
      List.mem_map.mpr ⟨x, mem_inService.mpr ⟨hx, rfl⟩, rfl⟩
    refine ⟨(x.function, x.version), List.mem_filter.mpr ⟨hm, by simp [hl]⟩, ?_⟩
    rw [storedFile, storedPath_eq rfl]

/-! ### The law -/

/-- A wrapper that executes the code of its function, beside the functions `defs` of its module: its text
is in order, and nothing hides the names that it uses. -/
structure SoundWrapper (py : Python) (defs : List String) (code : String) (w : Wrapper) : Prop where
  compiles : w.compiles py = true
  directory : ∀ p ∈ w.params, p.name ≠ "__file__"
  exec : shadows defs w.params "exec" = false
  dict : w.params.isEmpty = true → "dict" ∉ defs
  callable : shadows defs w.params "callable" = true → ∀ args input, inputData w.params args = some input →
    ∀ g, py.globals "__exec__" code input = some g → g.result = true ∨ g.output = true

/-- Neither the modules nor the files of two functions collide, and every generated text is in order. -/
structure Separable (py : Python) (namespaceName : String) (xs : List (Stored db namespaceId)) : Prop where
  python : ∀ x ∈ xs, x.version.language = .python
  modules : ∀ x ∈ xs, ∀ y ∈ xs, sanitize x.service.name.val = sanitize y.service.name.val →
    x.service.name.val = y.service.name.val
  files : ∀ x ∈ xs, ∀ y ∈ xs, storedPath x = storedPath y → x.function = y.function
  services : ∀ x ∈ xs, isIdentifier (sanitize x.service.name.val) = true
  wrappers : ∀ x ∈ xs, ∃ w, storedWrapper x = .ok w ∧
    SoundWrapper py (definedNames xs x.service.name.val) (storedFile x).text w
  catalog : xs ≠ [] → fitsDocstring py.charName (catalog namespaceName (byService db (pairs xs))) = true

/-- The package has a function of its own file, its module defines its wrapper, and a call of the wrapper with
any arguments that it takes executes the file of the function and no other. -/
structure Packaged (py : Python) (pkg : FunctionsPackage) (x : Stored db namespaceId) : Prop where
  file : pkg.code.find? (·.path = storedPath x) = some (storedFile x)
  wrapper : ∃ wrappers w, pkg.module x.service.name.val = some wrappers ∧ w ∈ wrappers ∧
    w.name = sanitize x.function.name.val ∧ w.qualified = x.service.name.val ++ "." ++ x.function.name.val
  runs : ∀ params args input, paramsFromSchema x.version.inputSchema = .ok params →
    inputData params args = some input →
    ∃ run, pkg.call py x.service.name.val x.function.name.val args = some run ∧ run.file.function = x.function ∧
      run.file.version = x.version

def PackagesAll (py : Python) (namespaceName : String) (xs : List (Stored db namespaceId)) : Prop :=
  ∃ pkg, functionsPackage db namespaceName (pairs xs) = .ok pkg ∧ ∀ x ∈ xs, Packaged py pkg x

section Call

variable {fs : List CodeFile} {defs : List String} {args : Args} {input : List (String × Value)} {c : CodeFile}

/-! ### Calls of a wrapper -/

theorem Wrapper.call_of_file (hf : (w.codeFile.bind fun path => fs.find? (·.path = path)) = some c)
    (hin : inputData w.params args = some input) :
    w.call py fs defs args = if w.unhindered py defs args c.text input then
      some ⟨c, input, (py.globals "__exec__" c.text input).bind wrapperEntry⟩ else none := by
  rw [Wrapper.call, hin, hf]

def nullArgs (params : List Param) : Args := params.map fun p => (p.name, .null)

theorem get?_nullArgs {ps : List Param} {p : Param} (hp : p ∈ ps) : (nullArgs ps).get? p.name = some .null := by
  unfold Args.get? nullArgs
  obtain ⟨e, he⟩ : ∃ e, (ps.map fun p => (p.name, Json.null)).find? (·.1 = p.name) = some e := by
    refine Option.isSome_iff_exists.mp (List.find?_isSome.mpr ⟨_, List.mem_map_of_mem hp, by simp⟩)
  rw [he]
  obtain ⟨q, -, rfl⟩ := List.mem_map.mp (List.mem_of_find?_eq_some he)
  rfl

theorem exists_mapM_eq_some {α β : Type} {f : α → Option β} {l : List α} (h : ∀ a ∈ l, (f a).isSome = true) :
    ∃ r, l.mapM f = some r := by
  induction l with
  | nil => exact ⟨[], rfl⟩
  | cons a l ih =>
    obtain ⟨b, hb⟩ := Option.isSome_iff_exists.mp (h a List.mem_cons_self)
    obtain ⟨r, hr⟩ := ih fun a ha => h a (List.mem_cons_of_mem _ ha)
    exact ⟨b :: r, mapM_eq_some.mpr (.cons hb (mapM_eq_some.mp hr))⟩

theorem exists_inputData (ps : List Param) : ∃ input, inputData ps (nullArgs ps) = some input := by
  unfold inputData
  split
  · exact ⟨_, rfl⟩
  · rw [if_pos]
    · refine exists_mapM_eq_some fun p hp => ?_
      rw [get?_nullArgs hp]
      rfl
    · refine List.all_eq_true.mpr fun a ha => ?_
      obtain ⟨p, hp, rfl⟩ := List.mem_map.mp ha
      simpa using ⟨p, hp, rfl⟩

theorem soundWrapper_iff {code : String} (hco : w.compiles py = true) : SoundWrapper py defs code w ↔
    ∀ args input, inputData w.params args = some input → w.unhindered py defs args code input = true := by
  constructor
  · intro h args input hin
    unfold Wrapper.unhindered
    rw [h.exec]
    have hd : (!w.params.isEmpty || decide ("dict" ∉ defs)) = true := by
      cases he : w.params.isEmpty with
      | false => rfl
      | true => simpa [he] using h.dict he
    have hdi : (w.params.all fun p => p.name ≠ "__file__" ||
        ((args.get? p.name).or p.default).any py.ownDirectory) = true :=
      List.all_eq_true.mpr fun p hp => by simp [h.directory p hp]
    rw [hd, hdi]
    cases hg : py.globals "__exec__" code input with
    | none => rfl
    | some g =>
      cases hc : shadows defs w.params "callable" with
      | false => simp
      | true => simpa using h.callable hc args input hin g hg
  · intro h
    obtain ⟨input, hin⟩ := exists_inputData w.params
    have hn := h _ _ hin
    simp only [Wrapper.unhindered, Bool.and_eq_true, Bool.or_eq_true, Bool.not_eq_true', decide_eq_true_eq,
      List.all_eq_true] at hn
    obtain ⟨⟨⟨hd, hdi⟩, hex⟩, -⟩ := hn
    refine ⟨hco, fun p hp hna => ?_, hex, fun he => ?_, fun hc args input hin g hg => ?_⟩
    · have hdr := hdi p hp
      rw [get?_nullArgs hp] at hdr
      simp [hna, py.ownDirectory_null] at hdr
    · simpa [he] using hd
    · have hun := h args input hin
      simp only [Wrapper.unhindered, hg, hc, Bool.and_eq_true, Bool.or_eq_true, Bool.not_true, Bool.false_eq_true,
        or_false] at hun
      exact hun.2

end Call

section Package

variable (hpkg : functionsPackage db namespaceName (pairs xs) = .ok pkg)

include hpkg

theorem call_eq (hm : ∀ y ∈ xs, sanitize y.service.name.val = sanitize x.service.name.val →
      y.service.name.val = x.service.name.val)
    (hf : ∀ y ∈ xs, storedPath y = storedPath x → y.function = x.function) (hx : x ∈ xs)
    (hw : storedWrapper x = .ok w) (args : Args) :
    pkg.call py x.service.name.val x.function.name.val args =
      if pkg.loads py then w.call py pkg.code (definedNames xs x.service.name.val) args else none := by
  obtain ⟨wrappers, hmo, y, hy, hs, hof⟩ := exists_module hpkg hx
  rw [hm y hy hs] at hof
  have hfi : wrappers.reverse.find? (·.name = sanitize x.function.name.val) = some w := by
    obtain ⟨v, hv, hg⟩ := hof.exists_wrapper hx
    have hso : (wrappers.reverse.find? (·.name = sanitize x.function.name.val)).isSome = true :=
      List.find?_isSome.mpr ⟨v, List.mem_reverse.mpr hv, by simpa using (wrapperOf_storedWrapper hg).name⟩
    obtain ⟨u, hu⟩ := Option.isSome_iff_exists.mp hso
    have hn : u.name = sanitize x.function.name.val := by simpa using List.find?_some hu
    -- any wrapper of that name has the same code file, and so is that of the function
    obtain ⟨z, hz, hse, hzg⟩ := hof.wrapper (List.mem_reverse.mp (List.mem_of_find?_eq_some hu))
    have hp : storedPath z = storedPath x := by
      rw [storedPath_eq hse, storedPath_eq rfl, ← (wrapperOf_storedWrapper hzg).name, hn]
    obtain rfl := stored_ext (hf z hz hp)
    rw [hu, Except.ok.inj (hzg.symm.trans hw)]
  unfold FunctionsPackage.call
  rw [hmo]
  by_cases hl : pkg.loads py = true
  · simp only [hl, guard, if_true, Option.pure_def, Option.bind_eq_bind, Option.bind_some, hfi, hof.names]
  · simp [hl, guard]

theorem mem_code {c : CodeFile} (hc : c ∈ pkg.code) :
    ∃ x ∈ xs, x.version.language = .python ∧ c = storedFile x := by
  obtain ⟨-, -, -, -, -, hco⟩ := functionsPackage_parts hpkg
  obtain ⟨fss, hf, hfr, -⟩ := code_of_functions xs
  rw [hco, hf] at hc
  exact hfr c ((mem_foldl_upsert hc).resolve_left List.not_mem_nil)

theorem find?_code (hx : x ∈ xs) (hl : x.version.language = .python) : ∃ y ∈ xs, storedPath y = storedPath x ∧
    pkg.code.find? (·.path = storedPath x) = some (storedFile y) := by
  obtain ⟨-, -, -, -, -, hco⟩ := functionsPackage_parts hpkg
  obtain ⟨fss, hf, hfr, hto⟩ := code_of_functions xs
  obtain ⟨c, hc, hp, hfi⟩ := find?_foldl_upsert CodeFile.path (hto x hx hl)
  obtain ⟨y, hy, -, rfl⟩ := hfr c hc
  refine ⟨y, hy, hp, ?_⟩
  rw [hco, hf]
  exact hfi

theorem loads_iff : pkg.loads py = true ↔
    fitsDocstring py.charName (catalog namespaceName (byService db (pairs xs))) = true ∧
      ∀ x ∈ xs, pkg.imports? py x.service.name.val x.function.name.val = true := by
  obtain ⟨-, -, -, hc, -, -⟩ := functionsPackage_parts hpkg
  simp only [FunctionsPackage.loads, Bool.and_eq_true, List.all_eq_true, hc, mem_imports hpkg, Prod.forall]
  refine and_congr Iff.rfl ⟨fun h x hx => ?_, ?_⟩
  · exact h x.service.name.val x.function.name.val ⟨x, hx, rfl⟩
  · rintro h service function ⟨x, hx, hi⟩
    obtain ⟨hs, hf⟩ := Prod.mk.inj hi
    rw [hs, hf]
    exact h x hx

section Packaged

variable (hall : ∀ x ∈ xs, Packaged py pkg x)

include hall

/-! ### What a complete package implies -/

theorem python_of_packaged (hx : x ∈ xs) : x.version.language = .python := by
  obtain ⟨y, -, hl, heq⟩ := mem_code hpkg (List.mem_of_find?_eq_some (hall x hx).file)
  have hv : x.version = y.version := congrArg CodeFile.version heq
  rw [hv]
  exact hl

omit hpkg in
theorem function_of_packaged (hx : x ∈ xs) (hy : y ∈ xs) (hp : storedPath x = storedPath y) :
    x.function = y.function := by
  have hf := (hall x hx).file
  rw [hp, (hall y hy).file] at hf
  exact (congrArg CodeFile.function (Option.some.inj hf)).symm

theorem moduleOf_of_packaged (hx : x ∈ xs) : ∃ wrappers, pkg.module x.service.name.val = some wrappers ∧
    ModuleOf xs x.service.name.val wrappers := by
  obtain ⟨wrappers, w, hm, hw, -, hq⟩ := (hall x hx).wrapper
  refine ⟨wrappers, hm, ?_⟩
  obtain ⟨ws, hws, y, hy, -, hof⟩ := exists_module hpkg hx
  obtain rfl := Option.some.inj (hm.symm.trans hws)
  obtain ⟨z, -, hs, hg⟩ := hof.wrapper hw
  rw [← service_of_qualified ((wrapperOf_storedWrapper hg).qualified.symm.trans hq), hs]
  exact hof

theorem service_of_packaged (hx : x ∈ xs) (hy : y ∈ xs)
    (hs : sanitize x.service.name.val = sanitize y.service.name.val) : x.service.name.val = y.service.name.val := by
  obtain ⟨wrappers, hm, hx'⟩ := moduleOf_of_packaged hpkg hall hx
  obtain ⟨wrappers', hm', hy'⟩ := moduleOf_of_packaged hpkg hall hy
  -- the two services share one module, so its wrappers belong to both
  have hsa : wrappers = wrappers' := by
    rw [FunctionsPackage.module, modulePath_inj.mpr hs] at hm
    exact Option.some.inj (hm.symm.trans hm')
  obtain ⟨w, hw, hg⟩ := hx'.exists_wrapper hx
  obtain ⟨z, -, hse, hz⟩ := hy'.wrapper (hsa ▸ hw)
  rw [← hse]
  exact service_of_qualified
    ((wrapperOf_storedWrapper hg).qualified.symm.trans (wrapperOf_storedWrapper hz).qualified)

theorem unhindered_of_packaged (hx : x ∈ xs) (hw : storedWrapper x = .ok w) {args : Args}
    {input : List (String × Value)} (hin : inputData w.params args = some input) :
    pkg.loads py = true ∧
      w.unhindered py (definedNames xs x.service.name.val) args (storedFile x).text input = true := by
  obtain ⟨run, hr, -, -⟩ := (hall x hx).runs w.params args input (wrapperOf_storedWrapper hw).params hin
  rw [call_eq hpkg (fun y hy => service_of_packaged hpkg hall hy hx) (fun y hy => function_of_packaged hall hy hx) hx
    hw] at hr
  have hf : (w.codeFile.bind fun path => pkg.code.find? (·.path = path)) = some (storedFile x) := by
    rw [(wrapperOf_storedWrapper hw).codeFile (python_of_packaged hpkg hall hx)]
    exact (hall x hx).file
  split at hr
  · rename_i hl
    rw [Wrapper.call_of_file hf hin] at hr
    split at hr
    · rename_i hun
      exact ⟨hl, hun⟩
    · cases hr
  · cases hr

theorem loads_of_packaged (hx : x ∈ xs) : pkg.loads py = true := by
  obtain ⟨wrappers, -, hof⟩ := moduleOf_of_packaged hpkg hall hx
  obtain ⟨w, -, hw⟩ := hof.exists_wrapper hx
  obtain ⟨input, hin⟩ := exists_inputData w.params
  exact (unhindered_of_packaged hpkg hall hx hw hin).1

theorem separable_of_packaged : Separable py namespaceName xs := by
  refine ⟨fun x hx => python_of_packaged hpkg hall hx, fun x hx y hy => service_of_packaged hpkg hall hx hy,
    fun x hx y hy => function_of_packaged hall hx hy, fun x hx => ?_, fun x hx => ?_, fun hne => ?_⟩
  · have him := ((loads_iff hpkg).mp (loads_of_packaged hpkg hall hx)).2 x hx
    simp only [FunctionsPackage.imports?, Bool.and_eq_true] at him
    exact him.1.1
  · obtain ⟨wrappers, hm, hof⟩ := moduleOf_of_packaged hpkg hall hx
    obtain ⟨w, hme, hw⟩ := hof.exists_wrapper hx
    have him := ((loads_iff hpkg).mp (loads_of_packaged hpkg hall hx)).2 x hx
    simp only [FunctionsPackage.imports?, hm, Bool.and_eq_true, List.all_eq_true] at him
    refine ⟨w, hw, (soundWrapper_iff (him.2.1 w hme)).mpr fun args input hin => ?_⟩
    exact (unhindered_of_packaged hpkg hall hx hw hin).2
  · obtain ⟨x, hx⟩ := List.exists_mem_of_ne_nil xs hne
    exact ((loads_iff hpkg).mp (loads_of_packaged hpkg hall hx)).1

end Packaged

section Separable

variable (h : Separable py namespaceName xs)

include h

/-! ### What suffices for it -/

theorem Separable.moduleOf (hx : x ∈ xs) : ∃ wrappers, pkg.module x.service.name.val = some wrappers ∧
    ModuleOf xs x.service.name.val wrappers := by
  obtain ⟨wrappers, hm, y, hy, hs, hof⟩ := exists_module hpkg hx
  rw [h.modules y hy x hx hs] at hof
  exact ⟨wrappers, hm, hof⟩

theorem Separable.imports? (hx : x ∈ xs) : pkg.imports? py x.service.name.val x.function.name.val = true := by
  obtain ⟨wrappers, hm, hof⟩ := h.moduleOf hpkg hx
  obtain ⟨w, hw, hg⟩ := hof.exists_wrapper hx
  have hn := (wrapperOf_storedWrapper hg).name
  have hco : ∀ v ∈ wrappers, v.compiles py = true := by
    intro v hv
    obtain ⟨z, hz, -, hzg⟩ := hof.wrapper hv
    obtain ⟨v', hv', hs⟩ := h.wrappers z hz
    obtain rfl := Except.ok.inj (hzg.symm.trans hv')
    exact hs.compiles
  have hid : isBindable (sanitize x.function.name.val) = true := by
    have hc := hco w hw
    simp only [Wrapper.compiles, Bool.and_eq_true, hn] at hc
    exact hc.1.1.1
  simp only [FunctionsPackage.imports?, hm, Bool.and_eq_true]
  refine ⟨⟨h.services x hx, hid⟩, List.all_eq_true.mpr hco, ?_⟩
  exact List.any_eq_true.mpr ⟨w, hw, by simpa using hn⟩

theorem Separable.file (hx : x ∈ xs) : pkg.code.find? (·.path = storedPath x) = some (storedFile x) := by
  obtain ⟨y, hy, hp, hf⟩ := find?_code hpkg hx (h.python x hx)
  obtain rfl := stored_ext (h.files y hy x hx hp)
  exact hf

theorem Separable.packaged (hx : x ∈ xs) : Packaged py pkg x := by
  have hf := h.file hpkg hx
  refine ⟨hf, ?_, fun ps args input hp hin => ?_⟩
  · obtain ⟨wrappers, hm, hof⟩ := h.moduleOf hpkg hx
    obtain ⟨w, hw, hg⟩ := hof.exists_wrapper hx
    exact ⟨wrappers, w, hm, hw, (wrapperOf_storedWrapper hg).name, (wrapperOf_storedWrapper hg).qualified⟩
  · obtain ⟨w, hw, hs⟩ := h.wrappers x hx
    obtain rfl := Except.ok.inj (hp.symm.trans (wrapperOf_storedWrapper hw).params)
    have hb : (w.codeFile.bind fun path => pkg.code.find? (·.path = path)) = some (storedFile x) := by
      rw [(wrapperOf_storedWrapper hw).codeFile (h.python x hx)]
      exact hf
    have hl : pkg.loads py = true :=
      (loads_iff hpkg).mpr ⟨h.catalog (List.ne_nil_of_mem hx), fun y hy => h.imports? hpkg hy⟩
    rw [call_eq hpkg (fun y hy => h.modules y hy x hx) (fun y hy => h.files y hy x hx) hx hw, if_pos hl,
      Wrapper.call_of_file hb hin, if_pos ((soundWrapper_iff hs.compiles).mp hs args input hin)]
    exact ⟨_, rfl, rfl, rfl⟩

end Separable

end Package

theorem exists_functionsPackage (namespaceName : String) (h : ∀ x ∈ xs, ∃ w, storedWrapper x = .ok w) :
    ∃ pkg, functionsPackage db namespaceName (pairs xs) = .ok pkg := by
  obtain ⟨modules, hm⟩ : ∃ modules, (byService db (pairs xs)).mapM generateServiceModule = .ok modules := by
    refine exists_mapM_eq_ok fun g hg => ?_
    obtain ⟨y, -, rfl⟩ := (grouped_byService xs).members g hg
    obtain ⟨ws, hws⟩ := exists_mapM_eq_ok (l := inService xs y.service.name.val) fun x hx =>
      h x (List.mem_filter.mp hx).1
    exact ⟨(modulePath y.service.name.val, ws), generateServiceModule_eq_ok.mpr ⟨rfl, mapM_eq_ok.mp hws⟩⟩
  exact ⟨_, bind_eq_ok.mpr ⟨modules, hm, rfl⟩⟩

/-- The package of a list of stored functions has all of them exactly when they are separable. -/
theorem packaged_iff (py : Python) (namespaceName : String) (xs : List (Stored db namespaceId)) :
    PackagesAll py namespaceName xs ↔ Separable py namespaceName xs := by
  constructor
  · rintro ⟨pkg, hpkg, hall⟩
    exact separable_of_packaged hpkg hall
  · intro h
    obtain ⟨pkg, hpkg⟩ := exists_functionsPackage namespaceName fun x hx =>
      (h.wrappers x hx).imp fun _ hw => hw.1
    exact ⟨pkg, hpkg, fun x hx => h.packaged hpkg hx⟩

/-- The functions `a.b__c` and `a__b.c`. -/
def sharedFileDb : Db where
  namespaces := .single { id := 1, accountId := 2, name := .acme }
  services := (Table.single { id := 1, namespaceId := 1, name := ⟨"a", by decide⟩ }).insert fun i =>
    { id := i, namespaceId := 1, name := ⟨"a__b", by decide⟩ }
  functions := (Table.single { id := 1, serviceId := 1, name := ⟨"b__c", by decide⟩ }).insert fun i =>
    { id := i, serviceId := 2, name := ⟨"c", by decide⟩ }
  versions := (Table.single { id := 1, functionId := 1, code := some "result = 1" }).insert fun i =>
    { id := i, functionId := 2, code := some "result = 2" }

def firstSharer : Stored sharedFileDb 1 := ⟨_, _, _, List.mem_cons_self, rfl, rfl, rfl, rfl⟩

def secondSharer : Stored sharedFileDb 1 :=
  ⟨_, _, _, List.mem_cons_of_mem _ List.mem_cons_self, rfl, rfl, rfl, rfl⟩

def resultPython : Python where
  charName _ := false
  ownDirectory _ := false
  ownDirectory_null := rfl
  globals _ _ _ := some { result := true }

/-- Only one code file is written for the two, and a call of the first runs the source of the second. -/
theorem shared_file_runs_other :
    ((functionsPackage sharedFileDb "acme" (pairs [firstSharer, secondSharer])).toOption.map fun pkg =>
        (pkg.code.map fun c => (c.path, c.text), (pkg.call resultPython "a" "b__c" []).map (·.file.text))) =
      some ([("functions/_code/a__b__c.py", "result = 2")], some "result = 2") ∧
    firstSharer.version.code = some "result = 1" ∧ ¬ PackagesAll resultPython "acme" [firstSharer, secondSharer] := by
  refine ⟨by decide +kernel, rfl, ?_⟩
  rintro ⟨pkg, -, hall⟩
  have hf := (hall firstSharer List.mem_cons_self).file
  have hs := (hall secondSharer (List.mem_cons_of_mem _ List.mem_cons_self)).file
  have hp : storedPath firstSharer = storedPath secondSharer := by decide +kernel
  rw [hp, hs] at hf
  exact absurd (congrArg (·.function.id) (Option.some.inj hf)) (by decide)

end McpworksApi.Run
