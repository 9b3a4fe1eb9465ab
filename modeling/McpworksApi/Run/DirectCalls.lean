import McpworksApi.Run.Calls
import McpworksApi.Run.PackageLaw

/-! Direct calls and calls in code mode. A stored Python function can be called as a tool: then `dispatch_tool` hands
its arguments on, and `deploy/nsjail/execute.py` runs the source with them. -/

namespace McpworksApi.Run

open Models Py Services.Functions

def jsonInput (args : Args) : List (String × Value) := args.map fun a => (a.1, .json a.2)

def valueAt (input : List (String × Value)) (key : String) : Option Value := (input.find? (·.1 = key)).map Prod.snd

def runnerEntry (g : Globals) : Option Entry :=
  if g.result then some .result
  else if g.output then some .output
  else if g.main then some .main
  else if g.handler then some .handler
  else none

theorem valueAt_jsonInput (args : Args) (key : String) :
    valueAt (jsonInput args) key = (args.get? key).map .json := by
  simp only [valueAt, jsonInput, Args.get?, List.find?_map, Option.map_map]
  rfl

/-- A call of the wrapper of `x` from the module of its service, in a package of the functions `xs` that keeps
its code file. -/
def wrapperRun {db : Db} {namespaceId : ℕ} (py : Python) (xs : List (Stored db namespaceId))
    (x : Stored db namespaceId)
    (args : Args) : Option SourceRun :=
  match storedWrapper x with
  | .error _ => none
  | .ok wrapper =>
    if wrapper.compiles py then wrapper.call py [storedFile x] (definedNames xs x.service.name.val) args else none

theorem find?_storedFile {db : Db} {namespaceId : ℕ} (x : Stored db namespaceId) :
    [storedFile x].find? (·.path = storedPath x) = some (storedFile x) :=
  List.find?_cons_of_pos (by simp [storedFile])

section Calls

variable (env : RunEnv) (py : Python) (h : RunHandler) (sandboxEnv : List (String × String)) (w : World)
  {namespaceId : ℕ} (xs : List (Stored w.db namespaceId)) (x : Stored w.db namespaceId) (args : Args)

def toolName {db : Db} (x : Stored db namespaceId) : String := x.service.name.val ++ "." ++ x.function.name.val

def CallsAgree : Prop :=
  ∃ c input run, (dispatchTool env h (toolName x) args sandboxEnv w).2.calls = w.calls ++ [c] ∧
    c.ran = [(x.function, x.version)] ∧ c.input = .obj input ∧
    wrapperRun py xs x args = some run ∧ run.file = storedFile x ∧
    (∀ key, valueAt (jsonInput input) key = valueAt run.input key) ∧
    (py.globals "__main__" (c.code.getD "") (jsonInput input)).bind runnerEntry = run.entry

structure Exact (params : List Param) (args : Args) : Prop where
  keys : ∀ key, (args.get? key).isSome = true ↔ key ∈ params.map Param.name
  untracked : "_track_call" ∉ params.map Param.name

def inOrder (params : List Param) (args : Args) : List (String × Value) :=
  if params.isEmpty then jsonInput args
  else params.map fun p => (p.name, .json ((args.get? p.name).getD .null))

/-- What a source leaves under two names settles on one entry: it binds the same of `result` and `output`, or else
no more than one of `main` and `handler`. -/
def Settled (g g' : Globals) : Prop :=
  g.result = g'.result ∧ (g.result = false → g.output = g'.output ∧ (g.output = false →
    (g.main = true ∧ g'.main = true ∧ g'.handler = false) ∨
      (g.main = false ∧ g.handler = true ∧ g'.handler = true) ∨
      (g.main = false ∧ g.handler = false ∧ g'.main = false ∧ g'.handler = false)))

structure PlainCall (wrapper : Wrapper) : Prop where
  reaches : ∃ ns, Reaches env h w.db (toolName x) sandboxEnv ns x.function x.version
  uncached : cachedOutput env x.function x.version args w = none
  code : x.version.code.getD "" ≠ ""
  compiles : wrapper.compiles py = true
  unhindered : wrapper.unhindered py (definedNames xs x.service.name.val) args (storedFile x).text
    (inOrder wrapper.params args) = true
  cache : args.get? "cache" = none
  keys : wrapper.params = [] ∨ Exact wrapper.params args
  settled : Settled ((py.globals "__main__" (storedFile x).text (jsonInput args)).getD {})
    ((py.globals "__exec__" (storedFile x).text (inOrder wrapper.params args)).getD {})

end Calls

theorem runnerEntry_eq_wrapperEntry_iff {g g' : Globals} : runnerEntry g = wrapperEntry g' ↔ Settled g g' := by
  grind [Settled, runnerEntry, wrapperEntry]

theorem bind_runnerEntry (o : Option Globals) : o.bind runnerEntry = runnerEntry (o.getD {}) := by
  cases o <;> rfl

theorem bind_wrapperEntry (o : Option Globals) : o.bind wrapperEntry = wrapperEntry (o.getD {}) := by
  cases o <;> rfl

section Input

variable {ps : List Param} {args : Args} {input : List (String × Value)} {key key' : String}

theorem isSome_find? {α : Type} {l : List (String × α)} :
    ((l.find? (·.1 = key)).map Prod.snd).isSome = true ↔ key ∈ l.map Prod.fst := by
  simp

theorem get?_isSome_iff : (args.get? key).isSome = true ↔ key ∈ args.map Prod.fst := isSome_find?

theorem valueAt_isSome_iff : (valueAt input key).isSome = true ↔ key ∈ input.map Prod.fst := isSome_find?

theorem get?_erase_self : (args.erase key).get? key = none := by
  simp [Args.get?, Args.erase]

theorem erase_of_get?_eq_none (h : args.get? key = none) : args.erase key = args := by
  refine List.filter_eq_self.mpr fun a ha => ?_
  have hne : a.1 ≠ key := by
    rintro rfl
    have hs := get?_isSome_iff.mpr (List.mem_map_of_mem ha)
    rw [h] at hs
    cases hs
  simpa using hne

theorem isSome_of_erase (h : ((args.erase key).get? key').isSome = true) : (args.get? key').isSome = true := by
  rw [get?_isSome_iff] at h ⊢
  obtain ⟨a, ha, rfl⟩ := List.mem_map.mp h
  exact List.mem_map_of_mem (List.mem_filter.mp ha).1

theorem inputData_of_exact (h : ps = [] ∨ Exact ps args) : inputData ps args = some (inOrder ps args) := by
  unfold inputData inOrder
  split
  · rfl
  · rename_i hne
    have he : Exact ps args := h.resolve_left fun hni => hne (by rw [hni]; rfl)
    rw [if_pos, mapM_eq_some, List.forall₂_map_right_iff, List.forall₂_same]
    · intro p hp
      have hn : p.name ∈ ps.map Param.name := List.mem_map_of_mem hp
      obtain ⟨j, hj⟩ := Option.isSome_iff_exists.mp ((he.keys p.name).mpr hn)
      have hu : p.name ≠ "_track_call" := fun heq => he.untracked (heq ▸ hn)
      simp [hj, hu]
    · refine List.all_eq_true.mpr fun a ha => ?_
      exact decide_eq_true ((he.keys a.1).mp (get?_isSome_iff.mpr (List.mem_map_of_mem ha)))

theorem valueAt_inOrder (h : ps = [] ∨ Exact ps args) (key : String) :
    valueAt (inOrder ps args) key = (args.get? key).map .json := by
  unfold inOrder
  split
  · exact valueAt_jsonInput args key
  · rename_i hne
    have he : Exact ps args := h.resolve_left fun hni => hne (by rw [hni]; rfl)
    rw [valueAt, List.find?_map, Option.map_map]
    by_cases hk : key ∈ ps.map Param.name
    · obtain ⟨j, hj⟩ := Option.isSome_iff_exists.mp ((he.keys key).mpr hk)
      obtain ⟨p, hp⟩ : ∃ p, ps.find? (fun p => decide (p.name = key)) = some p := by
        obtain ⟨q, hq, rfl⟩ := List.mem_map.mp hk
        exact Option.isSome_iff_exists.mp (List.find?_isSome.mpr ⟨q, hq, by simp⟩)
      have hn : p.name = key := by simpa using List.find?_some hp
      have hf : ps.find? ((fun e : String × Value => decide (e.1 = key)) ∘
          fun p => (p.name, .json ((args.get? p.name).getD .null))) = some p := hp
      rw [hf, hj]
      simp [hn, hj]
    · have hno : args.get? key = none := by
        rw [← Option.not_isSome_iff_eq_none]
        exact fun hs => hk ((he.keys key).mp hs)
      rw [hno]
      refine Option.map_eq_none_iff.mpr (List.find?_eq_none.mpr fun p hp hn => hk ?_)
      exact List.mem_map.mpr ⟨p, hp, by simpa using hn⟩

theorem parts_of_inputData (hne : ps ≠ []) (h : inputData ps args = some input) :
    (∀ a ∈ args, a.1 ∈ ps.map Param.name) ∧ input.map Prod.fst = ps.map Param.name ∧
      ∀ e ∈ input, e.1 = "_track_call" → e.2 = .function := by
  unfold inputData at h
  rw [if_neg (by simpa using hne)] at h
  split at h
  · rename_i hal
    have hf := mapM_eq_some.mp h
    refine ⟨fun a ha => of_decide_eq_true (List.all_eq_true.mp hal a ha), ?_, ?_⟩
    · clear h hal hne
      induction hf with
      | nil => rfl
      | cons hb _ ih =>
        obtain ⟨j, -, rfl⟩ := Option.map_eq_some_iff.mp hb
        rw [List.map_cons, List.map_cons, ih]
    · intro e he ht
      obtain ⟨p, -, hp⟩ := exists_of_mem_right hf he
      obtain ⟨j, -, rfl⟩ := Option.map_eq_some_iff.mp hp
      exact if_pos ht
  · cases h

theorem sameMapping_iff : (∃ input, inputData ps args = some input ∧
      ∀ key, valueAt (jsonInput (args.erase "cache")) key = valueAt input key) ↔
    args.get? "cache" = none ∧ (ps = [] ∨ Exact ps args) := by
  constructor
  · rintro ⟨input, hin, hsa⟩
    have hva : ∀ key, ((args.erase "cache").get? key).map Value.json = valueAt input key := by
      intro key
      rw [← hsa key, valueAt_jsonInput]
    -- the wrapper keeps whatever the caller gave
    have hc : valueAt input "cache" = none := by
      rw [← hva, get?_erase_self]
      rfl
    by_cases hn : ps = []
    · subst hn
      obtain rfl : jsonInput args = input := Option.some.inj hin
      refine ⟨?_, .inl rfl⟩
      rw [valueAt_jsonInput, Option.map_eq_none_iff] at hc
      exact hc
    · obtain ⟨hg, hk, htr⟩ := parts_of_inputData hn hin
      have hno : args.get? "cache" = none := by
        rw [← Option.not_isSome_iff_eq_none]
        intro hs
        obtain ⟨a, ha, hna⟩ := List.mem_map.mp (get?_isSome_iff.mp hs)
        have hm : "cache" ∈ input.map Prod.fst := hk ▸ hna ▸ hg a ha
        rw [← valueAt_isSome_iff, hc] at hm
        cases hm
      refine ⟨hno, .inr ⟨fun key => ⟨fun hs => ?_, fun hke => ?_⟩, fun ht => ?_⟩⟩
      · obtain ⟨a, ha, rfl⟩ := List.mem_map.mp (get?_isSome_iff.mp hs)
        exact hg a ha
      · rw [← hk, ← valueAt_isSome_iff, ← hva, Option.isSome_map] at hke
        exact isSome_of_erase hke
      · rw [← hk, ← valueAt_isSome_iff] at ht
        obtain ⟨v, hv⟩ := Option.isSome_iff_exists.mp ht
        obtain ⟨e, he, hsn⟩ := Option.map_eq_some_iff.mp hv
        have hf : v = .function := by
          rw [← hsn]
          exact htr e (List.mem_of_find?_eq_some he) (by simpa using List.find?_some he)
        obtain ⟨j, -, hj⟩ := Option.map_eq_some_iff.mp ((hva _).trans hv)
        rw [hf] at hj
        cases hj
  · rintro ⟨hc, hp⟩
    refine ⟨_, inputData_of_exact hp, fun key => ?_⟩
    rw [erase_of_get?_eq_none hc, valueAt_jsonInput, valueAt_inOrder hp]

end Input

section Direct

variable {env : RunEnv} {h : RunHandler} {name : String} {args : Args}
    {sandboxEnv : List (String × String)} {w : World}

theorem calls_eq_concat_iff (hd : '.' ∈ name.toList) {c : BackendCall} :
    (dispatchTool env h name args sandboxEnv w).2.calls = w.calls ++ [c] ↔
      ∃ ns f v, Reaches env h w.db name sandboxEnv ns f v ∧ cachedOutput env f v args w = none ∧
        c = namedCall env w.db ns f v args sandboxEnv := by
  constructor
  · intro hca
    rcases dispatchTool_cases env h name args sandboxEnv w with hid | ⟨ns, lang, text, files, hr⟩ | ⟨ns, f, v, hr⟩
    · rw [hid.1] at hca
      simp at hca
    · have ht : ∀ tool : String, '.' ∉ tool.toList → name ≠ tool := by
        rintro tool ht rfl
        exact ht hd
      cases lang with
      | python => exact (hr.tool.elim (ht _ (by decide)) (ht _ (by decide))).elim
      | typescript => exact (ht _ (by decide) hr.tool).elim
    · rw [dispatchTool_of_reaches hr, executeFound_calls hr] at hca
      have ha := List.append_cancel_left hca
      cases hc : cachedOutput env f v args w with
      | some output => simp [hc] at ha
      | none =>
        simp only [hc, Option.isSome_none, Bool.false_eq_true, if_false] at ha
        exact ⟨ns, f, v, hr, hc, (List.singleton_inj.mp ha).symm⟩
  · rintro ⟨ns, f, v, hr, hc, rfl⟩
    rw [dispatchTool_of_reaches hr, executeFound_calls hr, hc]
    rfl

theorem starts_python_iff {sb : Sandbox} {v : FunctionVersion} (hp : v.language = .python) :
    Starts sb v.language v ↔ v.code.getD "" ≠ "" := by
  unfold Starts prepare
  rw [hp]
  by_cases hc : v.code.getD "" = ""
  · simp [hc]
  · simp [hc]

theorem ran_direct_iff {f : Function} {v : FunctionVersion} (hd : '.' ∈ name.toList) (hp : v.language = .python)
    {c : BackendCall} :
    (dispatchTool env h name args sandboxEnv w).2.calls = w.calls ++ [c] ∧ c.ran = [(f, v)] ↔
      cachedOutput env f v args w = none ∧ v.code.getD "" ≠ "" ∧
        ∃ ns, Reaches env h w.db name sandboxEnv ns f v ∧ c = namedCall env w.db ns f v args sandboxEnv := by
  rw [calls_eq_concat_iff hd]
  constructor
  · rintro ⟨⟨ns, f', v', hr, hc, rfl⟩, hra⟩
    have hm : (f, v) ∈ (namedCall env w.db ns f' v' args sandboxEnv).ran := hra ▸ List.mem_singleton_self _
    obtain ⟨heq, hs⟩ := mem_namedCall_ran hm
    obtain ⟨rfl, rfl⟩ := Prod.mk.inj heq
    exact ⟨hc, (starts_python_iff hp).mp hs, ns, hr, rfl⟩
  · rintro ⟨hc, hco, ns, hr, rfl⟩
    exact ⟨⟨ns, f, v, hr, hc, rfl⟩, functionCall_ran_of_starts ((starts_python_iff hp).mpr hco)⟩

end Direct

theorem wrapperRun_eq_some {db : Db} {namespaceId : ℕ} {py : Python} {xs : List (Stored db namespaceId)}
    {x : Stored db namespaceId} {args : Args} {run : SourceRun} (hp : x.version.language = .python) :
    wrapperRun py xs x args = some run ↔ ∃ wrapper input, storedWrapper x = .ok wrapper ∧ wrapper.compiles py = true ∧
      inputData wrapper.params args = some input ∧
      wrapper.unhindered py (definedNames xs x.service.name.val) args (storedFile x).text input = true ∧
      run = ⟨storedFile x, input, (py.globals "__exec__" (storedFile x).text input).bind wrapperEntry⟩ := by
  have hf : ∀ wrapper, storedWrapper x = .ok wrapper →
      (wrapper.codeFile.bind fun path => [storedFile x].find? (·.path = path)) = some (storedFile x) := by
    intro wrapper hw
    rw [(wrapperOf_storedWrapper hw).codeFile hp, Option.bind_some, find?_storedFile]
  unfold wrapperRun
  constructor
  · intro hr
    split at hr
    · cases hr
    rename_i wrapper hw
    split at hr
    · rename_i hc
      cases hin : inputData wrapper.params args with
      | none => simp [Wrapper.call, hin] at hr
      | some input =>
        rw [Wrapper.call_of_file (hf wrapper hw) hin] at hr
        split at hr
        · rename_i hun
          exact ⟨wrapper, input, hw, hc, hin, hun, (Option.some.inj hr).symm⟩
        · cases hr
    · cases hr
  · rintro ⟨wrapper, input, hw, hc, hin, hun, rfl⟩
    simp only [hw, hc, if_true]
    rw [Wrapper.call_of_file (hf wrapper hw) hin, if_pos hun]

/-- A direct call and a call through the wrapper agree exactly if the call is plain. -/
theorem callsAgree_iff (env : RunEnv) (py : Python) (h : RunHandler) (sandboxEnv : List (String × String)) (w : World)
    {namespaceId : ℕ} (xs : List (Stored w.db namespaceId)) (x : Stored w.db namespaceId) (args : Args)
    (hpython : x.version.language = .python) :
    CallsAgree env py h sandboxEnv w xs x args ↔
      ∃ wrapper, storedWrapper x = .ok wrapper ∧ PlainCall env py h sandboxEnv w xs x args wrapper := by
  have hd : '.' ∈ (toolName x).toList := by simp [toolName]
  constructor
  · rintro ⟨c, direct, run, hc, hra, hin, hru, -, hs, he⟩
    obtain ⟨hca, hco, ns, hr, rfl⟩ := (ran_direct_iff hd hpython).mp ⟨hc, hra⟩
    obtain rfl : args.erase "cache" = direct := Json.obj.inj hin
    obtain ⟨wrapper, input, hw, hcm, hda, hun, rfl⟩ := (wrapperRun_eq_some hpython).mp hru
    obtain ⟨hno, hk⟩ := sameMapping_iff.mp ⟨input, hda, hs⟩
    obtain rfl : inOrder wrapper.params args = input := Option.some.inj ((inputData_of_exact hk).symm.trans hda)
    rw [erase_of_get?_eq_none hno, bind_runnerEntry, bind_wrapperEntry] at he
    exact ⟨wrapper, hw, ⟨ns, hr⟩, hca, hco, hcm, hun, hno, hk, runnerEntry_eq_wrapperEntry_iff.mp he⟩
  · rintro ⟨wrapper, hw, ⟨ns, hr⟩, hca, hco, hcm, hun, hno, hk, hse⟩
    obtain ⟨hc, hra⟩ := (ran_direct_iff hd hpython).mpr ⟨hca, hco, ns, hr, rfl⟩
    have hru := (wrapperRun_eq_some hpython).mpr ⟨wrapper, _, hw, hcm, inputData_of_exact hk, hun, rfl⟩
    refine ⟨_, _, _, hc, hra, rfl, hru, rfl, fun key => ?_, ?_⟩
    · rw [erase_of_get?_eq_none hno, valueAt_jsonInput, valueAt_inOrder hk]
    · rw [erase_of_get?_eq_none hno, bind_runnerEntry, bind_wrapperEntry]
      exact runnerEntry_eq_wrapperEntry_iff.mpr hse

def optionalDb : Db where
  namespaces := .single { id := 1, accountId := 2, name := .acme }
  services := .single { id := 3, namespaceId := 1, name := .mail }
  functions := .single { id := 4, serviceId := 3, name := .send }
  versions := .single
    { id := 5, functionId := 4, code := some "def main(d): ...\ndef handler(d, c): ..."
      inputSchema := some (.obj [("type", .str "object"), ("properties",
        .obj [("limit", .obj [("type", .str "integer"), ("default", .int 10)])])]) }

def optionalSend : Stored optionalDb 1 := .ofRows _ _ _ ⟨List.mem_singleton_self _, rfl, rfl, rfl, rfl⟩

def handlerPython : Python where
  charName _ := false
  ownDirectory _ := false
  ownDirectory_null := rfl
  globals _ _ _ := some { main := true, handler := true }

def actingHandler : RunHandler where
  namespaceName := "acme"
  account := { id := 2, userId := 1 }
  apiKey := { id := 7, userId := 1, keyHash := "", keyPrefix := "" }
  mode := "tools"

/-- Without arguments, the direct call runs the source on nothing and the wrapper on the default, and one of them
reads `main` where the other reads `handler`. -/
theorem default_and_order_differ :
    ((dispatchTool plainEnv actingHandler "mail.send" [] [] { db := optionalDb }).2.calls.map
      fun c => (c.code, c.input)) =
      [(optionalSend.version.code, .obj [])] ∧
    runnerEntry { main := true, handler := true } = some .main ∧
    wrapperRun handlerPython [optionalSend] optionalSend [] =
      some ⟨storedFile optionalSend, [("limit", .json (.int 10))], some .handler⟩ ∧
    ¬ CallsAgree plainEnv handlerPython actingHandler [] { db := optionalDb } [optionalSend] optionalSend [] := by
  have hr : wrapperRun handlerPython [optionalSend] optionalSend [] =
      some ⟨storedFile optionalSend, [("limit", .json (.int 10))], some .handler⟩ := by rfl
  refine ⟨by rfl, rfl, hr, ?_⟩
  rintro ⟨c, input, run, -, -, -, hw, -, -, he⟩
  obtain rfl := Option.some.inj (hr.symm.trans hw)
  have hp : some Entry.main = some Entry.handler := he
  cases hp

theorem plain_call_agrees : optionalSend.version.language = .python ∧
    CallsAgree plainEnv resultPython actingHandler [] { db := optionalDb } [optionalSend] optionalSend
      [("limit", .int 3)] := by
  refine ⟨rfl, (callsAgree_iff plainEnv resultPython actingHandler [] { db := optionalDb } [optionalSend] optionalSend
    [("limit", .int 3)] rfl).mpr ?_⟩
  refine ⟨_, rfl, ⟨_, rfl, rfl, rfl, ⟨"mail", "send", by rfl, by rfl, by rfl⟩, by rfl, by rfl⟩, by rfl, by decide +kernel,
    by decide +kernel, by decide +kernel, by rfl, .inr ⟨fun key => ?_, by decide⟩, rfl, ?_⟩
  · rw [get?_isSome_iff]
    exact Iff.rfl
  · intro hno
    cases hno

end McpworksApi.Run
