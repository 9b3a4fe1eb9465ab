import McpworksApi.Run.BlockVerdicts

/-! The fallback of the pipeline. A scanner that raises leaves a verdict to pass and the mark that none has finished; a
pipeline that fails closed blocks when all its verdicts are of that kind. An entry without a scanner leaves nothing, and
webhooks and Python callables turn nearly all their failures into verdicts to pass. -/

namespace McpworksApi.Run.Scanners

open Models Py

/-- A reply from which a verdict can be made: an object whose score is a number. -/
def Readable (env : ScanEnv) (entry : ScannerEntry) (reply : Json) : Prop :=
  ∃ fields verdict, reply = .obj fields ∧ replyVerdict env entry fields = .ok verdict

/-- An entry that does not complete a scan: no scanner is found for it, or its webhook or callable gives no reply that
can be read. -/
def Fails (env : ScanEnv) (ctx : ScanContext) (content : String) (entry : ScannerEntry) : Prop :=
  match entry.type with
  | .builtin | .unknown => scanAndTransform env entry ctx content = .unresolved
  | .webhook => ∀ reply, env.post entry content ctx = .ok reply → ¬Readable env entry reply
  | .python => ∀ reply, env.callPython entry content ctx = some (.ok reply) → ¬Readable env entry reply

def Resolves (env : ScanEnv) (ctx : ScanContext) (content : String) (entry : ScannerEntry) : Prop :=
  applies ctx entry = true ∧ scanAndTransform env entry ctx content ≠ .unresolved

/-- The callable of the entry raises an exception of which not even the text can be taken. -/
def Raises (env : ScanEnv) (ctx : ScanContext) (content : String) (entry : ScannerEntry) : Prop :=
  entry.type = .python ∧ env.callPython entry content ctx = some (.error none)

variable {env : ScanEnv} {ctx : ScanContext} {content : String}

theorem orSkipped_passes {what : String} {e : ScannerEntry} {reply : Except String ScanVerdict}
    (h : ∀ v, reply ≠ .ok v) : (orSkipped what e reply).action = .pass := by
  cases reply with
  | error message => rfl
  | ok v => exact absurd rfl (h v)

theorem raised_iff {e : ScannerEntry} : scanAndTransform env e ctx content = .raised ↔ Raises env ctx content e := by
  unfold scanAndTransform Raises
  cases e.type with
  | builtin =>
    dsimp only
    split <;> simp
  | webhook | unknown => simp
  | python =>
    dsimp only
    rcases env.callPython e content ctx with _ | (_ | message) | reply
    · simp [pythonScan]
    · simp [pythonScan]
    · simp [pythonScan]
    · cases reply <;> simp [pythonScan]

theorem Fails.passes {e : ScannerEntry} {text : String} {v : ScanVerdict} (h : Fails env ctx content e)
    (hs : scanAndTransform env e ctx content = .completed text v) : text = content ∧ v.action = .pass := by
  have hread : ∀ {fields}, ¬Readable env e (.obj fields) → ∀ v, replyVerdict env e fields ≠ .ok v :=
    fun hr v hv => hr ⟨_, v, rfl, hv⟩
  unfold Fails at h
  cases ht : e.type with
  | builtin | unknown =>
    rw [ht] at h
    cases h.symm.trans hs
  | webhook =>
    rw [ht] at h
    simp only [scanAndTransform, ht] at hs
    obtain ⟨rfl, rfl⟩ := Scan.completed.inj hs
    refine ⟨rfl, ?_⟩
    rcases hp : env.post e content ctx with failure | reply
    · cases failure <;> rfl
    · cases reply with
      | obj fields => exact orSkipped_passes (hread (h _ hp))
      | _ => rfl
  | python =>
    rw [ht] at h
    simp only [scanAndTransform, ht] at hs
    rcases hp : env.callPython e content ctx with _ | (_ | message) | reply <;> rw [hp] at hs
    · obtain ⟨rfl, rfl⟩ := Scan.completed.inj hs
      exact ⟨rfl, rfl⟩
    · cases hs
    · obtain ⟨rfl, rfl⟩ := Scan.completed.inj hs
      exact ⟨rfl, rfl⟩
    · cases reply with
      | obj fields =>
        obtain ⟨rfl, rfl⟩ := Scan.completed.inj hs
        exact ⟨rfl, orSkipped_passes (hread (h _ hp))⟩
      | _ =>
        obtain ⟨rfl, rfl⟩ := Scan.completed.inj hs
        exact ⟨rfl, rfl⟩

/-- What the loop leaves when no entry completes: the content as it was and verdicts to pass, one for each entry that
resolves; every scanner raised unless one of them did not. -/
theorem scanAll_of_fails {l : List ScannerEntry} (h : ∀ e ∈ l, applies ctx e = true → Fails env ctx content e) :
    (scanAll env ctx l content).content = content ∧
      (∀ v ∈ (scanAll env ctx l content).verdicts, v.action = .pass) ∧
      ((scanAll env ctx l content).verdicts ≠ [] ↔ ∃ e ∈ l, Resolves env ctx content e) ∧
      ((scanAll env ctx l content).allErrored = true ↔
        ∀ e ∈ l, Resolves env ctx content e → Raises env ctx content e) := by
  induction l with
  | nil => simp [scanAll]
  | cons e l ih =>
    obtain ⟨he, h⟩ := List.forall_mem_cons.mp h
    have ih := ih h
    rw [scanAll]
    simp only [List.exists_mem_cons_iff, List.forall_mem_cons, ← raised_iff] at ih ⊢
    by_cases ha : applies ctx e = true
    · rw [if_pos ha]
      have hres : Resolves env ctx content e ↔ scanAndTransform env e ctx content ≠ .unresolved := and_iff_right ha
      rcases hs : scanAndTransform env e ctx content with _ | _ | ⟨text, v⟩ <;> rw [hs] at hres
      · simpa [hres] using ih
      · simpa [hres, passed] using ⟨ih.1, ih.2.1, ih.2.2.2⟩
      · obtain ⟨rfl, hp⟩ := (he ha).passes hs
        dsimp only
        rw [if_neg (by rw [hp]; decide)]
        simpa [hres, hp] using ⟨ih.1, ih.2.1⟩
    · rw [if_neg ha]
      simpa [Resolves, ha] using ih

theorem decided_pass {vs : List ScanVerdict} (h : ∀ v ∈ vs, v.action = .pass) :
    ((deciding vs).map (·.action)).getD .pass = .pass := by
  cases hd : deciding vs with
  | none => rfl
  | some v => exact h v (deciding_spec hd).1

/-- If no entry completes a scan, a pipeline that fails closed blocks exactly when an entry resolves and all that do
raise; the output of a function is returned in every case, and the response of an API unless it is blocked. -/
theorem failClosed_blocks_iff (env : ScanEnv) (ctx : ScanContext) (content : String) (pipeline : ScannerPipeline)
    (hc : pipeline.failClosed = true) (h : ∀ e ∈ pipeline.scanners, applies ctx e = true → Fails env ctx content e)
    (ns : Namespace) (hns : ns.scannerPipeline = some pipeline) :
    ((evaluatePipeline env content ctx (some pipeline)).finalAction = .block ↔
      (∃ e ∈ pipeline.scanners, Resolves env ctx content e) ∧
        ∀ e ∈ pipeline.scanners, Resolves env ctx content e → Raises env ctx content e) ∧
      runOutputPipeline env ctx ns content = content ∧
      ∀ server operationId executionId, ctx = apiContext ns server operationId executionId →
        scanResponse env ns server operationId executionId content =
          if (evaluatePipeline env content ctx (some pipeline)).finalAction =
            .block then blockedText else content := by
  have hm : ∀ {e}, e ∈ pipeline.scanners.mergeSort (·.order ≤ ·.order) ↔ e ∈ pipeline.scanners := List.mem_mergeSort
  have hl := scanAll_of_fails (l := pipeline.scanners.mergeSort (·.order ≤ ·.order)) fun e he => h e (hm.mp he)
  simp only [hm] at hl
  obtain ⟨hcon, hpass, hsome, hall⟩ := hl
  have hout : (evaluatePipeline env content ctx (some pipeline)).modifiedContent = none := if_neg (not_not.mpr hcon)
  refine ⟨?_, by rw [runOutputPipeline, hns, hout, Option.getD_none], ?_⟩
  · rw [← hsome, ← hall, and_comm]
    simp only [evaluatePipeline, Option.getD_some, hc, if_true, decided_pass hpass]
    split_ifs with he
    · simpa using he
    · simpa using he
  · rintro server operationId executionId rfl
    simp only [scanResponse, hns, hout, Option.getD_none]

def guardConfig : ScannerConfig := { url := "https://guard.internal/scan", module := "guard" }

/-- A pipeline that fails closed with one scanner of the given type. -/
def guarded (type : ScannerType) : ScannerPipeline :=
  { failClosed := true, scanners := [{ id := "s-1", type, name := "guard", config := guardConfig }] }

def guardedNamespace (type : ScannerType) : Namespace where
  id := 1
  accountId := 2
  name := .acme
  scannerPipeline := some (guarded type)

def outputContext : ScanContext := ⟨.output, "acme", "mail", "count", "", "prompt"⟩

/-- A callable that raises an exception whose text cannot be taken. -/
def raisingScan : ScanEnv := { blockingScan with callPython := fun _ _ _ => some (.error none) }

theorem raising_blocks :
    (evaluatePipeline raisingScan "null" outputContext (some (guarded .python))).finalAction = .block := by
  refine (failClosed_blocks_iff raisingScan outputContext "null" (guarded .python) rfl ?_ (guardedNamespace .python)
    rfl).1.mpr ⟨⟨_, List.mem_singleton_self _, rfl, nofun⟩, ?_⟩
  · intro e he _
    obtain rfl := List.mem_singleton.mp he
    exact nofun
  · intro e he _
    obtain rfl := List.mem_singleton.mp he
    exact ⟨rfl, rfl⟩

def timingOut : ScanEnv := { blockingScan with post := fun _ _ _ => .error .timeout }

/-- A webhook that times out lets the content through under `fail_closed`. -/
theorem timed_out_passes :
    (evaluatePipeline timingOut "null" outputContext (some (guarded .webhook))).finalAction = .pass ∧
      runOutputPipeline timingOut outputContext (guardedNamespace .webhook) "null" = "null" := by
  decide +kernel

end McpworksApi.Run.Scanners
