import McpworksApi.OpenApi.Import
import McpworksApi.Run.Dispatch

/-! The names under which published API endpoints are offered as tools (`build_published_api_tool`) and their reading
(`parse_api_tool_name`). The first double underscore after `api__` ends the server's name, which has none. -/

namespace McpworksApi.Run

open Models Py OpenApi

/-- The name that `build_published_api_tool` gives. -/
def apiToolName (server operationId : String) : String := "api__" ++ server ++ "__" ++ operationId

def isDnsChar (c : Char) : Bool := ('a' ≤ c ∧ c ≤ 'z') ∨ ('0' ≤ c ∧ c ≤ '9')

/-- `^[a-z0-9]([a-z0-9-]{0,61}[a-z0-9])?$`, without a trailing newline. -/
structure DnsSafe (server : String) : Prop where
  length_le : server.toList.length ≤ 63
  first : ∃ c ∈ server.toList.head?, isDnsChar c = true
  last : ∃ c ∈ server.toList.getLast?, isDnsChar c = true
  chars : ∀ c ∈ server.toList, isDnsChar c = true ∨ c = '-'

/-- `^[a-zA-Z_][a-zA-Z0-9_]{0,127}$`; a newline may follow. -/
def ManualId (operationId : String) : Prop :=
  ∃ c l newline, operationId.toList = c :: l ++ newline ∧ (c.isAlpha = true ∨ c = '_') ∧
    (∀ d ∈ l, d.isAlphanum = true ∨ d = '_') ∧ l.length ≤ 127 ∧ (newline = [] ∨ newline = ['\n'])

def ImportedId (operationId : String) : Prop :=
  ∃ spec ceiling result, extractEndpoints spec ceiling = .ok result ∧
    ∃ e ∈ result.endpoints, e.operationId = operationId

theorem importedId_ne_empty {oid : String} (h : ImportedId oid) : oid ≠ "" := by
  obtain ⟨spec, ceil, result, hr, e, he, rfl⟩ := h
  exact (isSlug_of_extracted hr he).1

theorem parseApiToolName_apiToolName {sr operationId : String} (hs : sr ≠ "") (hu : '_' ∉ sr.toList)
    (ho : operationId ≠ "") : parseApiToolName (apiToolName sr operationId) = some (sr, operationId) := by
  have hn : contains sr "__" = false := by
    rw [Bool.eq_false_iff, ne_eq, contains_eq_true]
    exact fun h => hu (h.subset (by simp))
  have hl : sr.toList.getLast? ≠ some '_' := fun h => hu (List.mem_of_getLast? h)
  have hd : String.ofList ((apiToolName sr operationId).toList.drop 5) = sr ++ "__" ++ operationId :=
    String.toList_injective (by simp [apiToolName])
  have hst : startsWith (apiToolName sr operationId) "api__" = true := by simp [startsWith, apiToolName]
  simp only [parseApiToolName, hst, if_true, hd, splitOnce_underscores hn hl, hs, ho, or_self, if_false]

/-- A tool's name is read back as its server and operation, so that distinct pairs have distinct names, and a name
that is read is the one that is built again. -/
theorem api_tool_names_roundtrip :
    (∀ server operationId, DnsSafe server → ImportedId operationId ∨ ManualId operationId →
      parseApiToolName (apiToolName server operationId) = some (server, operationId)) ∧
    (∀ server operationId server' operationId', DnsSafe server → ImportedId operationId ∨ ManualId operationId →
      DnsSafe server' → ImportedId operationId' ∨ ManualId operationId' →
      apiToolName server operationId = apiToolName server' operationId' →
      (server, operationId) = (server', operationId')) ∧
    ∀ name server operationId, parseApiToolName name = some (server, operationId) →
      apiToolName server operationId = name := by
  have hread : ∀ server operationId, DnsSafe server → ImportedId operationId ∨ ManualId operationId →
      parseApiToolName (apiToolName server operationId) = some (server, operationId) := by
    intro server operationId hs ho
    apply parseApiToolName_apiToolName
    · rintro rfl
      obtain ⟨c, hc, -⟩ := hs.first
      cases hc
    · intro hu
      have := hs.chars '_' hu
      revert this
      decide
    · rcases ho with ho | ⟨c, l, new, ho, -⟩
      · exact importedId_ne_empty ho
      · rintro rfl
        cases ho
  refine ⟨hread, fun server op server' op' hs ho hs' ho' he => ?_, fun name server op h => ?_⟩
  · have h := hread server op hs ho
    rw [he, hread server' op' hs' ho'] at h
    exact (Option.some.inj h).symm
  · unfold parseApiToolName at h
    split_ifs at h with hst
    obtain ⟨rest, hrest⟩ := List.isPrefixOf_iff_prefix.mp hst
    rcases hsp : splitOnce "__" (String.ofList (name.toList.drop 5)) with _ | ⟨a, b⟩
    · simp [hsp] at h
    · simp only [hsp] at h
      split_ifs at h
      cases h
      have hd : String.ofList (name.toList.drop 5) = String.ofList rest := by simp [← hrest]
      have he := eq_append_of_splitOnce (hd ▸ hsp)
      apply String.toList_injective
      have hl := congrArg String.toList he
      rw [String.toList_ofList] at hl
      simp [← hrest, hl, apiToolName]

end McpworksApi.Run
