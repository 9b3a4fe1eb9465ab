import McpworksApi.Agents.OrchestrationFrame
import McpworksApi.Agents.StepChaining

/-! The course of a procedure. The answers of the model and the replies of the tools in the state before the run decide
which attempts are made at which step, how many functions they execute, and where the procedure ends; the world plays
no further part. -/

namespace McpworksApi.Agents

open Models Py Run Services Services.Functions Session

/-- What comes of a part of a procedure: the questions it asks, the functions it executes, and its result or what it
raises. -/
structure Course (α : Type) where
  asked : ℕ := 0
  calls : ℕ := 0
  result : Except ApiError α

def Course.after {α : Type} (c : Course α) (asked calls : ℕ) : Course α :=
  { c with asked := asked + c.asked, calls := calls + c.calls }

section Course

variable (env : AgentEnv) (ctx : ToolContext) (db : Db) (step : ProcedureStep) (tool : String)

/-- What the reply of a tool means for the step: it fails with a message, or it gives the result. -/
def readReply (reply : ToolReply) : Except ApiError (Except String Json) :=
  let text := reply.render env
  if looksFailed text then .ok (.error (clip 500 text))
  else
    match env.loads text with
    | .error e => .error e
    | .ok loaded =>
      match missingFields step (loaded.getD (.str text)) with
      | [] => .ok (.ok (loaded.getD (.str text)))
      | missing => .ok (.error ("Validation failed: missing fields " ++ reprList missing))

def verdict (input : Args) : Except ApiError (Except String Json) :=
  match toolReply env ctx db tool input with
  | .error e => .error e
  | .ok reply => readReply env step reply

end Course

/-- From `w`, the computation comes to what the course says, and leaves alone what the tools read. -/
structure Follows {α : Type} (db : Db) (m : Api α) (c : Course α) (w : World) : Prop where
  result : (m w).1 = c.result
  asked : (m w).2.asked = w.asked + c.asked
  calls : (m w).2.calls.length = w.calls.length + c.calls
  data : toolData (m w).2.db = toolData db

section Follows

variable {env : AgentEnv} {ctx : ToolContext} {db : Db} {step : ProcedureStep} {tool : String} {w w₁ : World}

theorem Follows.after {α : Type} {m m' : Api α} {c : Course α} {i k : ℕ} (h : Follows db m' c w₁) (hm : m w = m' w₁)
    (ha : w₁.asked = w.asked + i) (hc : w₁.calls.length = w.calls.length + k) : Follows db m (c.after i k) w := by
  refine ⟨by rw [hm]; exact h.result, ?_, ?_, by rw [hm]; exact h.data⟩
  · rw [hm, h.asked, ha, Nat.add_assoc]
    rfl
  · rw [hm, h.calls, hc, Nat.add_assoc]
    rfl

section Rules

variable {α β : Type} {f : α → Api β} {c : Course β} {a : α} {e : ApiError}

theorem Follows.of_eq {m : Api β} (hm : m w = (c.result, w₁)) (ha : w₁.asked = w.asked + c.asked)
    (hc : w₁.calls.length = w.calls.length + c.calls) (hd : toolData w₁.db = toolData db) : Follows db m c w := by
  refine ⟨?_, ?_, ?_, ?_⟩ <;> rw [hm]
  · exact ha
  · exact hc
  · exact hd

end Rules

def totalAsked (cs : List (ProcedureStep × Course StepRun)) : ℕ := (cs.map (·.2.asked)).sum

def totalCalls (cs : List (ProcedureStep × Course StepRun)) : ℕ := (cs.map (·.2.calls)).sum

/-- From `w` to `w'`, as many questions are asked and functions executed as the courses say. -/
def Spent (cs : List (ProcedureStep × Course StepRun)) (w w' : World) : Prop :=
  w'.asked = w.asked + totalAsked cs ∧ w'.calls.length = w.calls.length + totalCalls cs

theorem Spent.nil {w' : World} (ha : w'.asked = w.asked) (hc : w'.calls = w.calls) : Spent [] w w' :=
  ⟨ha, congrArg List.length hc⟩

theorem Spent.cons {w' : World} {x : ProcedureStep × Course StepRun} {cs : List (ProcedureStep × Course StepRun)}
    (ha : w₁.asked = w.asked + x.2.asked) (hc : w₁.calls.length = w.calls.length + x.2.calls) (h : Spent cs w₁ w') :
    Spent (x :: cs) w w' := by
  obtain ⟨hac, hcc⟩ := h
  refine ⟨?_, ?_⟩
  · rw [hac, ha, totalAsked, totalAsked, List.map_cons, List.sum_cons, Nat.add_assoc]
  · rw [hcc, hc, totalCalls, totalCalls, List.map_cons, List.sum_cons, Nat.add_assoc]

end Follows

section Start

variable {env : AgentEnv} {ctx : ToolContext} {proc svc : String} {ictx : Option Json} {w w₀ : World}
  {v : ProcedureVersion}

end Start

end McpworksApi.Agents
