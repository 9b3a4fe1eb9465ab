import McpworksApi.Agents.Chat
import McpworksApi.Session.Tasks

/-! Turns that are added to the conversation history of an agent at the same time. `append_turn` and `compact_history`
read the history in one transaction and write the whole of it in another. -/

namespace McpworksApi.Agents

open Models Py Run Session

structure Conversation where
  history : Args
  covered : List Json := []

namespace Conversation

def turns (c : Conversation) : List Json := turnsOf c.history

def append (c : Conversation) (turn : Json) : Conversation :=
  { c with history := withTurn c.history turn }

def compact (c : Conversation) (summary now : String) : Conversation where
  history := compacted c.turns summary now
  covered := c.covered ++ c.turns.take (c.turns.length - 10)

def Holds (c : Conversation) (turn : Json) : Prop := turn ∈ c.turns ∨ turn ∈ c.covered

end Conversation

inductive MemoryTask
  | appending (turn : Json)
  | writing (turn : Json) (read : Conversation)
  | returned (turn : Json)
  | compacting
  | summarising (read : Conversation)
  | storing (read : Conversation) (summary now : String)
  | done

def memoryTurn (x : Except String String × String) (t : MemoryTask) (c : Conversation) :
    List MemoryTask × Conversation :=
  match t with
  | .appending turn => ([.writing turn c], c)
  | .writing turn read => ([.returned turn], read.append turn)
  | .compacting => ([if c.turns.length < 30 then .done else .summarising c], c)
  | .summarising read => ([x.1.toOption.elim .done fun summary => .storing read summary x.2], c)
  | .storing read summary now => ([.done], read.compact summary now)
  | .returned turn => ([.returned turn], c)
  | .done => ([.done], c)

/-- A call of `append_turn` alone stores what the two turns of its task leave. -/
theorem appendTurn_eq (env : AgentEnv) (agent : Agent) (role content tier : String) (w : World)
    (x : Except String String × String) :
    let alone : Pool Conversation MemoryTask :=
      ⟨{ history := historyOf (getAllState w.db agent.id) }, [.appending (chatTurn env role content)]⟩
    appendTurn env agent role content tier w =
      storeHistory env agent (alone.run memoryTurn [(0, x), (0, x)]).state.history tier w := rfl

/-- A call of `compact_history` alone stores what the turns of its task leave, or nothing if they change nothing. -/
theorem compactHistory_eq (env : AgentEnv) (agent : Agent) (state : Args) (tier : String) :
    let start : Conversation := { history := historyOf state }
    let x := (env.summarize (((historyOf state).get? "summary").getD (.str ""))
      (start.turns.take (start.turns.length - 10)), env.isoNow)
    let last := (Pool.run memoryTurn ⟨start, [.compacting]⟩ [(0, x), (0, x), (0, x)]).state
    compactHistory env agent state tier = storeHistory env agent last.history tier ∨
      compactHistory env agent state tier = pure () ∧ last = start := by
  intro start x last
  by_cases hl : start.turns.length < 30
  · refine .inr ⟨if_pos hl, ?_⟩
    simp [last, Pool.run, Pool.step, memoryTurn, hl]
  · rcases hx : x.1 with e | summary
    · refine .inr ⟨(if_neg hl).trans ?_, ?_⟩
      · split
        · rfl
        · rename_i hs
          cases hx.symm.trans hs
      · simp [last, Pool.run, Pool.step, memoryTurn, hl, hx, Except.toOption]
    · have hs : last = start.compact summary x.2 := by
        simp [last, Pool.run, Pool.step, memoryTurn, hl, hx, Except.toOption]
      refine .inl ((if_neg hl).trans ?_)
      rw [hs]
      split
      · rename_i he
        cases hx.symm.trans he
      · rename_i he
        cases hx.symm.trans he
        rfl

variable {c : Conversation} {turn : Json}

theorem turns_append (h : c.turns.length < 50) : (c.append turn).turns = c.turns ++ [turn] := by
  have hs : (c.turns ++ [turn]).length - 50 = 0 := by
    rw [List.length_append, List.length_singleton]
    omega
  unfold Conversation.turns turnsOf at *
  simp only [Conversation.append, withTurn, Args.get?_set_self, turnsOf]
  rw [hs, List.drop_zero]

theorem holds_append (hl : c.turns.length < 50) : (c.append turn).Holds turn := by
  left
  rw [turns_append hl]
  exact List.mem_append_right _ (List.mem_singleton_self _)

theorem Conversation.Holds.append {old : Json} (h : c.Holds old) (hl : c.turns.length < 50) :
    (c.append turn).Holds old := by
  unfold Conversation.Holds
  rw [turns_append hl]
  exact h.imp (List.mem_append_left _) fun h => h

theorem Conversation.Holds.compact (h : c.Holds turn) (sum now : String) : (c.compact sum now).Holds turn := by
  rcases h with h | h
  · rw [← List.take_append_drop (c.turns.length - 10) c.turns] at h
    rcases List.mem_append.mp h with h | h
    · exact .inr (List.mem_append_right _ h)
    · exact .inl h
  · exact .inr (List.mem_append_left _ h)

def Undisputed (p : Pool Conversation MemoryTask) (_ : Except String String × String) : MemoryTask → Prop
  | .writing _ read => read = p.state ∧ read.turns.length < 50
  | .storing read _ _ => read = p.state
  | _ => True

def TurnsKept (p : Pool Conversation MemoryTask) : Prop := ∀ turn, .returned turn ∈ p.tasks → p.state.Holds turn

variable {x : Except String String × String} {t : MemoryTask} {ts : List MemoryTask}

theorem Conversation.Holds.memoryTurn (h : c.Holds turn) (hw : Undisputed ⟨c, ts⟩ x t) :
    (memoryTurn x t c).2.Holds turn := by
  cases t with
  | writing new read =>
    obtain ⟨rfl, hl⟩ := hw
    exact h.append hl
  | storing read sum now =>
    obtain rfl : read = c := hw
    exact h.compact sum now
  | _ => exact h

theorem holds_of_returned (h : .returned turn ∈ (memoryTurn x t c).1) (hw : Undisputed ⟨c, ts⟩ x t) :
    t = .returned turn ∨ (memoryTurn x t c).2.Holds turn := by
  cases t with
  | writing new read =>
    obtain ⟨rfl, hl⟩ := hw
    obtain rfl : turn = new := by simpa [memoryTurn] using h
    exact .inr (holds_append hl)
  | returned old =>
    obtain rfl : turn = old := by simpa [memoryTurn] using h
    exact .inl rfl
  | compacting =>
    simp only [memoryTurn, List.mem_singleton] at h
    split at h <;> cases h
  | summarising read =>
    simp only [memoryTurn, List.mem_singleton] at h
    rcases ha : x.1.toOption with _ | summary <;> rw [ha] at h <;> cases h
  | _ => simp [memoryTurn] at h

/-- In every schedule in which no call writes over what it has not read, no turn is lost. -/
theorem turns_kept (schedule : List (ℕ × (Except String String × String))) (p : Pool Conversation MemoryTask)
    (hp : TurnsKept p) (h : Pool.Permits memoryTurn Undisputed p schedule) :
      TurnsKept (p.run memoryTurn schedule) := by
  refine Pool.run_invariant (I := TurnsKept) (fun c before t after x hk hw turn ht => ?_) hp h
  simp only [List.mem_append] at ht
  rcases ht with (ht | ht) | ht
  · exact (hk turn (List.mem_append_left _ ht)).memoryTurn hw
  · rcases holds_of_returned ht hw with rfl | hh
    · exact (hk turn (List.mem_append_right _ List.mem_cons_self)).memoryTurn hw
    · exact hh
  · exact (hk turn (List.mem_append_right _ (List.mem_cons_of_mem _ ht))).memoryTurn hw

def twoAppends : Pool Conversation MemoryTask :=
  ⟨{ history := historyOf [] }, [.appending (.str "first"), .appending (.str "second")]⟩

def appendsIn (order : List ℕ) : Pool Conversation MemoryTask :=
  twoAppends.run memoryTurn (order.map fun i => (i, (.error "", "")))

/-- Both calls have read the history before either writes it. -/
theorem turn_lost : (appendsIn [0, 1, 0, 1]).tasks = [.returned (.str "first"), .returned (.str "second")] ∧
    (appendsIn [0, 1, 0, 1]).state.turns = [.str "second"] ∧ (appendsIn [0, 1, 0, 1]).state.covered = [] :=
  ⟨rfl, rfl, rfl⟩

theorem turns_in_order_kept : (appendsIn [0, 0, 1, 1]).state.turns = [.str "first", .str "second"] ∧
    TurnsKept (appendsIn [0, 0, 1, 1]) := by
  refine ⟨rfl, turns_kept _ twoAppends (fun turn htu => ?_) ?_⟩
  · simp [twoAppends] at htu
  · refine ⟨?_, ?_, ?_, ?_, trivial⟩
    all_goals
      intro t ht
      obtain rfl := Option.some.inj ht
      first | exact trivial | exact ⟨rfl, by decide⟩

end McpworksApi.Agents
