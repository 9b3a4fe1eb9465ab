import McpworksApi.Py.Hash

/-! A key-value server with expiring keys: the Redis commands the modelled code issues, each
executed atomically at a point in time. Values are strings or counters; a client created
with `decode_responses` receives text, any other client bytes. -/

namespace McpworksApi.Redis

open Py

inductive Value
  | str (s : String)
  | int (n : ℤ)
  deriving DecidableEq, Repr

structure Entry where
  value : Value
  expiresAt : Option ℕ := none
  deriving DecidableEq, Repr

def Store := String → Option Entry

inductive Command
  | get (key : String)
  | setex (key : String) (seconds : ℕ) (value : String)
  | set (key : String) (value : Value) (nx : Bool) (seconds : Option ℕ)
  | delete (key : String)
  | incr (key : String)
  | decr (key : String)
  | expire (key : String) (seconds : ℕ)
  | expireat (key : String) (time : ℕ)
  deriving DecidableEq, Repr

def Command.key : Command → String
  | get key | setex key _ _ | set key _ _ _ | delete key | incr key | decr key | expire key _ | expireat key _ => key

inductive Reply
  | nil
  | ok
  | str (s : String)
  | bytes (b : Bytes)
  | int (n : ℤ)
  | error (message : String)
  deriving DecidableEq, Repr

namespace Store

def empty : Store := fun _ => none

def set (s : Store) (key : String) (e : Option Entry) : Store := fun k => if k = key then e else s k

def live (s : Store) (now : ℕ) (key : String) : Option Entry :=
  match s key with
  | none => none
  | some e =>
    match e.expiresAt with
    | none => some e
    | some t => if now < t then some e else none

@[simp] theorem set_self (s : Store) (key : String) (e : Option Entry) : s.set key e key = e := if_pos rfl

theorem set_of_ne (s : Store) {key k : String} (e : Option Entry) (h : k ≠ key) : s.set key e k = s k := if_neg h

variable {s : Store} {now : ℕ} {key : String} {v : Value}

theorem live_of_none (h : s key = none) : s.live now key = none := by
  unfold live
  rw [h]

theorem live_of_lasting (h : s key = some ⟨v, none⟩) : s.live now key = some ⟨v, none⟩ := by
  unfold live
  rw [h]

theorem live_of_lt {t : ℕ} (h : s key = some ⟨v, some t⟩) (ht : now < t) : s.live now key = some ⟨v, some t⟩ := by
  unfold live
  rw [h]
  exact if_pos ht

theorem live_of_le {t : ℕ} (h : s key = some ⟨v, some t⟩) (ht : t ≤ now) : s.live now key = none := by
  unfold live
  rw [h]
  exact if_neg (Nat.not_lt.mpr ht)

theorem live_congr {s' : Store} (h : s' key = s key) : s'.live now key = s.live now key := by
  unfold live
  rw [h]

theorem live_of_later {e : Entry} {ls : ℕ} (h : s.live ls key = some e) (hle : now ≤ ls) :
    s.live now key = some e := by
  unfold live at h ⊢
  split at h
  · cases h
  · rename_i e' he
    split at h
    · exact h
    · split at h
      · rename_i hlt
        rw [if_pos (Nat.lt_of_le_of_lt hle hlt)]
        exact h
      · cases h

theorem lt_of_live {e : Entry} {t : ℕ} (h : s.live now key = some e) (ht : e.expiresAt = some t) : now < t := by
  unfold live at h
  split at h
  · cases h
  · split at h
    · rename_i hn
      cases h
      rw [hn] at ht
      cases ht
    · rename_i t' hs
      split at h
      · rename_i hlt
        cases h
        rw [hs] at ht
        cases ht
        exact hlt
      · cases h

theorem entry_of_live {e e' : Entry} (h : s key = some e) (hl : s.live now key = some e') : e' = e := by
  unfold live at hl
  rw [h] at hl
  dsimp only at hl
  split at hl
  · cases hl
    rfl
  · split at hl
    · cases hl
      rfl
    · cases hl

end Store

def second : ℕ := 1000000

def Value.text : Value → String
  | .str s => s
  | .int n => toString n

def received (decodeResponses : Bool) (v : Value) : Reply :=
  if decodeResponses then .str v.text else .bytes (encode v.text)

def exec (decodeResponses : Bool) (now : ℕ) : Command → Store → Reply × Store
  | .get key, s =>
    match s.live now key with
    | none => (.nil, s)
    | some e => (received decodeResponses e.value, s)
  | .setex key seconds v, s => (.ok, s.set key (some ⟨.str v, some (now + seconds * second)⟩))
  | .set key v nx seconds, s =>
    if nx ∧ (s.live now key).isSome then (.nil, s)
    else (.ok, s.set key (some ⟨v, seconds.map fun n => now + n * second⟩))
  | .delete key, s => (.int (if (s.live now key).isSome then 1 else 0), s.set key none)
  | .incr key, s =>
    match s.live now key with
    | none => (.int 1, s.set key (some ⟨.int 1, none⟩))
    | some ⟨.int n, t⟩ => (.int (n + 1), s.set key (some ⟨.int (n + 1), t⟩))
    | some ⟨.str _, _⟩ => (.error "value is not an integer or out of range", s)
  | .decr key, s =>
    match s.live now key with
    | none => (.int (-1), s.set key (some ⟨.int (-1), none⟩))
    | some ⟨.int n, t⟩ => (.int (n - 1), s.set key (some ⟨.int (n - 1), t⟩))
    | some ⟨.str _, _⟩ => (.error "value is not an integer or out of range", s)
  | .expire key seconds, s =>
    match s.live now key with
    | none => (.int 0, s)
    | some e => (.int 1, s.set key (some { e with expiresAt := some (now + seconds * second) }))
  | .expireat key time, s =>
    match s.live now key with
    | none => (.int 0, s)
    | some e => (.int 1, s.set key (some { e with expiresAt := some time }))

def Reply.IsDecoded : Reply → Prop
  | .bytes _ => False
  | _ => True

theorem exec_isDecoded (now : ℕ) (c : Command) (s : Store) : (exec true now c s).1.IsDecoded := by
  cases c with
  | get key =>
    simp only [exec]
    split
    · trivial
    · trivial
  | setex | delete => trivial
  | set | incr | decr | expire | expireat =>
    simp only [exec]
    split <;> trivial

section Exec

variable {s : Store} {now : ℕ} {key : String} (dr : Bool)

theorem exec_of_ne {n : ℕ} (c : Command) {k : String} (h : k ≠ c.key) : (exec dr n c s).2 k = s k := by
  cases c with
  | get key =>
    simp only [exec]
    split <;> rfl
  | setex | delete => exact if_neg h
  | set | incr | decr | expire | expireat =>
    simp only [exec]
    split <;> first | rfl | exact if_neg h

theorem exec_incr_of_none (h : s.live now key = none) :
    exec dr now (.incr key) s = (.int 1, s.set key (some ⟨.int 1, none⟩)) := by
  simp only [exec, h]

theorem exec_incr_of_some {n : ℤ} {t : Option ℕ} (h : s.live now key = some ⟨.int n, t⟩) :
    exec dr now (.incr key) s = (.int (n + 1), s.set key (some ⟨.int (n + 1), t⟩)) := by
  simp only [exec, h]

theorem exec_decr_of_some {n : ℤ} {t : Option ℕ} (h : s.live now key = some ⟨.int n, t⟩) :
    exec dr now (.decr key) s = (.int (n - 1), s.set key (some ⟨.int (n - 1), t⟩)) := by
  simp only [exec, h]

theorem exec_expire_of_some {e : Entry} (secs : ℕ) (h : s.live now key = some e) :
    exec dr now (.expire key secs) s =
      (.int 1, s.set key (some { e with expiresAt := some (now + secs * second) })) := by
  simp only [exec, h]

theorem exec_setnx_of_some {e : Entry} (v : Value) (secs : Option ℕ) (h : s.live now key = some e) :
    exec dr now (.set key v true secs) s = (.nil, s) := by
  simp [exec, h]

theorem exec_setnx_of_none (v : Value) (secs : Option ℕ) (h : s.live now key = none) :
    exec dr now (.set key v true secs) s =
      (.ok, s.set key (some ⟨v, secs.map fun n => now + n * second⟩)) := by
  simp [exec, h]

end Exec

end McpworksApi.Redis
