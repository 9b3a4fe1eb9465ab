import Mathlib.Data.List.AList
import McpworksApi.Models.Errors
import McpworksApi.Session.Tasks
import McpworksApi.Store.Redis

/-! The pool of connections to MCP servers, `core/mcp_pool.py`, with any number of calls that take turns at their
awaits. A connection is kept under its namespace and server and handed out without a look at what it was opened with,
and it is entered only when it is ready, over whatever is there by then. -/

namespace McpworksApi.Run.ConnectionPool

open Models

abbrev Key := ℕ × String

structure ConnectCall where
  key : Key
  url : Option String
  transport : String
  headers : Option (List (String × String)) := none
  command : Option String := none
  args : Option (List String) := none
  ttlSeconds : ℤ := 300
  deriving DecidableEq, Repr

structure PooledConnection where
  session : ℕ
  connectedAt : Time
  lastUsedAt : Time
  deriving DecidableEq, Repr

structure PoolState where
  pool : AList fun _ : Key => PooledConnection := ∅
  opened : List ConnectCall := []
  closed : List ℕ := []

inductive PoolTask
  | call (c : ConnectCall)
  /-- for the end of a connection that has expired -/
  | expiring (c : ConnectCall) (session : ℕ)
  /-- for the exit stack -/
  | entering (c : ConnectCall)
  /-- for the transport -/
  | opening (c : ConnectCall)
  /-- for the session on an open transport -/
  | starting (c : ConnectCall) (session : ℕ)
  | initializing (c : ConnectCall) (session : ℕ)
  /-- for the exit stack, after a failure -/
  | unwinding (c : ConnectCall) (session : ℕ)
  | connected (c : ConnectCall) (session : ℕ)
  | raised (c : ConnectCall)
  | evict (key : Key)
  /-- for the end of the connection that was taken out -/
  | closing (session : ℕ)
  | evicted
  deriving DecidableEq, Repr

abbrev Connections := Pool PoolState PoolTask

inductive AwaitOutcome
  | done
  | failed
  | cancelled
  deriving DecidableEq, Repr

structure PoolTurn where
  now : Time
  outcome : AwaitOutcome := .done

def transports : List String := ["sse", "streamable_http", "stdio"]

def isAlive (now : Time) (c : ConnectCall) (conn : PooledConnection) : Bool :=
  (now : ℤ) - conn.lastUsedAt < c.ttlSeconds * Redis.second

def poolTurn (x : PoolTurn) (t : PoolTask) (s : PoolState) : List PoolTask × PoolState :=
  match t with
  | .call c =>
    match s.pool.lookup c.key with
    | none => ([.entering c], s)
    | some conn =>
      if isAlive x.now c conn then
        ([.connected c conn.session], { s with pool := s.pool.insert c.key { conn with lastUsedAt := x.now } })
      else ([.expiring c conn.session], { s with pool := s.pool.erase c.key })
  | .expiring c session => ([.entering c], { s with closed := session :: s.closed })
  | .entering c => if c.transport ∈ transports then ([.opening c], s) else ([.raised c], s)
  | .opening c =>
    match x.outcome with
    | .done => ([.starting c s.opened.length], { s with opened := s.opened ++ [c] })
    | .failed | .cancelled => ([.raised c], s)
  | .starting c session =>
    match x.outcome with
    | .done => ([.initializing c session], s)
    | .failed => ([.unwinding c session], s)
    | .cancelled => ([.raised c], s)
  | .initializing c session =>
    match x.outcome with
    | .done =>
      ([.connected c session],
        { s with pool := s.pool.insert c.key { session, connectedAt := x.now, lastUsedAt := x.now } })
    | .failed => ([.unwinding c session], s)
    | .cancelled => ([.raised c], s)
  | .unwinding c session => ([.raised c], { s with closed := session :: s.closed })
  | .evict key =>
    match s.pool.lookup key with
    | none => ([.evicted], s)
    | some conn => ([.closing conn.session], { s with pool := s.pool.erase key })
  | .closing session => ([.evicted], { s with closed := session :: s.closed })
  | .connected _ _ | .raised _ | .evicted => ([t], s)

def openedAlike (s : PoolState) (session : ℕ) (c : ConnectCall) : Bool :=
  s.opened[session]?.any fun c' => c'.url = c.url ∧ c'.transport = c.transport ∧ c'.headers = c.headers

def InPool (s : PoolState) (session : ℕ) : Prop := ∃ e ∈ s.pool.entries, e.2.session = session

instance (s : PoolState) (session : ℕ) : Decidable (InPool s session) :=
  inferInstanceAs (Decidable (∃ e ∈ s.pool.entries, _))

def PoolTask.session? : PoolTask → Option ℕ
  | expiring _ session | starting _ session | initializing _ session | unwinding _ session | closing
      session => some session
  | call _ | entering _ | opening _ | connected _ _ | raised _ | evict _ | evicted => none

/-- Every session that was returned was opened as its call asked, and every connection is in the pool or closed, or a
call is still busy with it. -/
structure PoolSound (p : Connections) : Prop where
  returned : ∀ c session, .connected c session ∈ p.tasks → openedAlike p.state session c = true
  accounted : ∀ session < p.state.opened.length,
    session ∈ p.state.closed ∨ InPool p.state session ∨ ∃ t ∈ p.tasks, t.session? = some session

def connects (key : Key) : PoolTask → ℕ
  | .expiring c _ | .entering c | .opening c | .starting c _ | .initializing c _ => if c.key = key then 1 else 0
  | .call _ | .unwinding _ _ | .connected _ _ | .raised _ | .evict _ | .closing _ | .evicted => 0

def hitSession (now : Time) (c : ConnectCall) (s : PoolState) : Option ℕ :=
  ((s.pool.lookup c.key).filter (isAlive now c)).map PooledConnection.session

def PoolTask.call? : PoolTask → Option ConnectCall
  | call c => some c
  | _ => none

/-- The turns that keep the pool sound: a pooled session is asked for with what it was opened with, no call starts to
connect while another one for the same server connects, and no call is cancelled. -/
@[mk_iff] structure Coordinated (p : Connections) (x : PoolTurn) (t : PoolTask) : Prop where
  alike : ∀ c ∈ t.call?, ∀ session ∈ hitSession x.now c p.state, openedAlike p.state session c = true
  alone : ∀ c ∈ t.call?, hitSession x.now c p.state = none → Pool.total (connects c.key) p.tasks = 0
  uncancelled : x.outcome ≠ .cancelled

instance (p : Connections) (x : PoolTurn) (t : PoolTask) : Decidable (Coordinated p x t) :=
  decidable_of_iff' _ (coordinated_iff ..)

section Dictionary

variable {s : PoolState} {key : Key} {conn : PooledConnection} {session : ℕ}

theorem inPool_iff : InPool s session ↔ ∃ key conn, s.pool.lookup key = some conn ∧ conn.session = session := by
  constructor
  · rintro ⟨⟨key, conn⟩, he, hs⟩
    exact ⟨key, conn, AList.mem_lookup_iff.mpr he, hs⟩
  · rintro ⟨key, conn, hl, hs⟩
    exact ⟨⟨key, conn⟩, AList.mem_lookup_iff.mp hl, hs⟩

theorem inPool_insert : InPool { s with pool := s.pool.insert key conn } conn.session :=
  inPool_iff.mpr ⟨key, conn, AList.lookup_insert _, rfl⟩

theorem InPool.insert (h : InPool s session) (hke : ∀ old, s.pool.lookup key = some old →
    old.session = conn.session) :
    InPool { s with pool := s.pool.insert key conn } session := by
  obtain ⟨k, e, hl, hs⟩ := inPool_iff.mp h
  by_cases hk : k = key
  · subst hk
    rw [← hs, hke e hl]
    exact inPool_insert
  · exact inPool_iff.mpr ⟨k, e, (AList.lookup_insert_ne hk).trans hl, hs⟩

theorem InPool.erase (h : InPool s session) (hl : s.pool.lookup key = some conn) :
    InPool { s with pool := s.pool.erase key } session ∨ conn.session = session := by
  obtain ⟨k, e, he, hs⟩ := inPool_iff.mp h
  by_cases hk : k = key
  · subst hk
    obtain rfl := Option.some.inj (hl.symm.trans he)
    exact .inr hs
  · exact .inl (inPool_iff.mpr ⟨k, e, (AList.lookup_erase_ne hk).trans he, hs⟩)

theorem lookup_erase_of_none {k : Key} (h : s.pool.lookup k = none) : (s.pool.erase key).lookup k = none := by
  by_cases hk : k = key
  · rw [hk, AList.lookup_erase]
  · rw [AList.lookup_erase_ne hk, h]

end Dictionary

section Invariant

variable {s s' : PoolState} {x : PoolTurn} {pre after : List PoolTask} {t t' : PoolTask}

def TaskOk (s : PoolState) : PoolTask → Prop
  | .starting c session | .initializing c session => s.opened[session]? = some c
  | .connected c session => openedAlike s session c = true
  | _ => True

theorem TaskOk.opened (h : TaskOk s t) {more : List ConnectCall}
    (hm : s'.opened = s.opened ++ more) : TaskOk s' t := by
  have hg {session : ℕ} {c : ConnectCall} (hc : s.opened[session]? = some c) : s'.opened[session]? = some c := by
    rw [hm, List.getElem?_append_left (List.getElem?_eq_some_iff.mp hc).1, hc]
  cases t with
  | starting c session => exact hg h
  | initializing c session => exact hg h
  | connected c session =>
    change openedAlike s' session c = true
    change openedAlike s session c = true at h
    unfold openedAlike at h ⊢
    cases hc : s.opened[session]? with
    | none =>
      rw [hc] at h
      cases h
    | some c' =>
      rw [hg hc, ← hc]
      exact h
  | _ => trivial

structure Sound (p : Connections) : Prop where
  tasks : ∀ t ∈ p.tasks, TaskOk p.state t
  accounted : ∀ session < p.state.opened.length,
    session ∈ p.state.closed ∨ InPool p.state session ∨ ∃ t ∈ p.tasks, t.session? = some session
  single : ∀ key, Pool.total (connects key) p.tasks ≤ 1
  free : ∀ key, 0 < Pool.total (connects key) p.tasks → p.state.pool.lookup key = none

theorem Sound.poolSound {p : Connections} (h : Sound p) : PoolSound p :=
  ⟨fun _ _ hm => h.tasks _ hm, h.accounted⟩

theorem Sound.step (h : Sound ⟨s, pre ++ t :: after⟩) {more : List ConnectCall} (hmo : s'.opened = s.opened ++ more)
    (ht : TaskOk s' t')
    (ho : ∀ session, session ∈ s.closed ∨ InPool s session ∨ t.session? = some session →
      session ∈ s'.closed ∨ InPool s' session ∨ t'.session? = some session)
    (hn : ∀ session, s.opened.length ≤ session → session < s'.opened.length → t'.session? = some session)
    (hk : ∀ key, Pool.total (connects key) (pre ++ [t'] ++ after) ≤ 1 ∧
      (0 < Pool.total (connects key) (pre ++ [t'] ++ after) → s'.pool.lookup key = none)) :
    Sound ⟨s', pre ++ [t'] ++ after⟩ := by
  have hm (u : PoolTask) : u ∈ pre ++ [t'] ++ after ↔ u = t' ∨ u ∈ pre ∨ u ∈ after := by
    simp only [List.mem_append, List.mem_singleton]
    tauto
  refine ⟨?_, ?_, fun key => (hk key).1, fun key => (hk key).2⟩
  · intro u hu
    rcases (hm u).mp hu with rfl | hu
    · exact ht
    · exact (h.tasks u (by simp only [List.mem_append, List.mem_cons]; tauto)).opened hmo
  · intro session hse
    by_cases hlt : session < s.opened.length
    · have hmi (hc : session ∈ s'.closed ∨ InPool s' session ∨ t'.session? = some session) :
          session ∈ s'.closed ∨ InPool s' session ∨ ∃ u ∈ pre ++ [t'] ++ after, u.session? = some session := by
        rcases hc with hc | hc | hc
        · exact .inl hc
        · exact .inr (.inl hc)
        · exact .inr (.inr ⟨t', (hm t').mpr (.inl rfl), hc⟩)
      rcases h.accounted session hlt with hc | hc | ⟨u, hu, hs⟩
      · exact hmi (ho session (.inl hc))
      · exact hmi (ho session (.inr (.inl hc)))
      · simp only [List.mem_append, List.mem_cons] at hu
        rcases hu with hu | rfl | hu
        · exact .inr (.inr ⟨u, (hm u).mpr (.inr (.inl hu)), hs⟩)
        · exact hmi (ho session (.inr (.inr hs)))
        · exact .inr (.inr ⟨u, (hm u).mpr (.inr (.inr hu)), hs⟩)
    · exact .inr (.inr ⟨t', (hm t').mpr (.inl rfl), hn session (Nat.le_of_not_lt hlt) hse⟩)

theorem Sound.keys (h : Sound ⟨s, pre ++ t :: after⟩) (hl : ∀ key, connects key t' ≤ connects key t)
    {pool : AList fun _ : Key => PooledConnection} (hn : ∀ key, s.pool.lookup key = none → pool.lookup key = none)
    (key : Key) :
    Pool.total (connects key) (pre ++ [t'] ++ after) ≤ 1 ∧
      (0 < Pool.total (connects key) (pre ++ [t'] ++ after) → pool.lookup key = none) := by
  have hle := hl key
  have hs := h.single key
  have hf := h.free key
  simp only [Pool.total_append, Pool.total_cons, Pool.total_nil] at hs hf ⊢
  exact ⟨by omega, fun hp => hn key (hf (by omega))⟩

theorem Sound.same (h : Sound ⟨s, pre ++ t :: after⟩) (ht : TaskOk s t')
    (hl : ∀ key, connects key t' ≤ connects key t)
    (hs : ∀ session, t.session? = some session → t'.session? = some session) :
    Sound ⟨s, pre ++ [t'] ++ after⟩ := by
  refine h.step (List.append_nil _).symm ht ?_ (fun session hle hlt => absurd hle (Nat.not_le.mpr hlt))
    (h.keys hl fun _ hn => hn)
  rintro session (hc | hc | hc)
  · exact .inl hc
  · exact .inr (.inl hc)
  · exact .inr (.inr (hs session hc))

theorem Sound.close {session : ℕ} (h : Sound ⟨s, pre ++ t :: after⟩) (hs : t.session? = some session)
    (ht : TaskOk s t') (hl : ∀ key, connects key t' ≤ connects key t) :
    Sound ⟨{ s with closed := session :: s.closed }, pre ++ [t'] ++ after⟩ := by
  refine h.step (List.append_nil _).symm ?_ ?_ (fun session hle hlt => absurd hle (Nat.not_le.mpr hlt))
    (h.keys hl fun _ hn => hn)
  · exact ht.opened (List.append_nil _).symm
  · rintro session' (hc | hc | hc)
    · exact .inl (List.mem_cons_of_mem _ hc)
    · exact .inr (.inl hc)
    · obtain rfl := Option.some.inj (hs.symm.trans hc)
      exact .inl List.mem_cons_self

variable {c : ConnectCall} {conn : PooledConnection}

theorem Sound.evict {key : Key} (h : Sound ⟨s, pre ++ t :: after⟩)
    (hl : s.pool.lookup key = some conn) (hb : t.session? = none) (hs : t'.session? = some conn.session)
    (ht : TaskOk s t')
    (hk : ∀ k, Pool.total (connects k) (pre ++ [t'] ++ after) ≤ 1 ∧
      (0 < Pool.total (connects k) (pre ++ [t'] ++ after) → (s.pool.erase key).lookup k = none)) :
    Sound ⟨{ s with pool := s.pool.erase key }, pre ++ [t'] ++ after⟩ := by
  refine h.step (List.append_nil _).symm ?_ ?_ (fun session hle hlt => absurd hle (Nat.not_le.mpr hlt)) hk
  · exact ht.opened (List.append_nil _).symm
  · rintro session (hc | hc | hc)
    · exact .inl hc
    · rcases hc.erase hl with hp | rfl
      · exact .inr (.inl hp)
      · exact .inr (.inr hs)
    · rw [hb] at hc
      cases hc

theorem Sound.enter (h : Sound ⟨s, pre ++ .call c :: after⟩)
    (ha : Pool.total (connects c.key) (pre ++ .call c :: after) = 0)
    (ht' : ∀ key, connects key t' = if c.key = key then 1 else 0) {pool : AList fun _ : Key => PooledConnection}
    (hm : pool.lookup c.key = none) (hn : ∀ key, s.pool.lookup key = none → pool.lookup key = none) (key : Key) :
    Pool.total (connects key) (pre ++ [t'] ++ after) ≤ 1 ∧
      (0 < Pool.total (connects key) (pre ++ [t'] ++ after) → pool.lookup key = none) := by
  have hs := h.single key
  have hf := h.free key
  simp only [Pool.total_append, Pool.total_cons, Pool.total_nil] at ha hs hf ⊢
  rw [ht' key]
  split_ifs with hk
  · subst hk
    exact ⟨by omega, fun _ => hm⟩
  · exact ⟨by omega, fun hp => hn key (hf (by omega))⟩

theorem hitSession_eq_some {now : Time}
    (hl : s.pool.lookup c.key = some conn) (ha : isAlive now c conn = true) :
    hitSession now c s = some conn.session := by
  simp [hitSession, hl, Option.filter, ha]

theorem hitSession_eq_none {now : Time}
    (h : ∀ conn, s.pool.lookup c.key = some conn → isAlive now c conn = false) : hitSession now c s = none := by
  cases hl : s.pool.lookup c.key with
  | none => simp [hitSession, hl]
  | some conn => simp [hitSession, hl, Option.filter, h conn hl]

theorem Sound.lookup (h : Sound ⟨s, pre ++ .call c :: after⟩)
    (hx : Coordinated ⟨s, pre ++ .call c :: after⟩ x (.call c)) :
    Sound ⟨(poolTurn x (.call c) s).2, pre ++ (poolTurn x (.call c) s).1 ++ after⟩ := by
  unfold poolTurn
  dsimp only
  cases hl : s.pool.lookup c.key with
  | none =>
    have hm : hitSession x.now c s = none :=
      hitSession_eq_none fun conn hco => by cases hl.symm.trans hco
    refine h.step (List.append_nil _).symm trivial ?_ (fun session hle hlt => absurd hle (Nat.not_le.mpr hlt))
      (h.enter (hx.alone c rfl hm) (fun _ => rfl) hl fun _ hn => hn)
    rintro session (hc | hc | hc)
    · exact .inl hc
    · exact .inr (.inl hc)
    · cases hc
  | some conn =>
    dsimp only
    split_ifs with ha
    · have hh := hx.alike c rfl conn.session (hitSession_eq_some hl ha)
      refine h.step (List.append_nil _).symm ?_ ?_ (fun session hle hlt => absurd hle (Nat.not_le.mpr hlt))
        (h.keys (fun _ => Nat.zero_le _) ?_)
      · exact hh
      · rintro session (hc | hc | hc)
        · exact .inl hc
        · refine .inr (.inl (hc.insert fun old ho => ?_))
          rw [Option.some.inj (ho.symm.trans hl)]
        · cases hc
      · intro key hn
        have hne : key ≠ c.key := by
          rintro rfl
          cases hn.symm.trans hl
        exact (AList.lookup_insert_ne hne).trans hn
    · have hm : hitSession x.now c s = none := by
        refine hitSession_eq_none fun e he => ?_
        rw [← Option.some.inj (hl.symm.trans he)]
        simpa using ha
      refine h.evict hl rfl rfl trivial (h.enter (hx.alone c rfl hm) (fun _ => rfl) (AList.lookup_erase _ _) ?_)
      exact fun _ hn => lookup_erase_of_none hn

theorem Sound.ready {session : ℕ} (hco : conn.session = session)
    (h : Sound ⟨s, pre ++ .initializing c session :: after⟩) :
    Sound ⟨{ s with pool := s.pool.insert c.key conn }, pre ++ [.connected c session] ++ after⟩ := by
  have ho : s.opened[session]? = some c := h.tasks _ (List.mem_append_right _ List.mem_cons_self)
  have he : s.pool.lookup c.key = none := by
    refine h.free c.key ?_
    simp only [Pool.total_append, Pool.total_cons, connects, if_true]
    omega
  refine h.step (List.append_nil _).symm ?_ ?_ (fun session hle hlt => absurd hle (Nat.not_le.mpr hlt)) ?_
  · change openedAlike { s with pool := s.pool.insert c.key conn } session c = true
    simp [openedAlike, ho]
  · rintro session' (hc | hc | hc)
    · exact .inl hc
    · refine .inr (.inl (hc.insert fun old hol => ?_))
      cases he.symm.trans hol
    · obtain rfl : session = session' := Option.some.inj hc
      rw [← hco]
      exact .inr (.inl inPool_insert)
  · intro key
    have hs := h.single key
    have hf := h.free key
    simp only [Pool.total_append, Pool.total_cons, Pool.total_nil, connects] at hs hf ⊢
    by_cases hk : c.key = key
    · rw [if_pos hk] at hs
      exact ⟨by omega, fun hp => by omega⟩
    · rw [if_neg hk] at hs hf
      exact ⟨by omega, fun hp => (AList.lookup_insert_ne (Ne.symm hk)).trans (hf (by omega))⟩

theorem Sound.opened (h : Sound ⟨s, pre ++ .opening c :: after⟩) :
    Sound ⟨{ s with opened := s.opened ++ [c] }, pre ++ [.starting c s.opened.length] ++ after⟩ := by
  have hl (key : Key) : connects key (.starting c s.opened.length) ≤ connects key (.opening c) := Nat.le_refl _
  refine h.step rfl ?_ ?_ ?_ (h.keys hl fun _ hn => hn)
  · change (s.opened ++ [c])[s.opened.length]? = some c
    simp
  · rintro session (hc | hc | hc)
    · exact .inl hc
    · exact .inr (.inl hc)
    · cases hc
  · intro session hle hlt
    simp only [List.length_append, List.length_singleton] at hlt
    obtain rfl : session = s.opened.length := by omega
    rfl

theorem Sound.turn (h : Sound ⟨s, pre ++ t :: after⟩) (hx : Coordinated ⟨s, pre ++ t :: after⟩ x t) :
    Sound ⟨(poolTurn x t s).2, pre ++ (poolTurn x t s).1 ++ after⟩ := by
  have hc : x.outcome ≠ .cancelled := hx.uncancelled
  have ht : TaskOk s t := h.tasks t (List.mem_append_right _ List.mem_cons_self)
  have hd (c : ConnectCall) (key : Key) : connects key (.raised c) ≤ connects key t := Nat.zero_le _
  cases t with
  | call c => exact h.lookup hx
  | expiring c session => exact h.close rfl trivial fun _ => Nat.le_refl _
  | entering c =>
    unfold poolTurn
    dsimp only
    split_ifs
    · exact h.same trivial (fun _ => Nat.le_refl _) (fun _ hs => hs)
    · exact h.same trivial (hd c) (fun _ hs => hs)
  | opening c =>
    unfold poolTurn
    cases ho : x.outcome with
    | done => exact h.opened
    | failed => exact h.same trivial (hd c) (fun _ hs => hs)
    | cancelled => exact absurd ho hc
  | starting c session =>
    unfold poolTurn
    cases ho : x.outcome with
    | done => exact h.same ht (fun _ => Nat.le_refl _) (fun _ hs => hs)
    | failed => exact h.same trivial (fun _ => Nat.zero_le _) (fun _ hs => hs)
    | cancelled => exact absurd ho hc
  | initializing c session =>
    unfold poolTurn
    cases ho : x.outcome with
    | done => exact h.ready rfl
    | failed => exact h.same trivial (fun _ => Nat.zero_le _) (fun _ hs => hs)
    | cancelled => exact absurd ho hc
  | unwinding c session => exact h.close rfl trivial (hd c)
  | evict key =>
    unfold poolTurn
    dsimp only
    cases hl : s.pool.lookup key with
    | none => exact h.same trivial (fun _ => Nat.zero_le _) (fun _ hs => hs)
    | some conn =>
      exact h.evict hl rfl rfl trivial (h.keys (fun _ => Nat.zero_le _) fun _ hn => lookup_erase_of_none hn)
  | closing session => exact h.close rfl trivial fun _ => Nat.zero_le _
  | connected | raised | evicted => exact h.same ht (fun _ => Nat.le_refl _) (fun _ hs => hs)

def PoolTask.isNew : PoolTask → Bool
  | call _ | evict _ => true
  | _ => false

theorem Sound.start {tasks : List PoolTask} (hn : ∀ t ∈ tasks, t.isNew = true) : Sound ⟨{}, tasks⟩ where
  tasks := by
    intro t ht
    have htn := hn t ht
    cases t <;> trivial
  accounted := fun session hlt => absurd hlt (Nat.not_lt_zero session)
  single := fun key => by
    rw [Pool.total_eq_zero]
    · exact Nat.zero_le 1
    · intro t ht
      have htn := hn t ht
      cases t <;> first | rfl | cases htn
  free := fun _ _ => rfl

end Invariant

/-- In a coordinated schedule every session is what its call asked for, and no connection is lost. -/
theorem connections_sound {tasks : List PoolTask} (hnew : ∀ t ∈ tasks, t.isNew = true)
    (schedule : List (ℕ × PoolTurn))
    (h : Pool.Permits poolTurn Coordinated ⟨{}, tasks⟩ schedule) :
      PoolSound (Pool.run poolTurn ⟨{}, tasks⟩ schedule) :=
  (Pool.run_invariant (I := Sound) (fun _ _ _ _ _ hs hx => hs.turn hx) (Sound.start hnew) h).poolSound

def callWith (token : String) : ConnectCall :=
  { key := (1, "crm"), url := some "crm", transport := "sse",
    headers := some [("Authorization", "Bearer " ++ token)] }

def connectSteps (task : ℕ) : List (ℕ × PoolTurn) := List.replicate 5 (task, ⟨0, .done⟩)

def afterRenewal : Connections :=
  Pool.run poolTurn ⟨{}, [.call (callWith "old"), .call (callWith "new")]⟩ (connectSteps 0 ++ [(1, ⟨1, .done⟩)])

def afterRace : Connections :=
  Pool.run poolTurn ⟨{}, [.call (callWith "a"), .call (callWith "a")]⟩
    ([(0, ⟨0, .done⟩), (1, ⟨0, .done⟩)] ++ connectSteps 0 ++ connectSteps 1)

/-- The call with the new token gets the session with the old one; and of the two connections that are opened at once the
first is neither in the pool nor closed, though no call is busy with it. -/
theorem pool_unsound : ¬ PoolSound afterRenewal ∧ ¬ PoolSound afterRace := by
  constructor
  · intro h
    have hr := h.returned (callWith "new") 0 (by decide +kernel)
    revert hr
    decide +kernel
  · intro h
    have hl : ¬ (0 ∈ afterRace.state.closed ∨ InPool afterRace.state 0 ∨
        ∃ t ∈ afterRace.tasks, t.session? = some 0) := by
      decide +kernel
    exact hl (h.accounted 0 (by decide +kernel))

theorem same_token_sound :
    PoolSound (Pool.run poolTurn ⟨{}, [.call (callWith "a"), .call (callWith "a"), .evict (1, "crm")]⟩
      (connectSteps 0 ++ [(1, ⟨1, .done⟩), (2, ⟨2, .done⟩), (2, ⟨2, .done⟩)])) := by
  refine connections_sound (by decide) _ ?_
  refine ⟨?_, ?_, ?_, ?_, ?_, ?_, ?_, ?_, trivial⟩ <;> decide +kernel

end McpworksApi.Run.ConnectionPool
