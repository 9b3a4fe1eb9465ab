import McpworksApi.Session.Process
import McpworksApi.Store.Redis

/-! `RateLimiter.is_rate_limited`: a counter in Redis that is given an expiry by the call that counts to one. The
counter is one for a fixed window that starts with its first call, and not for the time before each call: two windows
in a row may admit twice the limit within the length of one. -/

namespace McpworksApi.Limits

open Redis

abbrev LimiterProc := Proc Command Reply String

def counted : Reply → LimiterProc ℤ
  | .int n => pure n
  | .error message => Proc.fail message
  | _ => Proc.fail "unexpected reply"

def isRateLimited (key : String) (limit windowSeconds : ℕ) : LimiterProc (Bool × ℤ) := do
  let current ← Proc.perform (.incr key) >>= counted
  let _ ← if current = 1 then Proc.perform (.expire key windowSeconds) else pure .nil
  pure (decide ((limit : ℤ) < current), current)

abbrev Limiter := System Store Command Reply String (Bool × ℤ)

def Clients (key : String) (limit windowSeconds : ℕ) (procs : List (LimiterProc (Bool × ℤ))) : Prop :=
  ∀ p ∈ procs, p = isRateLimited key limit windowSeconds ∨
    p = (isRateLimited key limit windowSeconds).failAfter "client failed" 1

def admits (limit : ℕ) (e : Event Command Reply) : Bool :=
  match e.command, e.reply with
  | .incr _, .int n => n ≠ 1 ∧ n ≤ (limit : ℤ)
  | .expire _ _, _ => 1 ≤ limit
  | _, _ => false

def admissions (limit : ℕ) (trace : List (Event Command Reply)) : List ℕ := (trace.filter (admits limit)).map (·.time)

def within (start length : ℕ) (times : List ℕ) : List ℕ := times.filter fun t => start ≤ t ∧ t < start + length

def opens (key : String) (s : Limiter) (it : ℕ × ℕ) : Bool :=
  match s.procs[it.1]? with
  | some (.call (.incr _) _) => (s.store.live it.2 key).isNone
  | _ => false

def Spaced (key : String) (limit windowSeconds : ℕ) (s : Limiter) (it : ℕ × ℕ) : Prop :=
  (∀ e ∈ s.trace, e.time ≤ it.2) ∧
    (opens key s it = true → ∀ t ∈ admissions limit s.trace, t + windowSeconds * second ≤ it.2)

instance (key : String) (limit windowSeconds : ℕ) (s : Limiter) (it : ℕ × ℕ) :
    Decidable (Spaced key limit windowSeconds s it) := inferInstanceAs (Decidable (_ ∧ (_ → _)))

section Windows

variable {limit length opened now current : ℕ} {times : List ℕ}

/-- The admissions before the window that is open now, and those in it. -/
structure Windows (limit length opened current : ℕ) (times : List ℕ) : Prop where
  split : ∃ old cur, times = old ++ cur ∧ cur.length = current ∧ (∀ t ∈ old, t + length ≤ opened) ∧
    (∀ t ∈ cur, opened ≤ t) ∧ ∀ start, (within start length old).length ≤ limit

theorem within_append (start length : ℕ) (l l' : List ℕ) :
    within start length (l ++ l') = within start length l ++ within start length l' := List.filter_append ..

theorem Windows.nil (limit length opened : ℕ) : Windows limit length opened 0 [] :=
  ⟨[], [], rfl, rfl, by simp, by simp, fun _ => Nat.zero_le _⟩

theorem Windows.within_le (h : Windows limit length opened current times) (hc : current ≤ limit) (start : ℕ) :
    (within start length times).length ≤ limit := by
  obtain ⟨old, cur, rfl, hl, ho, hcu, hw⟩ := h.split
  rw [within_append, List.length_append]
  by_cases hn : within start length cur = []
  · rw [hn, List.length_nil]
    exact hw start
  · obtain ⟨t, ht⟩ := List.exists_mem_of_ne_nil _ hn
    obtain ⟨htc, ht⟩ := List.mem_filter.mp ht
    have hop := hcu t htc
    have ho' : within start length old = [] := by
      rw [List.eq_nil_iff_forall_not_mem]
      intro u hu
      obtain ⟨huo, hu⟩ := List.mem_filter.mp hu
      have := ho u huo
      simp only [decide_eq_true_eq] at ht hu
      omega
    have hle : (within start length cur).length ≤ cur.length := List.length_filter_le _ _
    rw [ho', List.length_nil]
    omega

theorem Windows.reopen (h : Windows limit length opened current times) (hc : current ≤ limit)
    (hs : ∀ t ∈ times, t + length ≤ now) : Windows limit length now 0 times :=
  ⟨times, [], by simp, rfl, hs, by simp, h.within_le hc⟩

theorem Windows.admit (h : Windows limit length opened current times) (hn : opened ≤ now) :
    Windows limit length opened (current + 1) (times ++ [now]) := by
  obtain ⟨old, cur, rfl, hl, ho, hc, hw⟩ := h.split
  refine ⟨old, cur ++ [now], List.append_assoc .., by simp [hl], ho, fun t ht => ?_, hw⟩
  rcases List.mem_append.mp ht with ht | ht
  · exact hc t ht
  · rw [List.mem_singleton.mp ht]
    exact hn

end Windows

def expiring (key : String) (limit windowSeconds : ℕ) : LimiterProc (Bool × ℤ) :=
  .call (.expire key windowSeconds) fun _ => .ret (.ok (decide ((limit : ℤ) < 1), 1))

def afterIncr (key : String) (limit windowSeconds : ℕ) (fails : Bool) (n : ℤ) : LimiterProc (Bool × ℤ) :=
  if n = 1 then if fails then .ret (.error "client failed") else expiring key limit windowSeconds
  else .ret (.ok (decide ((limit : ℤ) < n), n))

inductive Stage (key : String) (limit windowSeconds : ℕ) (mayFail : Bool) : LimiterProc (Bool × ℤ) → Prop
  | starting (fails : Bool) (k : Reply → LimiterProc (Bool × ℤ)) (hfails : fails = true → mayFail = true)
    (hk : ∀ n, k (.int n) = afterIncr key limit windowSeconds fails n) :
    Stage key limit windowSeconds mayFail (.call (.incr key) k)
  | expiring : Stage key limit windowSeconds mayFail (expiring key limit windowSeconds)
  | ended (x : Except String (Bool × ℤ)) : Stage key limit windowSeconds mayFail (.ret x)

theorem stage_isRateLimited (key : String) (limit windowSeconds : ℕ) (mayFail : Bool) :
    Stage key limit windowSeconds mayFail (isRateLimited key limit windowSeconds) := by
  refine .starting false _ (fun h => by cases h) fun n => ?_
  unfold afterIncr
  by_cases h : n = 1
  · subst h
    rfl
  · rw [if_neg h]
    exact (if_neg h).trans rfl

theorem stage_failAfter (key : String) (limit windowSeconds : ℕ) :
    Stage key limit windowSeconds true ((isRateLimited key limit windowSeconds).failAfter "client failed" 1) := by
  refine .starting true _ (fun _ => rfl) fun n => ?_
  unfold afterIncr
  by_cases h : n = 1
  · subst h
    rfl
  · rw [if_neg h]
    change Proc.failAfter _ 0 (if n = 1 then _ else _) = _
    rw [if_neg h]
    rfl

def isExpiring : LimiterProc (Bool × ℤ) → Bool
  | .call (.expire _ _) _ => true
  | _ => false

def waiting (s : Limiter) : ℕ := s.procs.countP isExpiring

section Run

variable {key : String} {limit windowSeconds : ℕ} {mayFail : Bool} {s : Limiter} {c : ℕ} {expiry : Option ℕ}
  {opened current : ℕ}

def Admitted (s : Limiter) (i : ℕ) : Prop := ∃ n, s.procs[i]? = some (.ret (.ok (false, n)))

def Answers (limit : ℕ) (s : Limiter) : Prop := ∀ i, Admitted s i ↔ ∃ e ∈ s.trace, e.thread = i ∧
    admits limit e = true

variable {k : Reply → LimiterProc (Bool × ℤ)} {now i : ℕ}

theorem Answers.set {e : Event Command Reply} {c : Command}
    {q : LimiterProc (Bool × ℤ)} {store : Store} (h : Answers limit s) (hp : s.procs[i]? = some (.call c k))
    (ht : e.thread = i) (hq : (∃ n, q = .ret (.ok (false, n))) ↔ admits limit e = true) :
    Answers limit ⟨store, s.procs.set i q, s.trace ++ [e]⟩ := by
  intro j
  have hc : (∃ e' ∈ s.trace ++ [e], e'.thread = j ∧ admits limit e' = true) ↔
      (∃ e' ∈ s.trace, e'.thread = j ∧ admits limit e' = true) ∨ e.thread = j ∧ admits limit e = true := by
    simp only [List.mem_append, List.mem_singleton, or_and_right, exists_or, exists_eq_left]
  refine Iff.trans ?_ hc.symm
  rw [← h j]
  unfold Admitted
  dsimp only
  have hlt : i < s.procs.length := (List.getElem?_eq_some_iff.mp hp).1
  by_cases hj : j = i
  · subst hj
    simp [List.getElem?_set_self hlt, hp, ht, hq]
  · have hne : e.thread ≠ j := fun heq => hj (heq.symm.trans ht)
    simp [List.getElem?_set_ne (Ne.symm hj), hne]

structure Counting (key : String) (limit windowSeconds : ℕ) (mayFail : Bool) (s : Limiter) (c : ℕ) (expiry : Option ℕ)
    (opened current : ℕ) : Prop where
  entry : s.store key = some ⟨.int c, expiry⟩
  pos : 1 ≤ c
  windows : Windows limit (windowSeconds * second) opened current (admissions limit s.trace)
  admitted : current + min (waiting s) limit ≤ min c limit
  one : waiting s ≤ 1
  lasting : waiting s = 1 → expiry = none
  expires : mayFail = false → expiry = none → waiting s = 1
  started : ∃ e ∈ s.trace, opened ≤ e.time
  ends : ∀ t, expiry = some t → ∃ e ∈ s.trace, t = e.time + windowSeconds * second

/-- The invariant of the limiter: its counter says how many were admitted in the open window. -/
structure Limited (key : String) (limit windowSeconds : ℕ) (mayFail : Bool) (s : Limiter) : Prop where
  stages : ∀ p ∈ s.procs, Stage key limit windowSeconds mayFail p
  answers : Answers limit s
  counter : (s.store key = none ∧ s.trace = [] ∧ waiting s = 0) ∨
    ∃ c expiry opened current, Counting key limit windowSeconds mayFail s c expiry opened current

theorem Limited.within_le (h : Limited key limit windowSeconds mayFail s) (start : ℕ) :
    (within start (windowSeconds * second) (admissions limit s.trace)).length ≤ limit := by
  rcases h.counter with ⟨-, ht, -⟩ | ⟨c, expiry, opened, current, hc⟩
  · rw [ht]
    exact Nat.zero_le limit
  · have ha := hc.admitted
    exact hc.windows.within_le (by omega) start

theorem admissions_concat (limit : ℕ) (trace : List (Event Command Reply)) (e : Event Command Reply) :
    admissions limit (trace ++ [e]) = admissions limit trace ++ if admits limit e then [e.time] else [] := by
  unfold admissions
  rw [List.filter_append, List.map_append]
  congr 1
  by_cases h : admits limit e <;> simp [h]

theorem waiting_set {p : LimiterProc (Bool × ℤ)} (hp : s.procs[i]? = some p) (q : LimiterProc (Bool × ℤ))
    (store : Store) (trace : List (Event Command Reply)) :
    waiting ⟨store, s.procs.set i q, trace⟩ + (isExpiring p).toNat = waiting s + (isExpiring q).toNat := by
  obtain ⟨hi, rfl⟩ := List.getElem?_eq_some_iff.mp hp
  unfold waiting
  rw [List.countP_set hi]
  have hit : ∀ b : Bool, (if b = true then 1 else 0) = b.toNat := by decide
  have hle : (isExpiring s.procs[i]).toNat ≤ s.procs.countP isExpiring := by
    cases h : isExpiring s.procs[i]
    · exact Nat.zero_le _
    · exact List.countP_pos_iff.mpr ⟨_, List.getElem_mem hi, h⟩
  rw [hit, hit]
  omega

theorem stage_afterIncr (fails : Bool) (n : ℤ) :
    Stage key limit windowSeconds mayFail (afterIncr key limit windowSeconds fails n) := by
  unfold afterIncr
  split_ifs with hn hf
  · exact .ended _
  · exact .expiring
  · exact .ended _

theorem Limited.stages_set (h : Limited key limit windowSeconds mayFail s) {q : LimiterProc (Bool × ℤ)}
    (hq : Stage key limit windowSeconds mayFail q) (i : ℕ) :
    ∀ p ∈ s.procs.set i q, Stage key limit windowSeconds mayFail p := by
  intro p hp
  rcases List.mem_or_eq_of_mem_set hp with hp | rfl
  · exact h.stages p hp
  · exact hq

theorem Windows.record {length : ℕ} {trace : List (Event Command Reply)} {e : Event Command Reply}
    (h : Windows limit length opened current (admissions limit trace)) (ho : opened ≤ e.time) :
    Windows limit length opened (current + (admits limit e).toNat) (admissions limit (trace ++ [e])) := by
  rw [admissions_concat]
  cases admits limit e with
  | true => exact h.admit ho
  | false => exact (List.append_nil (admissions limit trace)).symm ▸ h

theorem Limited.after {c : Command} {q : LimiterProc (Bool × ℤ)} {store : Store} {e : Event Command Reply}
    (h : Limited key limit windowSeconds mayFail s) (hp : s.procs[i]? = some (.call c k))
    (hq : Stage key limit windowSeconds mayFail q) (ht : e.thread = i)
    (ha : (∃ n, q = .ret (.ok (false, n))) ↔ admits limit e = true)
    (hc : waiting ⟨store, s.procs.set i q, s.trace ++ [e]⟩ + (isExpiring (.call c k)).toNat =
        waiting s + (isExpiring q).toNat →
      ∃ c expiry opened current,
        Counting key limit windowSeconds mayFail ⟨store, s.procs.set i q, s.trace ++ [e]⟩ c expiry opened current) :
    Limited key limit windowSeconds mayFail ⟨store, s.procs.set i q, s.trace ++ [e]⟩ :=
  ⟨h.stages_set hq i, h.answers.set hp ht ha, .inr (hc (waiting_set hp q _ _))⟩

theorem Limited.open {fails : Bool}
    (h : Limited key limit windowSeconds mayFail s) (hp : s.procs[i]? = some (.call (.incr key) k))
    (hf : fails = true → mayFail = true) (hd : s.store.live now key = none)
    (hsp : ∀ t ∈ admissions limit s.trace, t + windowSeconds * second ≤ now) :
    Limited key limit windowSeconds mayFail
      ⟨s.store.set key (some ⟨.int 1, none⟩), s.procs.set i (afterIncr key limit windowSeconds fails 1),
        s.trace ++ [⟨i, now, .incr key, .int 1⟩]⟩ := by
  -- nobody waits: a counter that expires has its expiry already
  obtain ⟨hn, hwi⟩ : waiting s = 0 ∧ Windows limit (windowSeconds * second) now 0 (admissions limit s.trace) := by
    rcases h.counter with ⟨-, htr, hz⟩ | ⟨c, expiry, opened, current, hc⟩
    · rw [htr]
      exact ⟨hz, Windows.nil _ _ _⟩
    · have ho := hc.one
      have had := hc.admitted
      refine ⟨?_, hc.windows.reopen (by omega) hsp⟩
      by_contra hne
      have he := hc.entry
      rw [hc.lasting (by omega)] at he
      rw [Store.live_of_lasting he] at hd
      cases hd
  have hnx : isExpiring (afterIncr key limit windowSeconds fails 1) = !fails := by cases fails <;> rfl
  have hsa : admissions limit (s.trace ++ [⟨i, now, .incr key, .int 1⟩]) = admissions limit s.trace := by
    rw [admissions_concat]
    simp [admits]
  have ha : (∃ n, afterIncr key limit windowSeconds fails 1 = .ret (.ok (false, n))) ↔
      admits limit ⟨i, now, .incr key, .int 1⟩ = true := by
    cases fails <;> simp [afterIncr, expiring, admits]
  refine h.after hp (stage_afterIncr fails 1) rfl ha fun hw => ⟨1, none, now, 0, ?_⟩
  rw [hn, hnx, Nat.zero_add] at hw
  replace hw : waiting _ = (!fails).toNat := hw
  have hle : (!fails).toNat ≤ 1 := Bool.toNat_le _
  exact
    { entry := Store.set_self ..
      pos := le_rfl
      windows := by rw [hsa]; exact hwi
      admitted := by rw [hw]; omega
      one := by rw [hw]; exact hle
      lasting := fun _ => rfl
      expires := by
        intro hm _
        rw [hw]
        cases fails
        · rfl
        · rw [hf rfl] at hm
          cases hm
      started := ⟨_, List.mem_append_right _ (List.mem_singleton_self _), le_rfl⟩
      ends := fun t ht => by cases ht }

theorem Limited.count {fails : Bool} {n : ℤ}
    (h : Limited key limit windowSeconds mayFail s) (hp : s.procs[i]? = some (.call (.incr key) k))
    (hl : s.store.live now key = some ⟨.int n, expiry⟩) (hcl : ∀ e ∈ s.trace, e.time ≤ now) :
    Limited key limit windowSeconds mayFail
      ⟨s.store.set key (some ⟨.int (n + 1), expiry⟩), s.procs.set i (afterIncr key limit windowSeconds fails (n + 1)),
        s.trace ++ [⟨i, now, .incr key, .int (n + 1)⟩]⟩ := by
  rcases h.counter with ⟨hn, -, -⟩ | ⟨c, expiry', opened, current, hc⟩
  · rw [Store.live_of_none hn] at hl
    cases hl
  obtain ⟨rfl, rfl⟩ : n = c ∧ expiry = expiry' := by simpa using Store.entry_of_live hc.entry hl
  have hpo := hc.pos
  have hen : afterIncr key limit windowSeconds fails (c + 1) = .ret (.ok (decide ((limit : ℤ) < c + 1), c + 1)) :=
    if_neg (by omega)
  obtain ⟨e, he, ho⟩ := hc.started
  have had := hc.admitted
  have hco : admits limit ⟨i, now, .incr key, .int (c + 1)⟩ = decide ((c : ℤ) + 1 ≤ limit) := by
    simp [admits, Nat.ne_of_gt hpo]
  rw [hen]
  refine h.after hp (.ended _) rfl (by simp [hco]) fun hw =>
    ⟨c + 1, expiry, opened, current + (decide ((c : ℤ) + 1 ≤ limit)).toNat, ?_⟩
  replace hw : waiting _ = waiting s := hw
  exact
    { entry := by rw [Nat.cast_succ]; exact Store.set_self ..
      pos := Nat.succ_pos c
      windows := by rw [← hco]; exact hc.windows.record (ho.trans (hcl e he))
      admitted := by rw [hw]; by_cases hle : (c : ℤ) + 1 ≤ limit <;> simp [hle] <;> omega
      one := by rw [hw]; exact hc.one
      lasting := by rw [hw]; exact hc.lasting
      expires := by rw [hw]; exact hc.expires
      started := ⟨e, List.mem_append_left _ he, ho⟩
      ends := by
        intro t ht
        obtain ⟨e', he', hed⟩ := hc.ends t ht
        exact ⟨e', List.mem_append_left _ he', hed⟩ }

theorem Limited.expire (h : Limited key limit windowSeconds mayFail s)
    (hp : s.procs[i]? = some (expiring key limit windowSeconds)) (hcl : ∀ e ∈ s.trace, e.time ≤ now) :
    Limited key limit windowSeconds mayFail
      ⟨(exec true now (.expire key windowSeconds) s.store).2,
        s.procs.set i (.ret (.ok (decide ((limit : ℤ) < 1), 1))),
        s.trace ++ [⟨i, now, .expire key windowSeconds, (exec true now (.expire key windowSeconds) s.store).1⟩]⟩ := by
  have hm : 1 ≤ waiting s := List.countP_pos_iff.mpr ⟨_, List.mem_of_getElem? hp, rfl⟩
  rcases h.counter with ⟨-, -, hz⟩ | ⟨c, expiry, opened, current, hc⟩
  · omega
  have hon := hc.one
  have hex : expiry = none := hc.lasting (by omega)
  subst hex
  rw [exec_expire_of_some true windowSeconds (Store.live_of_lasting hc.entry)]
  dsimp only
  obtain ⟨e, he, ho⟩ := hc.started
  have had := hc.admitted
  have hco : admits limit ⟨i, now, .expire key windowSeconds, .int 1⟩ = decide (1 ≤ limit) := rfl
  refine h.after hp (.ended _) rfl ?_ fun hw =>
    ⟨c, some (now + windowSeconds * second), opened, current + (decide (1 ≤ limit)).toNat, ?_⟩
  · simp [hco]
    omega
  replace hw : waiting _ + 1 = waiting s := hw
  exact
    { entry := Store.set_self ..
      pos := hc.pos
      windows := by rw [← hco]; exact hc.windows.record (ho.trans (hcl e he))
      admitted := by by_cases hle : 1 ≤ limit <;> simp only [hle, decide_true, decide_false,
        Bool.toNat_true, Bool.toNat_false] <;> omega
      one := by omega
      lasting := fun hwa => by omega
      expires := fun _ hno => by cases hno
      started := ⟨e, List.mem_append_left _ he, ho⟩
      ends := by
        intro t ht
        cases ht
        exact ⟨_, List.mem_append_right _ (List.mem_singleton_self _), rfl⟩ }

theorem Limited.step (h : Limited key limit windowSeconds mayFail s) {it : ℕ × ℕ}
    (hs : Spaced key limit windowSeconds s it) :
    Limited key limit windowSeconds mayFail (System.step (exec true) s it) := by
  rcases System.step_cases s it with heq | ⟨c, k, hp, heq⟩
  · rw [heq]
    exact h
  rw [heq]
  have hst := h.stages _ (List.mem_of_getElem? hp)
  cases hst with
  | expiring => exact h.expire hp hs.1
  | starting fails _ hf hk =>
    cases hl : s.store.live it.2 key with
    | none =>
      have ho : opens key s it = true := by simp [opens, hp, hl]
      rw [exec_incr_of_none true hl]
      dsimp only
      rw [hk]
      exact h.open hp hf hl (hs.2 ho)
    | some entry =>
      have hin : ∃ n t, entry = ⟨.int n, t⟩ := by
        rcases h.counter with ⟨hn, -, -⟩ | ⟨c, expiry, opened, current, hc⟩
        · rw [Store.live_of_none hn] at hl
          cases hl
        · exact ⟨c, expiry, Store.entry_of_live hc.entry hl⟩
      obtain ⟨n, t, rfl⟩ := hin
      rw [exec_incr_of_some true hl]
      dsimp only
      rw [hk]
      exact h.count hp hl hs.1

theorem Limited.start {procs : List (LimiterProc (Bool × ℤ))} {store : Store} (hs : store key = none)
    (hc : ∀ p ∈ procs, p = isRateLimited key limit windowSeconds ∨
      mayFail = true ∧ p = (isRateLimited key limit windowSeconds).failAfter "client failed" 1) :
    Limited key limit windowSeconds mayFail ⟨store, procs, []⟩ := by
  refine ⟨fun p hp => ?_, fun i => ?_, .inl ⟨hs, rfl, ?_⟩⟩
  · rcases hc p hp with rfl | ⟨rfl, rfl⟩
    · exact stage_isRateLimited ..
    · exact stage_failAfter ..
  · refine iff_of_false ?_ (by simp)
    rintro ⟨n, hn⟩
    rcases hc _ (List.mem_of_getElem? hn) with heq | ⟨-, heq⟩ <;> cases heq
  · unfold waiting
    rw [List.countP_eq_zero]
    intro p hp
    rcases hc p hp with rfl | ⟨-, rfl⟩ <;> simp [isExpiring, isRateLimited] <;> rfl

theorem Limited.expiring_of_lasting (h : Limited key limit windowSeconds false s) {e : Entry}
    (he : s.store key = some e)
    (hl : e.expiresAt = none) : ∃ i : ℕ, s.procs[i]? = some (expiring key limit windowSeconds) := by
  rcases h.counter with ⟨hn, -, -⟩ | ⟨c, expiry, opened, current, hc⟩
  · rw [hn] at he
    cases he
  have hen := hc.entry
  rw [he] at hen
  cases hen
  have ho := hc.expires rfl hl
  obtain ⟨p, hp, hex⟩ := List.countP_pos_iff.mp (ho ▸ Nat.one_pos : 0 < waiting s)
  have hs := h.stages p hp
  obtain ⟨i, hi⟩ := List.mem_iff_getElem?.mp hp
  cases hs with
  | expiring => exact ⟨i, hi⟩
  | starting | ended => cases hex

theorem Limited.live_eq_none (h : Limited key limit windowSeconds false s)
    (hq : ∀ i : ℕ, s.procs[i]? ≠ some (expiring key limit windowSeconds))
    (hn : ∀ e ∈ s.trace, e.time + windowSeconds * second ≤ now) : s.store.live now key = none := by
  rcases h.counter with ⟨hno, -, -⟩ | ⟨c, expiry, opened, current, hc⟩
  · exact Store.live_of_none hno
  cases expiry with
  | none =>
    obtain ⟨i, hi⟩ := h.expiring_of_lasting hc.entry rfl
    exact absurd hi (hq i)
  | some t =>
    obtain ⟨e, he, rfl⟩ := hc.ends t rfl
    exact Store.live_of_le hc.entry (hn e he)

theorem admitted_of_dead (hl : 1 ≤ limit) {now' : ℕ}
    (hp : s.procs[i]? = some (isRateLimited key limit windowSeconds)) (hd : s.store.live now key = none) :
    Admitted (System.run (exec true) s [(i, now), (i, now')]) i := by
  have hlt : i < s.procs.length := (List.getElem?_eq_some_iff.mp hp).1
  have hf : (System.step (exec true) s (i, now)).procs[i]? = some (expiring key limit windowSeconds) := by
    unfold System.step
    rw [hp]
    change (s.procs.set i (Proc.bind _ _))[i]? = _
    rw [List.getElem?_set_self hlt, exec_incr_of_none true hd]
    rfl
  refine ⟨1, ?_⟩
  change (System.step (exec true) (System.step (exec true) s (i, now)) (i, now')).procs[i]? = _
  generalize System.step (exec true) s (i, now) = s' at hf
  unfold System.step
  rw [hf]
  change (s'.procs.set i _)[i]? = _
  rw [List.getElem?_set_self (List.getElem?_eq_some_iff.mp hf).1]
  have hfa : decide ((limit : ℤ) < 1) = false := by
    rw [decide_eq_false_iff_not]
    omega
  simp only [hfa]

end Run

/-- In every run in which a new counter is only started when nothing was admitted for a window, at most `limit` calls
are admitted in the length of a window. If moreover no client fails between its commands, every counter has an expiry
or a client that is about to set it, and a window after the last command a call is admitted. -/
theorem rate_limit_kept {key : String} {limit windowSeconds : ℕ} {store : Store}
    {procs : List (LimiterProc (Bool × ℤ))} {schedule : List (ℕ × ℕ)} (hstore : store key = none)
    (hclients : Clients key limit windowSeconds procs)
    (hspaced : System.Permits (exec true) (Spaced key limit windowSeconds) ⟨store, procs, []⟩ schedule)
    {s : Limiter} (hs : s = System.run (exec true) ⟨store, procs, []⟩ schedule) :
    Answers limit s ∧
    (∀ start, (within start (windowSeconds * second) (admissions limit s.trace)).length ≤ limit) ∧
    ((∀ p ∈ procs, p = isRateLimited key limit windowSeconds) →
      (∀ e, s.store key = some e → e.expiresAt = none → ∃ i :
        ℕ, s.procs[i]? = some (expiring key limit windowSeconds)) ∧
      ((∀ i : ℕ, s.procs[i]? ≠ some (expiring key limit windowSeconds)) → 1 ≤ limit → ∀ i now now' : ℕ,
        s.procs[i]? = some (isRateLimited key limit windowSeconds) →
        (∀ e ∈ s.trace, e.time + windowSeconds * second ≤ now) →
        Admitted (System.run (exec true) s [(i, now), (i, now')]) i)) := by
  have hl : ∀ mayFail, (∀ p ∈ procs, p = isRateLimited key limit windowSeconds ∨
      mayFail = true ∧ p = (isRateLimited key limit windowSeconds).failAfter "client failed" 1) →
      Limited key limit windowSeconds mayFail s := by
    intro mayFail hpr
    rw [hs]
    exact System.run_permitted (fun s it h hit => h.step hit) (Limited.start hstore hpr) hspaced
  have ha := hl true fun p hp => (hclients p hp).imp_right fun h => ⟨rfl, h⟩
  refine ⟨ha.answers, ha.within_le, fun hw => ?_⟩
  have hsa := hl false fun p hp => .inl (hw p hp)
  refine ⟨fun e he hla => hsa.expiring_of_lasting he hla, fun hq ho i now now' hpc hn => ?_⟩
  exact admitted_of_dead ho hpc (hsa.live_eq_none hq hn)

def twicePerMinute : LimiterProc (Bool × ℤ) := isRateLimited "k" 2 60

def afterCalls (procs : List (LimiterProc (Bool × ℤ))) (schedule : List (ℕ × ℕ)) : Limiter :=
  System.run (exec true) ⟨Store.empty, procs, []⟩ (schedule.map fun it => (it.1, it.2 * second))

/-- Three calls are admitted within three seconds, around the end of the first window. After a client has failed
between its commands, a call is refused a year later. -/
theorem limiter_not_sliding :
    admissions 2 (afterCalls (List.replicate 4 twicePerMinute) [(0, 0), (0, 0), (1, 59), (2, 60),
      (2, 60), (3, 61)]).trace =
        [0, 59 * second, 60 * second, 61 * second] ∧
      (within (59 * second) (60 * second) [0, 59 * second, 60 * second, 61 * second]).length = 3 ∧
      (afterCalls (twicePerMinute.failAfter "client failed" 1 :: List.replicate 3 twicePerMinute)
        [(0, 0), (1, 1), (2, 2), (3, 31536000)]).trace.map (·.reply) = [.int 1, .int 2, .int 3, .int 4] ∧
      (afterCalls (twicePerMinute.failAfter "client failed" 1 :: List.replicate 3 twicePerMinute)
        [(0, 0), (1, 1), (2, 2), (3, 31536000)]).store "k" = some ⟨.int 4, none⟩ := by
  decide +kernel

theorem limiter_kept_when_spaced :
    admissions 2 (afterCalls (List.replicate 3 twicePerMinute) [(0, 0), (0, 0), (1, 1), (2, 61), (2, 61)]).trace =
        [0, 1 * second, 61 * second] ∧
      (∀ start, (within start (60 * second) (admissions 2 (afterCalls (List.replicate 3 twicePerMinute)
        [(0, 0), (0, 0), (1, 1), (2, 61), (2, 61)]).trace)).length ≤ 2) := by
  have hc : Clients "k" 2 60 (List.replicate 3 twicePerMinute) := fun p hp => .inl (List.eq_of_mem_replicate hp)
  refine ⟨by decide +kernel, (rate_limit_kept rfl hc ?_ rfl).2.1⟩
  exact ⟨by decide +kernel, by decide +kernel, by decide +kernel, by decide +kernel, by decide +kernel, trivial⟩

end McpworksApi.Limits
