import McpworksApi.Oauth.Tokens
import McpworksApi.Session.Tasks

/-! Calls of `refresh_token_if_needed` that run at the same time, each in a transaction of its own. The row is read
before the lock is taken and written back by a commit after the lock is released, so that the lock does not keep two
calls apart: the second can hold it with a row that the first has replaced. -/

namespace McpworksApi.Oauth

open Models Py

structure RowUpdate where
  tokens : Option OauthTokens
  expiresAt : Option (Option Time)
  deriving DecidableEq, Repr

def rowUpdate (loaded changed : OauthColumns) : RowUpdate where
  tokens := changed.tokens
  expiresAt := if changed.tokensExpiresAt = loaded.tokensExpiresAt then none else some changed.tokensExpiresAt

def RowUpdate.apply (u : RowUpdate) (row : OauthColumns) : OauthColumns :=
  { row with tokens := u.tokens, tokensExpiresAt := u.expiresAt.getD row.tokensExpiresAt }

inductive RefreshTask
  /-- for the row -/
  | starting
  /-- for the reply to `SET NX` -/
  | loaded (server : OauthColumns)
  /-- for the holder of the lock, with the rounds that are left -/
  | waiting (rounds : ℕ)
  /-- for the row, once more -/
  | reloading
  /-- to send its request -/
  | locked (server : OauthColumns)
  /-- for the provider -/
  | requested (server : OauthColumns) (tokens : OauthTokens)
  /-- for the answer -/
  | answered (server : OauthColumns) (tokens : OauthTokens) (answer : RefreshAnswer)
  /-- for the `UPDATE` -/
  | flushing (update : RowUpdate) (header : Option String)
  /-- for the `DELETE` of the lock -/
  | releasing (update : Option RowUpdate) (header : Option String)
  /-- for the commit -/
  | committing (update : Option RowUpdate) (header : Option String)
  | returned (header : Option String)
  deriving DecidableEq, Repr

/-- What all calls share: the committed row and whether a transaction has written it, Redis, and the provider with the
refresh tokens that it honours. -/
structure RefreshState where
  row : OauthColumns
  rowLocked : Bool := false
  redis : Redis.Store := Redis.Store.empty
  honoured : List String := []
  issued : ℕ := 0
  sent : List String := []
  renewed : List OauthTokens := []
  lost : List OauthTokens := []

abbrev RefreshPool := Pool RefreshState RefreshTask

inductive Delivery
  | delivered
  | unreached
  | answerLost
  deriving DecidableEq, Repr

structure RefreshTurn where
  now : Time
  delivery : Delivery := .delivered

def grant (provider : ℕ → OauthTokens) (token : String) (s : RefreshState) : RefreshAnswer × RefreshState :=
  if token ∈ s.honoured then
    (.tokens (provider s.issued),
      { s with
        honoured := (provider s.issued).refreshToken.toList ++ s.honoured.filter (· ≠ token)
        issued := s.issued + 1 })
  else (.invalidGrant, s)

def provide (provider : ℕ → OauthTokens) (delivery : Delivery) (token : String) (s : RefreshState) :
    RefreshAnswer × RefreshState :=
  match delivery with
  | .delivered => grant provider token s
  | .unreached => (.failed, s)
  | .answerLost => (.failed, (grant provider token s).2)

def commit (u : RowUpdate) (s : RefreshState) : RefreshState :=
  { s with
    row := u.apply s.row
    rowLocked := false
    renewed := u.tokens.toList ++ s.renewed
    lost := if u.tokens = none then (s.row.tokens.filter (· ∈ s.renewed)).toList ++ s.lost else s.lost }

def refreshTurn (provider : ℕ → OauthTokens) (lockKey : String) (x : RefreshTurn) (t : RefreshTask)
    (s : RefreshState) :
    List RefreshTask × RefreshState :=
  match t with
  | .starting => ([.loaded s.row], s)
  | .loaded server =>
    match server.tokens with
    | none => ([.returned none], s)
    | some tokens =>
      if isFresh x.now server then ([.returned (some (bearer tokens))], s)
      else
        match Redis.exec true x.now (.set lockKey (.str "1") true (some 30)) s.redis with
        | (.ok, redis) => ([.locked server], { s with redis })
        | (_, redis) => ([.waiting 5], { s with redis })
  | .waiting rounds =>
    match Redis.exec true x.now (.get lockKey) s.redis, rounds with
    | (.nil, _), _ | _, 0 => ([.reloading], s)
    | _, rounds + 1 => ([.waiting rounds], s)
  | .reloading => ([.returned (s.row.tokens.map bearer)], s)
  | .locked server =>
    match server.tokens, server.config with
    | some tokens, some _ =>
      if hasRefreshToken tokens then
        ([.requested server tokens], { s with sent := tokens.refreshToken.toList ++ s.sent })
      else ([.releasing none none], s)
    | _, _ => ([.releasing none none], s)
  | .requested server tokens =>
    let (answer, s') := provide provider x.delivery (tokens.refreshToken.getD "") s
    ([.answered server tokens answer], s')
  | .answered server tokens answer =>
    match answer with
    | .failed => ([.releasing none none], s)
    | answer => ([.flushing (rowUpdate server (applyAnswer x.now tokens answer server)) (answerHeader answer)], s)
  | .flushing update header =>
    -- another transaction that has written the row and not committed is waited for
    if s.rowLocked then ([.flushing update header], s)
    else ([.releasing (some update) header], { s with rowLocked := true })
  | .releasing update header =>
    ([.committing update header], { s with redis := (Redis.exec true x.now (.delete lockKey) s.redis).2 })
  | .committing update header => ([.returned header], update.elim s (commit · s))
  | .returned header => ([.returned header], s)

def RefreshSafe (s : RefreshState) : Prop := s.sent.Nodup ∧ s.lost = []

def RefreshTask.holds : RefreshTask → ℕ
  | locked _ | requested _ _ | answered _ _ _ | flushing _ _ | releasing _ _ | committing _ _ => 1
  | starting | loaded _ | waiting _ | reloading | returned _ => 0

def acquires (lockKey : String) (x : RefreshTurn) (t : RefreshTask) (s : RefreshState) : Bool :=
  match t with
  | .loaded server => server.tokens.isSome ∧ isFresh x.now server = false ∧ (s.redis.live x.now lockKey).isNone
  | _ => false

def isRequested : RefreshTask → Bool
  | .requested _ _ => true
  | _ => false

/-- The turns that keep calls apart: whoever takes the lock has read the row as it is committed, and no other call is
between taking the lock and its commit; and the provider's answers arrive. -/
@[mk_iff] structure Orderly (lockKey : String) (p : RefreshPool) (x : RefreshTurn) (t : RefreshTask) : Prop where
  exclusive : acquires lockKey x t p.state = true → Pool.total RefreshTask.holds p.tasks = 0 ∧ t = .loaded p.state.row
  delivered : isRequested t = true → x.delivery = .delivered

instance (lockKey : String) (p : RefreshPool) (x : RefreshTurn) (t : RefreshTask) :
    Decidable (Orderly lockKey p x t) :=
  decidable_of_iff' _ (orderly_iff ..)

structure Rotates (provider : ℕ → OauthTokens) : Prop where
  gives : ∀ n, ∃ r, (provider n).refreshToken = some r
  distinct : ∀ m n, (provider m).refreshToken = (provider n).refreshToken → m = n

section Invariant

variable {provider : ℕ → OauthTokens} {lk : String} {s s' : RefreshState} {x : RefreshTurn}
  {pre after : List RefreshTask} {t t' : RefreshTask}

def Unsent (s : RefreshState) (tokens : OauthTokens) : Prop := ∀ r, tokens.refreshToken = some r → r ∉ s.sent

def Honoured (s : RefreshState) (tokens : OauthTokens) : Prop := ∀ r, tokens.refreshToken = some r → r ∈ s.honoured

def Unused (provider : ℕ → OauthTokens) (s : RefreshState) (tokens : OauthTokens) : Prop :=
  (∃ n < s.issued, tokens = provider n) ∧ Unsent s tokens ∧ Honoured s tokens

def RowUnsent (s : RefreshState) : Prop :=
  ∀ tokens, s.row.tokens = some tokens → Unsent s tokens ∧ (tokens ∈ s.renewed → Honoured s tokens)

def UpdateOk (provider : ℕ → OauthTokens) (s : RefreshState) (u : RowUpdate) : Prop :=
  match u.tokens with
  | some new => Unused provider s new
  | none => ∀ tokens, s.row.tokens = some tokens → tokens ∉ s.renewed

def AnswerOk (provider : ℕ → OauthTokens) (s : RefreshState) (tokens : OauthTokens) : RefreshAnswer → Prop
  | .tokens new => Unused provider s new
  | .invalidGrant => tokens ∉ s.renewed
  | .failed => False

def TaskOk (provider : ℕ → OauthTokens) (s : RefreshState) : RefreshTask → Prop
  | .locked server => server = s.row ∧ RowUnsent s
  | .requested server tokens => server = s.row ∧ s.row.tokens = some tokens ∧
      (tokens ∈ s.renewed → Honoured s tokens) ∧
    hasRefreshToken tokens = true
  | .answered server tokens answer => server = s.row ∧ s.row.tokens = some tokens ∧ AnswerOk provider s tokens answer
  | .flushing u _ | .releasing (some u) _ | .committing (some u) _ => UpdateOk provider s u
  | .releasing none _ | .committing none _ => RowUnsent s
  | .starting | .loaded _ | .waiting _ | .reloading | .returned _ => True

theorem taskOk_of_not_holds (h : t.holds = 0) : TaskOk provider s t := by
  cases t <;> trivial

theorem TaskOk.redis (h : TaskOk provider s t) (redis : Redis.Store) : TaskOk provider { s with redis } t := by
  cases t with
  | releasing update hdr => cases update <;> exact h
  | committing update hdr => cases update <;> exact h
  | answered sr tokens answer => cases answer <;> exact h
  | _ => exact h

theorem holds_le (t : RefreshTask) : t.holds ≤ 1 := by
  cases t <;> first | exact Nat.zero_le 1 | exact Nat.le_refl 1

def FutureNew (provider : ℕ → OauthTokens) (s : RefreshState) : Prop :=
  ∀ n, s.issued ≤ n → Unsent s (provider n) ∧ ∀ tokens, s.row.tokens = some tokens →
    tokens.refreshToken ≠ (provider n).refreshToken

structure Sound (provider : ℕ → OauthTokens) (p : RefreshPool) : Prop where
  safe : RefreshSafe p.state
  single : Pool.total RefreshTask.holds p.tasks ≤ 1
  tasks : ∀ t ∈ p.tasks, TaskOk provider p.state t
  idle : Pool.total RefreshTask.holds p.tasks = 0 → RowUnsent p.state
  future : FutureNew provider p.state

theorem Sound.unlocked (h : Sound provider ⟨s, pre ++ t :: after⟩) (redis : Redis.Store) (ht : t.holds = 0)
    (ht' : t'.holds = 0) : Sound provider ⟨{ s with redis }, pre ++ [t'] ++ after⟩ := by
  have hto : Pool.total RefreshTask.holds (pre ++ [t'] ++ after) =
      Pool.total RefreshTask.holds (pre ++ t :: after) := by
    simp [ht, ht']
  refine ⟨h.safe, hto ▸ h.single, ?_, fun hid => h.idle (hto ▸ hid), h.future⟩
  exact Pool.forall_mem_step (fun u hu => (h.tasks u hu).redis redis)
    (List.forall_mem_singleton.mpr (taskOk_of_not_holds ht'))

theorem Sound.locked (h : Sound provider ⟨s, pre ++ t :: after⟩) (ht : t.holds = 1) (hs : RefreshSafe s')
    (hf : FutureNew provider s') (hta : TaskOk provider s' t') (hid : t'.holds = 0 → RowUnsent s') :
    Sound provider ⟨s', pre ++ [t'] ++ after⟩ := by
  have hsi := h.single
  simp only [Pool.total_append, Pool.total_cons, ht] at hsi
  have hle := holds_le t'
  have ho (u : RefreshTask) (hu : u ∈ pre ∨ u ∈ after) : u.holds = 0 := by
    have hm : u ∈ pre ++ after := List.mem_append.mpr hu
    have hon := List.single_le_sum (fun n _ => Nat.zero_le n) _ (List.mem_map_of_mem hm : u.holds ∈ _)
    have hsu : Pool.total RefreshTask.holds (pre ++ after) = 0 := by
      rw [Pool.total_append]
      omega
    unfold Pool.total at hsu
    omega
  refine ⟨hs, ?_, ?_, ?_, hf⟩
  · simp
    omega
  · intro u hu
    rw [List.append_assoc, List.mem_append, List.mem_append, List.mem_singleton] at hu
    rcases hu with hu | rfl | hu
    · exact taskOk_of_not_holds (ho u (.inl hu))
    · exact hta
    · exact taskOk_of_not_holds (ho u (.inr hu))
  · intro hz
    exact hid (by simp_all)

theorem Sound.holding (h : Sound provider ⟨s, pre ++ t :: after⟩) (ht : t.holds = 1) (ht' : t'.holds = 1)
    (hta : TaskOk provider s t') : Sound provider ⟨s, pre ++ [t'] ++ after⟩ :=
  h.locked ht h.safe h.future hta (by omega)

theorem Sound.acquire {redis : Redis.Store} (h : Sound provider ⟨s, pre ++ .loaded s.row :: after⟩)
    (hid : Pool.total RefreshTask.holds (pre ++ .loaded s.row :: after) = 0) :
    Sound provider ⟨{ s with redis }, pre ++ [.locked s.row] ++ after⟩ := by
  have hr := h.idle hid
  have hto : Pool.total RefreshTask.holds (pre ++ [.locked s.row] ++ after) = 1 := by
    simp [RefreshTask.holds] at hid ⊢
    omega
  refine ⟨h.safe, hto.le, ?_, fun hz => absurd (hto.symm.trans hz) Nat.one_ne_zero, h.future⟩
  exact Pool.forall_mem_step (fun u hu => (h.tasks u hu).redis redis) (List.forall_mem_singleton.mpr ⟨rfl, hr⟩)

theorem Sound.send {ts : OauthTokens} (h : Sound provider ⟨s, pre ++ .locked s.row :: after⟩)
    (ht : s.row.tokens = some ts) (hro : RowUnsent s) (hre : hasRefreshToken ts = true) :
    Sound provider ⟨{ s with sent := ts.refreshToken.toList ++ s.sent }, pre ++ [.requested s.row ts] ++ after⟩ := by
  obtain ⟨hu, hh⟩ := hro ts ht
  refine h.locked rfl ⟨?_, h.safe.2⟩ ?_ ⟨rfl, ht, hh, hre⟩ (fun hz => by cases hz)
  · cases hr : ts.refreshToken with
    | none => exact h.safe.1
    | some r => exact List.nodup_cons.mpr ⟨hu r hr, h.safe.1⟩
  · intro n hn
    obtain ⟨hne, ho⟩ := h.future n hn
    refine ⟨fun r hr hm => ?_, ho⟩
    rcases List.mem_append.mp hm with hm | hm
    · exact ho ts ht ((Option.mem_toList.mp hm).trans hr.symm)
    · exact hne r hr hm

theorem Sound.answer {ts : OauthTokens} {tk : String}
    (h : Sound provider ⟨s, pre ++ .requested s.row ts :: after⟩) (ht : s.row.tokens = some ts)
    (hh : ts ∈ s.renewed → Honoured s ts) (hto : ts.refreshToken = some tk) :
    Sound provider ⟨(grant provider tk s).2, pre ++ [.answered s.row ts (grant provider tk s).1] ++ after⟩ := by
  unfold grant
  split_ifs with hm
  · obtain ⟨hu, ho⟩ := h.future s.issued le_rfl
    refine h.locked rfl h.safe ?_ ⟨rfl, ht, ⟨s.issued, Nat.lt_succ_self _, rfl⟩, hu, ?_⟩ (fun hz => by cases hz)
    · intro n hn
      exact h.future n (Nat.le_of_succ_le hn)
    · intro r hr
      exact List.mem_append_left _ (Option.mem_toList.mpr hr)
  · refine h.locked rfl h.safe h.future ⟨rfl, ht, ?_⟩ (fun hz => by cases hz)
    intro hre
    exact hm (hh hre tk hto)

theorem renewedTokens_of_some {old new : OauthTokens} {r : String} (h : new.refreshToken = some r) :
    renewedTokens old new = new := by
  unfold renewedTokens
  rw [h, Option.some_or, ← h]

theorem updateOk_of_answer (hro : Rotates provider) {tokens : OauthTokens} {ans : RefreshAnswer}
    (ht : s.row.tokens = some tokens) (ha : AnswerOk provider s tokens ans) (now : Time) :
    UpdateOk provider s (rowUpdate s.row (applyAnswer now tokens ans s.row)) := by
  unfold UpdateOk rowUpdate
  cases ans with
  | tokens new =>
    obtain ⟨⟨n, hn, rfl⟩, hu, hh⟩ := ha
    obtain ⟨r, hr⟩ := hro.gives n
    simp only [applyAnswer, encryptAndStoreTokens_tokens, renewedTokens_of_some hr]
    exact ⟨⟨n, hn, rfl⟩, hu, hh⟩
  | invalidGrant =>
    intro tokens' ht'
    obtain rfl : tokens = tokens' := Option.some.inj (ht.symm.trans ht')
    exact ha
  | failed => exact ha.elim

theorem commit_sound (hro : Rotates provider) {u : RowUpdate} (hs : RefreshSafe s)
    (hf : FutureNew provider s) (hup : UpdateOk provider s u) :
    RefreshSafe (commit u s) ∧ FutureNew provider (commit u s) ∧ RowUnsent (commit u s) := by
  unfold UpdateOk at hup
  have hr : (commit u s).row.tokens = u.tokens := rfl
  cases hu : u.tokens with
  | none =>
    rw [hu] at hup hr
    have hno : s.row.tokens.filter (· ∈ s.renewed) = none := by
      simpa [Option.filter_eq_none_iff] using hup
    refine ⟨⟨hs.1, ?_⟩, fun n hn => ⟨(hf n hn).1, ?_⟩, ?_⟩
    · simp [commit, hu, hno, hs.2]
    · simp [hr]
    · simp [RowUnsent, hr]
  | some new =>
    rw [hu] at hup hr
    obtain ⟨⟨m, hm, rfl⟩, hun, hh⟩ := hup
    refine ⟨⟨hs.1, ?_⟩, fun n hn => ⟨(hf n hn).1, ?_⟩, ?_⟩
    · simp [commit, hu, hs.2]
    · rintro tokens ht heq
      obtain rfl := Option.some.inj (hr.symm.trans ht)
      have hle : s.issued ≤ n := hn
      exact absurd (hro.distinct m n heq) (by omega)
    · intro tokens ht
      obtain rfl := Option.some.inj (hr.symm.trans ht)
      exact ⟨hun, fun _ => hh⟩

theorem Sound.turn (hrt : Rotates provider) (h : Sound provider ⟨s, pre ++ t :: after⟩)
    (ho : Orderly lk ⟨s, pre ++ t :: after⟩ x t) :
    Sound provider ⟨(refreshTurn provider lk x t s).2,
      pre ++ (refreshTurn provider lk x t s).1 ++ after⟩ := by
  have hta : TaskOk provider s t := h.tasks t (List.mem_append_right _ List.mem_cons_self)
  have hs {t' : RefreshTask} (ht : t.holds = 0) (ht' : t'.holds = 0) :
      Sound provider ⟨s, pre ++ [t'] ++ after⟩ := h.unlocked s.redis ht ht'
  cases t with
  | starting => exact hs rfl rfl
  | loaded sr =>
    unfold refreshTurn
    dsimp only
    cases hto : sr.tokens with
    | none => exact hs rfl rfl
    | some tokens =>
      dsimp only
      split_ifs with hf
      · exact hs rfl rfl
      · cases hl : s.redis.live x.now lk with
        | none =>
          have hac : acquires lk x (.loaded sr) s = true := by
            simp [acquires, hto, hf, hl]
          obtain ⟨hid, hc⟩ := ho.exclusive hac
          obtain rfl : sr = s.row := RefreshTask.loaded.inj hc
          rw [Redis.exec_setnx_of_none true _ _ hl]
          exact h.acquire hid
        | some e =>
          rw [Redis.exec_setnx_of_some true _ _ hl]
          exact hs rfl rfl
  | waiting rounds =>
    unfold refreshTurn
    dsimp only
    split <;> exact hs rfl rfl
  | reloading => exact hs rfl rfl
  | locked sr =>
    obtain ⟨rfl, hro⟩ := hta
    have hrl : Sound provider ⟨s, pre ++ [.releasing none none] ++ after⟩ := h.holding rfl rfl hro
    unfold refreshTurn
    dsimp only
    split
    · rename_i tokens cfg hto hco
      split_ifs with hre
      · exact h.send hto hro hre
      · exact hrl
    · exact hrl
  | requested sr tokens =>
    obtain ⟨rfl, hto, hh, hre⟩ := hta
    obtain ⟨token, htk⟩ : ∃ token, tokens.refreshToken = some token := by
      cases hr : tokens.refreshToken with
      | none => simp [hasRefreshToken, given, hr] at hre
      | some token => exact ⟨token, rfl⟩
    have htu : refreshTurn provider lk x (.requested s.row tokens) s =
        ([.answered s.row tokens (grant provider token s).1], (grant provider token s).2) := by
      simp only [refreshTurn, ho.delivered rfl, provide, htk, Option.getD_some]
    rw [htu]
    exact h.answer hto hh htk
  | answered sr tokens answer =>
    obtain ⟨rfl, hto, ha⟩ := hta
    have hu := updateOk_of_answer hrt hto ha x.now
    cases answer with
    | failed => exact ha.elim
    | tokens new | invalidGrant => exact h.holding rfl rfl hu
  | flushing update hdr =>
    unfold refreshTurn
    dsimp only
    split_ifs
    · exact h.holding rfl rfl hta
    · exact h.locked rfl h.safe h.future hta (fun hz => by cases hz)
  | releasing update hdr =>
    cases update with
    | none | some u => exact h.locked rfl h.safe h.future hta (fun hz => by cases hz)
  | committing update hdr =>
    cases update with
    | none => exact h.locked rfl h.safe h.future trivial fun _ => hta
    | some u =>
      obtain ⟨hsa, hfu, hro⟩ := commit_sound hrt h.safe h.future hta
      exact h.locked rfl hsa hfu trivial fun _ => hro
  | returned hdr => exact hs rfl rfl

theorem Sound.start (row : OauthColumns) (redis : Redis.Store) (honoured : List String)
    (hn : ∀ n tokens, row.tokens = some tokens → tokens.refreshToken ≠ (provider n).refreshToken) (calls : ℕ) :
    Sound provider ⟨{ row, redis, honoured }, List.replicate calls .starting⟩ where
  safe := ⟨List.nodup_nil, rfl⟩
  single := by
    rw [Pool.total_eq_zero fun t ht => by rw [List.eq_of_mem_replicate ht]; rfl]
    exact Nat.zero_le 1
  tasks := fun t ht => by
    rw [List.eq_of_mem_replicate ht]
    trivial
  idle := fun _ tokens _ => ⟨fun r _ => List.not_mem_nil, fun hm => absurd hm List.not_mem_nil⟩
  future := fun n _ => ⟨fun r _ => List.not_mem_nil, fun tokens hto => hn n tokens hto⟩

end Invariant

/-- In an orderly schedule no refresh token is sent twice, and no tokens of a refresh are cleared. -/
theorem refresh_safe {provider : ℕ → OauthTokens} (hrotates : Rotates provider) (lockKey : String)
    (row : OauthColumns)
    (hnew : ∀ n tokens, row.tokens = some tokens → tokens.refreshToken ≠ (provider n).refreshToken)
    (redis : Redis.Store) (honoured : List String) (calls : ℕ) (schedule : List (ℕ × RefreshTurn))
    (h : Pool.Permits (refreshTurn provider lockKey) (Orderly lockKey)
      ⟨{ row, redis, honoured }, List.replicate calls .starting⟩ schedule) :
    RefreshSafe (Pool.run (refreshTurn provider lockKey)
      ⟨{ row, redis, honoured }, List.replicate calls .starting⟩ schedule).state :=
  (Pool.run_invariant (I := Sound provider) (fun _ _ _ _ _ hs ho => hs.turn hrotates ho)
    (Sound.start row redis honoured hnew calls) h).safe

def numbered (n : ℕ) : OauthTokens :=
  { accessToken := "access" ++ toString n, refreshToken := some ("refresh" ++ toString n), expiresIn := some 3600 }

def staleRow : OauthColumns :=
  { authType := .oauth2, config := some {}, tokens := some { accessToken := "old", refreshToken := some "old" }
    tokensExpiresAt := some 0 }

theorem numbered_rotates : Rotates numbered where
  gives n := ⟨_, rfl⟩
  distinct m n h := by
    have hl := congrArg String.toList (Option.some.inj h)
    simp only [String.toList_append] at hl
    exact toString_injective (String.toList_injective (List.append_cancel_left hl))

/-- Both calls read the row; the first refreshes the tokens and commits; then the second takes the lock, which is free
again, and sends the refresh token that it has read. -/
def racingSchedule : List (ℕ × RefreshTurn) :=
  [(0, ⟨1, .delivered⟩), (1, ⟨1, .delivered⟩)] ++ List.replicate 7 (0, ⟨2, .delivered⟩) ++
    List.replicate 7 (1, ⟨3, .delivered⟩)

/-- The old token is sent twice, and the tokens of the first call are cleared by the second. -/
theorem refresh_races : let s := (Pool.run (refreshTurn numbered "lock")
      ⟨{ row := staleRow, honoured := ["old"] }, List.replicate 2 .starting⟩ racingSchedule).state
    s.sent = ["old", "old"] ∧ s.lost = [numbered 0] ∧ s.row.tokens = none := by
  decide +kernel

theorem refresh_in_turn : RefreshSafe (Pool.run (refreshTurn numbered "lock")
      ⟨{ row := staleRow, honoured := ["old"] }, List.replicate 2 .starting⟩
      (List.replicate 8 (0, ⟨1, .delivered⟩) ++ List.replicate 8 (1, ⟨2, .delivered⟩))).state := by
  refine refresh_safe numbered_rotates "lock" staleRow ?_ _ _ 2 _ ?_
  · intro n tokens ht heq
    cases ht
    have hl := congrArg String.toList (Option.some.inj heq)
    simp at hl
  · refine ⟨?_, ?_, ?_, ?_, ?_, ?_, ?_, ?_, ?_, ?_, ?_, ?_, ?_, ?_, ?_, ?_, trivial⟩ <;> decide +kernel

end McpworksApi.Oauth
