import McpworksApi.Services.Shares

/-! Runs of the sharing service. Access is a matter of the history of calls: of the last invitation, what its receiver
did about it, and what the owner did since. -/

namespace McpworksApi.Services.Shares

open Models Py Session Trace

inductive ShareCall
  | createInvite (namespaceId : ℕ) (inviteeEmail : String) (permissions : List String) (grantedByUserId : ℕ)
  | accept (now : Time) (shareId userId : ℕ)
  | decline (shareId userId : ℕ)
  | revoke (now : Time) (shareId ownerUserId : ℕ)

def perform : ShareCall → DbSession NamespaceShare
  | .createInvite ns email permissions g => createInvite ns email permissions g
  | .accept now i u => accept now i u
  | .decline i u => decline i u
  | .revoke now i u => revoke now i u

abbrev ShareEvent := ShareCall × Except ApiError NamespaceShare

def Owns (db : Db) (userId namespaceId : ℕ) : Prop :=
  ∃ n, db.namespaces.get? namespaceId = some n ∧ ownedBy db n userId = true

def changed (db : Db) (s : NamespaceShare) (f : NamespaceShare → NamespaceShare) (hf : ∀ s, (f s).id = s.id) : Db :=
  { db with shares := db.shares.update s.id f hf }

inductive Effect (db : Db) : ShareCall → NamespaceShare → Db → Prop
  | invited {ns u g : ℕ} {email : String} {permissions : List String} (howner : Owns db g ns)
    (hrows : rowsOf db ns u = []) :
    Effect db (.createInvite ns email permissions g) (newShare ns u permissions g db.shares.freshId)
      { db with shares := db.shares.insert (newShare ns u permissions g) }
  | reinvited {ns u g : ℕ} {email : String} {permissions : List String} {s : NamespaceShare} (howner : Owns db g ns)
    (hrows : rowsOf db ns u = [s]) :
    Effect db (.createInvite ns email permissions g) (reinvited permissions g s)
      (changed db s (reinvited permissions g) (reinvited_id _ _))
  | accepted {now : Time} {i : ℕ} {s : NamespaceShare} (hs : db.shares.get? i = some s)
      (hpending : s.status = .pending) :
    Effect db (.accept now i s.userId) (accepted now s) (changed db s (accepted now) (accepted_id now))
  | declined {i : ℕ} {s : NamespaceShare} (hs : db.shares.get? i = some s) (hpending : s.status = .pending) :
    Effect db (.decline i s.userId) (declined s) (changed db s declined declined_id)
  | revoked {now : Time} {i g : ℕ} {s : NamespaceShare} (hs : db.shares.get? i = some s)
      (howner : Owns db g s.namespaceId) :
    Effect db (.revoke now i g) (revoked now s) (changed db s (revoked now) (revoked_id now))

variable {s : NamespaceShare} {db : Db} {ns u : ℕ}

theorem inviteTarget_eq_ok {g : ℕ} {em : String} {perms : List String} {inv : User}
    {old : Option NamespaceShare} (h : inviteTarget db ns em perms g = .ok (inv, old)) :
    Owns db g ns ∧ rowsOf db ns inv.id = old.toList := by
  unfold inviteTarget at h
  dsimp only at h
  split at h
  · cases h
  split at h
  · cases h
  split at h
  · cases h
  · cases h
  rename_i n owner hns how
  split at h
  · rename_i ho
    refine ⟨⟨n, hns, ho⟩, ?_⟩
    obtain ⟨found, -, h⟩ := Models.bind_eq_ok.mp h
    rcases found with _ | user
    · cases h
    dsimp only at h
    split at h
    · cases h
    obtain ⟨row, hr, h⟩ := Models.bind_eq_ok.mp h
    rcases row with _ | s
    · cases h
      exact scalarOneOrNone_eq_none.mp hr
    dsimp only at h
    split at h
    · cases h
    · cases h
      exact scalarOneOrNone_eq_some.mp hr
  · cases h

theorem createInvite_cases (db : Db) (ns : ℕ) (em : String) (perms : List String) (g : ℕ) :
    (∃ e, createInvite ns em perms g db = (.error e, db)) ∨
      ∃ she db', createInvite ns em perms g db = (.ok she, db') ∧
        Effect db (.createInvite ns em perms g) she db' := by
  rcases ht : inviteTarget db ns em perms g with e | ⟨inv, old⟩ <;> simp only [createInvite, fetch_bind_apply, ht]
  · exact .inl ⟨e, rfl⟩
  obtain ⟨ho, hr⟩ := inviteTarget_eq_ok ht
  refine .inr ?_
  rcases old with _ | s
  · exact ⟨_, _, rfl, .invited ho hr⟩
  · exact ⟨_, _, rfl, .reinvited ho hr⟩

theorem respond_cases (db : Db) (verb : String) (f : NamespaceShare → NamespaceShare) (hf : ∀ s, (f s).id = s.id)
    (i u : ℕ) :
    (∃ e, respond verb f hf i u db = (.error e, db)) ∨
      ∃ s, db.shares.get? i = some s ∧ s.userId = u ∧ s.status = .pending ∧
        respond verb f hf i u db = (.ok (f s), changed db s f hf) := by
  rcases hs : db.shares.get? i with _ | s
  · refine .inl ⟨notFound "Share not found", fetch_bind_of_error ?_⟩
    rw [getShare, hs]
  rw [respond, fetch_bind_of_ok (a := s) (by rw [getShare, hs])]
  split_ifs with hu hst
  · exact .inl ⟨_, rfl⟩
  · exact .inl ⟨_, rfl⟩
  · exact .inr ⟨s, rfl, not_not.mp hu, not_not.mp hst, rfl⟩

theorem revoke_cases (db : Db) (now : Time) (i g : ℕ) : (∃ e, revoke now i g db = (.error e, db)) ∨
      ∃ she db', revoke now i g db = (.ok she, db') ∧ Effect db (.revoke now i g) she db' := by
  rcases hs : db.shares.get? i with _ | s
  · refine .inl ⟨notFound "Share not found", fetch_bind_of_error ?_⟩
    rw [getShare, hs]
  rw [revoke, fetch_bind_of_ok (a := s) (by rw [getShare, hs]), query_bind_apply]
  rcases hns : db.namespaces.get? s.namespaceId with _ | n
  · exact .inl ⟨_, rfl⟩
  dsimp only
  rw [query_bind_apply]
  split_ifs with ho
  · exact .inr ⟨_, _, rfl, .revoked hs ⟨n, hns, ho⟩⟩
  · exact .inl ⟨_, rfl⟩

theorem perform_cases (call : ShareCall) (db : Db) : (∃ e, perform call db = (.error e, db)) ∨
      ∃ she db', perform call db = (.ok she, db') ∧ Effect db call she db' := by
  cases call with
  | createInvite ns em perms g => exact createInvite_cases db ns em perms g
  | accept now i u =>
    rcases respond_cases db "accept" (accepted now) (accepted_id now) i u with hf | ⟨s, hs, rfl, hp, hr⟩
    · exact .inl hf
    · exact .inr ⟨_, _, hr, .accepted hs hp⟩
  | decline i u =>
    rcases respond_cases db "decline" declined declined_id i u with hf | ⟨s, hs, rfl, hp, hr⟩
    · exact .inl hf
    · exact .inr ⟨_, _, hr, .declined hs hp⟩
  | revoke now i g => exact revoke_cases db now i g

theorem mem_rowsOf : s ∈ rowsOf db ns u ↔ s ∈ db.shares.rows ∧ s.namespaceId = ns ∧ s.userId = u := by
  simp [rowsOf, Table.mem_select]

theorem rowsOf_insert (db : Db) (ns u ns' u' g : ℕ) (perms : List String) :
    rowsOf { db with shares := db.shares.insert (newShare ns' u' perms g) } ns u =
      rowsOf db ns u ++ if ns' = ns ∧ u' = u then [newShare ns' u' perms g db.shares.freshId] else [] := by
  simp only [rowsOf, Table.select, Table.insert, List.filter_append, List.filter_singleton, newShare]
  by_cases h : ns' = ns ∧ u' = u <;> simp [h]

theorem rowsOf_changed {f : NamespaceShare → NamespaceShare} {hf : ∀ s, (f s).id = s.id}
    (hm : s ∈ db.shares.rows) (hp : ∀ s, (f s).namespaceId = s.namespaceId ∧ (f s).userId = s.userId) (ns u : ℕ) :
    rowsOf (changed db s f hf) ns u = (rowsOf db ns u).map fun a => if a = s then f a else a := by
  have hu := Table.select_update_map (t := db.shares) (i := s.id)
    (p := fun a : NamespaceShare => a.namespaceId = ns ∧ a.userId = u) hf
    (fun a => by simp only [(hp a).1, (hp a).2])
  refine hu.trans (List.map_congr_left fun a ha => ?_)
  have hr : a ∈ db.shares.rows := (Table.mem_select.mp ha).1
  by_cases hid : Row.id a = s.id
  · rw [if_pos hid, if_pos (Table.eq_of_id_eq hr hm hid)]
  · rw [if_neg hid, if_neg (fun h => hid (congrArg NamespaceShare.id h))]

theorem rowsOf_changed_of_eq (hr : rowsOf db ns u = [s])
    (f : NamespaceShare → NamespaceShare) {hf : ∀ s, (f s).id = s.id}
    (hp : ∀ s, (f s).namespaceId = s.namespaceId ∧ (f s).userId = s.userId) (ns' u' : ℕ) :
    rowsOf (changed db s f hf) ns' u' = if ns' = ns ∧ u' = u then [f s] else rowsOf db ns' u' := by
  have hs : s ∈ rowsOf db ns u := by rw [hr]; exact List.mem_singleton_self s
  obtain ⟨hm, hns, hu⟩ := mem_rowsOf.mp hs
  rw [rowsOf_changed hm hp]
  split_ifs with hsa
  · rw [hsa.1, hsa.2, hr, List.map_singleton, if_pos rfl]
  · refine (List.map_congr_left fun a ha => ?_).trans (List.map_id _)
    obtain ⟨-, han, hau⟩ := mem_rowsOf.mp ha
    rw [if_neg]
    · rfl
    · rintro rfl
      exact hsa ⟨han.symm.trans hns, hau.symm.trans hu⟩

def Invites (ns u g : ℕ) (permissions : List String) (e : ShareEvent) : Prop :=
  ∃ email share, e = (.createInvite ns email permissions g, .ok share) ∧ share.userId = u

def Accepts (ns u v : ℕ) (e : ShareEvent) : Prop :=
  ∃ now i share, e = (.accept now i v, .ok share) ∧ share.namespaceId = ns ∧ share.userId = u

def Revokes (ns u g : ℕ) (e : ShareEvent) : Prop :=
  ∃ now i share, e = (.revoke now i g, .ok share) ∧ share.namespaceId = ns ∧ share.userId = u

/-- The last invitation of `u` to `ns` was made by the owner with these permissions, and the history
after it is as `P` says. -/
def LastInvite (db : Db) (ns u : ℕ) (permissions : List String) (P : List ShareEvent → Prop) :
    List ShareEvent → Prop :=
  Since (fun e => ∃ g, Owns db g ns ∧ Invites ns u g permissions e) (fun e => ∃ g ps, Invites ns u g ps e) P

def Taken (db : Db) (ns u : ℕ) : List ShareEvent → Prop :=
  Since (Accepts ns u u) (fun e => ∃ g, Owns db g ns ∧ Revokes ns u g e) fun _ => True

/-- The last invitation of `u` to `ns` came from the owner and listed `p`, `u` accepted it, and the
owner has not revoked it since. -/
def Granted (db : Db) (ns u : ℕ) (p : String) (history : List ShareEvent) : Prop :=
  ∃ permissions, p ∈ permissions ∧ LastInvite db ns u permissions (Taken db ns u) history

section Concat

variable {db : Db} {ns u : ℕ} {e : ShareEvent} {history : List ShareEvent} {s s' : NamespaceShare}

theorem lastInvite_concat {perms : List String} {P : List ShareEvent → Prop} (h : ¬∃ g ps, Invites ns u g ps e) :
    LastInvite db ns u perms P (history ++ [e]) ↔
      LastInvite db ns u perms (fun ls => P (ls ++ [e])) history := by
  rw [LastInvite, since_concat, LastInvite]
  constructor
  · rintro (⟨⟨g, -, hin⟩, -⟩ | ⟨-, hl⟩)
    · exact absurd ⟨g, perms, hin⟩ h
    · exact hl
  · exact fun hl => .inr ⟨h, hl⟩

theorem taken_concat : Taken db ns u (history ++ [e]) ↔
    Accepts ns u u e ∨ ((¬∃ g, Owns db g ns ∧ Revokes ns u g e) ∧ Taken db ns u history) := by
  rw [Taken, since_concat, and_true]

def Standing (db : Db) (ns u : ℕ) (history : List ShareEvent) : List NamespaceShare → Prop
  | [] => ∀ permissions P, ¬LastInvite db ns u permissions P history
  | [s] => ∀ permissions, (LastInvite db ns u permissions (fun _ => True) history ↔ permissions = s.permissions) ∧
      (LastInvite db ns u permissions (Taken db ns u) history ↔ permissions = s.permissions ∧ s.status = .accepted)
  | _ => False

theorem Standing.eq_singleton {rows : List NamespaceShare} (h : Standing db ns u history rows) (hs : s ∈ rows) :
    rows = [s] := by
  match rows, h with
  | [], _ => cases hs
  | [a], _ => rw [List.mem_singleton.mp hs]

structure Unrelated (db : Db) (ns u : ℕ) (e : ShareEvent) : Prop where
  invites : ¬∃ g ps, Invites ns u g ps e
  accepts : ¬Accepts ns u u e
  revokes : ¬∃ g, Owns db g ns ∧ Revokes ns u g e

theorem unrelated_of_ne {call : ShareCall} {she : NamespaceShare}
    (hc : ∀ ns' em perms g, call = .createInvite ns' em perms g → she.namespaceId = ns')
    (hne : ¬(ns = she.namespaceId ∧ u = she.userId)) : Unrelated db ns u (call, .ok she) where
  invites := by
    rintro ⟨g, ps, em, sh', heq, hu⟩
    cases heq
    exact hne ⟨(hc _ _ _ _ rfl).symm, hu.symm⟩
  accepts := by
    rintro ⟨now, i, sh', heq, hns, hu⟩
    cases heq
    exact hne ⟨hns.symm, hu.symm⟩
  revokes := by
    rintro ⟨g, -, now, i, sh', heq, hns, hu⟩
    cases heq
    exact hne ⟨hns.symm, hu.symm⟩

theorem Unrelated.taken_iff (he : Unrelated db ns u e) :
    (fun ls => Taken db ns u (ls ++ [e])) = Taken db ns u := by
  funext ls
  rw [taken_concat, eq_iff_iff]
  exact ⟨fun h => (h.resolve_left he.accepts).2, fun h => .inr ⟨he.revokes, h⟩⟩

theorem Standing.of_unrelated {rows : List NamespaceShare} (h : Standing db ns u history rows)
    (he : Unrelated db ns u e) : Standing db ns u (history ++ [e]) rows := by
  match rows, h with
  | [], h =>
    intro perms P hl
    exact h perms _ ((lastInvite_concat he.invites).mp hl)
  | [s], h =>
    intro perms
    rw [lastInvite_concat he.invites, lastInvite_concat he.invites, he.taken_iff]
    exact h perms

theorem Standing.decline (h : Standing db ns u history [s]) (he : Unrelated db ns u e)
    (hs : s.status ≠ .accepted) (hs' : s'.status ≠ .accepted) (hp : s'.permissions = s.permissions) :
    Standing db ns u (history ++ [e]) [s'] := by
  intro perms
  obtain ⟨hl, ht⟩ := h.of_unrelated he perms
  rw [hl, ht, hp]
  exact ⟨Iff.rfl, iff_of_false (fun h => hs h.2) (fun h => hs' h.2)⟩

theorem Standing.accept (h : Standing db ns u history [s]) (he : Accepts ns u u e) (hs' : s'.status = .accepted)
    (hp : s'.permissions = s.permissions) : Standing db ns u (history ++ [e]) [s'] := by
  have hin : ¬∃ g ps, Invites ns u g ps e := by
    rintro ⟨g, ps, em, she, rfl, -⟩
    obtain ⟨now, i, sh', heq, -⟩ := he
    cases heq
  have ht : (fun ls => Taken db ns u (ls ++ [e])) = fun _ => True := by
    funext ls
    rw [taken_concat, eq_true (Or.inl he)]
  intro perms
  rw [lastInvite_concat hin, lastInvite_concat hin, ht, (h perms).1, hp]
  exact ⟨Iff.rfl, ⟨fun h => ⟨h, hs'⟩, And.left⟩⟩

theorem Standing.revoke {g : ℕ} (h : Standing db ns u history [s]) (ho : Owns db g ns) (he : Revokes ns u g e)
    (hs' : s'.status ≠ .accepted) (hp : s'.permissions = s.permissions) :
    Standing db ns u (history ++ [e]) [s'] := by
  obtain ⟨now, i, she, rfl, hns, hu⟩ := he
  have hin : ¬∃ g' ps, Invites ns u g' ps (.revoke now i g, .ok she) := by
    rintro ⟨g', ps, em, sh', heq, -⟩
    cases heq
  have ht : (fun ls => Taken db ns u (ls ++ [(.revoke now i g, .ok she)])) = fun _ => False := by
    funext ls
    rw [taken_concat]
    refine eq_false ?_
    rintro (⟨now', i', sh', heq, -⟩ | ⟨hn, -⟩)
    · cases heq
    · exact hn ⟨g, ho, now, i, she, rfl, hns, hu⟩
  have hne : ∀ perms, ¬LastInvite db ns u perms (fun _ => False) history := by
    rintro perms ⟨early, x, ls, -, -, -, hf⟩
    exact hf
  intro perms
  rw [lastInvite_concat hin, lastInvite_concat hin, ht, (h perms).1, hp]
  exact ⟨Iff.rfl, iff_of_false (hne perms) (fun h => hs' h.2)⟩

theorem standing_of_invite {g : ℕ} (ho : Owns db g ns) (he : Invites ns u g s'.permissions e)
    (hs' : s'.status ≠ .accepted) : Standing db ns u (history ++ [e]) [s'] := by
  have hs : ∀ perms, (∃ g', Owns db g' ns ∧ Invites ns u g' perms e) ↔ perms = s'.permissions := by
    obtain ⟨em, she, rfl, hu⟩ := he
    intro perms
    constructor
    · rintro ⟨g', -, em', sh', heq, -⟩
      cases heq
      rfl
    · rintro rfl
      exact ⟨g, ho, em, she, rfl, hu⟩
  have hn : ∀ perms P, LastInvite db ns u perms P (history ++ [e]) ↔ perms = s'.permissions ∧ P [] := by
    intro perms P
    rw [LastInvite, since_concat, hs]
    exact ⟨fun h => h.resolve_right fun hol => hol.1 ⟨g, _, he⟩, .inl⟩
  intro perms
  rw [hn, hn, and_true]
  exact ⟨Iff.rfl, iff_of_false (fun h => not_since_nil h.2) (fun h => hs' h.2)⟩

end Concat

structure Follows (db₀ : Db) (history : List ShareEvent) (db : Db) : Prop where
  namespaces : db.namespaces = db₀.namespaces
  accounts : db.accounts = db₀.accounts
  rows : ∀ ns u, Standing db₀ ns u history (rowsOf db ns u)
  inviter : ∀ e ∈ history, ∀ ns u g permissions, Invites ns u g permissions e → Owns db₀ g ns
  accepter : ∀ e ∈ history, ∀ ns u v, Accepts ns u v e → v = u

section Steps

variable {db₀ db : Db} {hist : List ShareEvent}

theorem Follows.owns_iff (h : Follows db₀ hist db) (g ns : ℕ) : Owns db g ns ↔ Owns db₀ g ns := by
  rw [Owns, Owns, h.namespaces]
  simp only [ownedBy, h.accounts]

theorem Follows.rowsOf_eq (h : Follows db₀ hist db) {i : ℕ} {s : NamespaceShare} (hs : db.shares.get? i = some s) :
    rowsOf db s.namespaceId s.userId = [s] :=
  (h.rows _ _).eq_singleton (mem_rowsOf.mpr ⟨(Table.get?_eq_some.mp hs).1, rfl, rfl⟩)

theorem Follows.of_error (h : Follows db₀ hist db) (call : ShareCall) (e : ApiError) :
    Follows db₀ (hist ++ [(call, .error e)]) db where
  namespaces := h.namespaces
  accounts := h.accounts
  rows ns u := (h.rows ns u).of_unrelated
    { invites := by rintro ⟨g, ps, em, she, heq, -⟩; cases heq
      accepts := by rintro ⟨now, i, she, heq, -⟩; cases heq
      revokes := by rintro ⟨g, -, now, i, she, heq, -⟩; cases heq }
  inviter x hx ns u g permissions hinvites := by
    rcases List.mem_append.mp hx with hx | hx
    · exact h.inviter x hx ns u g permissions hinvites
    · obtain ⟨em, she, heq, -⟩ := hinvites
      cases (List.mem_singleton.mp hx).symm.trans heq
  accepter x hx ns u v haccepts := by
    rcases List.mem_append.mp hx with hx | hx
    · exact h.accepter x hx ns u v haccepts
    · obtain ⟨now, i, she, heq, -⟩ := haccepts
      cases (List.mem_singleton.mp hx).symm.trans heq

variable {sh : NamespaceShare} {call : ShareCall} {db' : Db}

theorem Effect.inviter (he : Effect db call sh db')
    {ns u g : ℕ} {perms : List String} (hin : Invites ns u g perms (call, .ok sh)) :
    Owns db g ns := by
  obtain ⟨em, sh', heq, -⟩ := hin
  cases heq
  cases he with
  | invited ho hr => exact ho
  | reinvited ho hr => exact ho

theorem Effect.accepter (he : Effect db call sh db')
    {ns u v : ℕ} (ha : Accepts ns u v (call, .ok sh)) : v = u := by
  obtain ⟨now, i, sh', heq, -, hu⟩ := ha
  cases heq
  cases he with
  | accepted hs hp => exact hu

theorem Follows.standing_of_effect (h : Follows db₀ hist db)
    (he : Effect db call sh db') (ns u : ℕ) : Standing db₀ ns u (hist ++ [(call, .ok sh)]) (rowsOf db' ns u) := by
  cases he with
  | @invited ns' u' g em perms ho hr =>
    rw [rowsOf_insert]
    by_cases hsa : ns = ns' ∧ u = u'
    · obtain ⟨rfl, rfl⟩ := hsa
      rw [hr, if_pos ⟨rfl, rfl⟩, List.nil_append]
      exact standing_of_invite ((h.owns_iff g ns).mp ho) ⟨em, _, rfl, rfl⟩ (by simp [newShare])
    · rw [if_neg (fun heq => hsa ⟨heq.1.symm, heq.2.symm⟩), List.append_nil]
      exact (h.rows ns u).of_unrelated (unrelated_of_ne (by rintro _ _ _ _ ⟨⟩; rfl) hsa)
  | @reinvited ns' u' g em perms s ho hr =>
    obtain ⟨-, hns, hu⟩ := mem_rowsOf.mp (hr ▸ List.mem_singleton_self s)
    rw [rowsOf_changed_of_eq hr (Shares.reinvited perms g) (fun _ => ⟨rfl, rfl⟩)]
    split_ifs with hsa
    · obtain ⟨rfl, rfl⟩ := hsa
      exact standing_of_invite ((h.owns_iff g ns).mp ho) ⟨em, _, rfl, hu⟩ (by simp [Shares.reinvited])
    · refine (h.rows ns u).of_unrelated (unrelated_of_ne ?_ ?_)
      · rintro _ _ _ _ ⟨⟩
        exact hns
      · rintro ⟨rfl, rfl⟩
        exact hsa ⟨hns, hu⟩
  | @accepted now i s hs hp =>
    have hr := h.rowsOf_eq hs
    rw [rowsOf_changed_of_eq hr (Shares.accepted now) (fun _ => ⟨rfl, rfl⟩)]
    split_ifs with hsa
    · obtain ⟨rfl, rfl⟩ := hsa
      exact (hr ▸ h.rows _ _ : Standing db₀ _ _ hist [s]).accept ⟨now, i, _, rfl, rfl, rfl⟩ rfl rfl
    · exact (h.rows ns u).of_unrelated (unrelated_of_ne (by rintro _ _ _ _ ⟨⟩) hsa)
  | @declined i s hs hp =>
    have hr := h.rowsOf_eq hs
    rw [rowsOf_changed_of_eq hr Shares.declined (fun _ => ⟨rfl, rfl⟩)]
    split_ifs with hsa
    · obtain ⟨rfl, rfl⟩ := hsa
      refine (hr ▸ h.rows _ _ : Standing db₀ _ _ hist [s]).decline ?_ (by simp [hp]) (by simp [Shares.declined]) rfl
      exact { invites := by rintro ⟨g, ps, em, sh, heq, -⟩; cases heq
              accepts := by rintro ⟨now, i, sh, heq, -⟩; cases heq
              revokes := by rintro ⟨g, -, now, i, sh, heq, -⟩; cases heq }
    · exact (h.rows ns u).of_unrelated (unrelated_of_ne (by rintro _ _ _ _ ⟨⟩) hsa)
  | @revoked now i g s hs ho =>
    have hr := h.rowsOf_eq hs
    rw [rowsOf_changed_of_eq hr (Shares.revoked now) (fun _ => ⟨rfl, rfl⟩)]
    split_ifs with hsa
    · obtain ⟨rfl, rfl⟩ := hsa
      exact (hr ▸ h.rows _ _ : Standing db₀ _ _ hist [s]).revoke ((h.owns_iff g _).mp ho)
        ⟨now, i, _, rfl, rfl, rfl⟩ (by simp [Shares.revoked]) rfl
    · exact (h.rows ns u).of_unrelated (unrelated_of_ne (by rintro _ _ _ _ ⟨⟩) hsa)

theorem Follows.of_effect (h : Follows db₀ hist db)
    (he : Effect db call sh db') : Follows db₀ (hist ++ [(call, .ok sh)]) db' where
  namespaces := by cases he <;> exact h.namespaces
  accounts := by cases he <;> exact h.accounts
  rows := h.standing_of_effect he
  inviter x hx ns u g permissions hinvites := by
    rcases List.mem_append.mp hx with hx | hx
    · exact h.inviter x hx ns u g permissions hinvites
    · obtain rfl := List.mem_singleton.mp hx
      exact (h.owns_iff g ns).mp (he.inviter hinvites)
  accepter x hx ns u v haccepts := by
    rcases List.mem_append.mp hx with hx | hx
    · exact h.accepter x hx ns u v haccepts
    · obtain rfl := List.mem_singleton.mp hx
      exact he.accepter haccepts

theorem follows_of_run (h₀ : db₀.shares = Table.empty) (h : Run perform db₀ hist db) : Follows db₀ hist db := by
  refine Run.invariant (I := Follows db₀) ?_ (fun hist db call ih => ?_) h
  · refine ⟨rfl, rfl, fun ns u => ?_, by simp, by simp⟩
    have hr : rowsOf db₀ ns u = [] := by
      rw [rowsOf, h₀]
      rfl
    rw [hr]
    exact fun perms P => not_since_nil
  · rcases perform_cases call db with ⟨e, hf⟩ | ⟨sh, db', hok, he⟩
    · rw [hf]
      exact ih.of_error call e
    · rw [hok]
      exact ih.of_effect he

end Steps

theorem checkAccess_of_rows {p : String} : (rowsOf db ns u = [] → checkAccess db ns u p = .ok none) ∧
      ∀ s, rowsOf db ns u = [s] →
        checkAccess db ns u p = .ok (if s.status = .accepted ∧ p ∈ s.permissions then some s else none) := by
  have hse : (db.shares.select fun s => s.namespaceId = ns ∧ s.userId = u ∧ s.status = .accepted) =
      (rowsOf db ns u).filter fun s => s.status = .accepted := by
    rw [rowsOf, Table.select, Table.select, List.filter_filter]
    refine List.filter_congr fun s _ => ?_
    simp only [← Bool.decide_and, ← and_assoc, and_comm]
  rw [checkAccess, hse]
  refine ⟨fun h => by rw [h]; rfl, fun s h => ?_⟩
  rw [h]
  by_cases hs : s.status = .accepted <;> by_cases hp : p ∈ s.permissions <;>
    simp [hs, hp, scalarOneOrNone, Option.filter, bind, Except.bind, pure, Except.pure]

/-- In every state that a run of calls reaches, a share is found exactly when the owner's last
invitation listed the permission, the user accepted it, and the owner has not revoked it
since. Invitations come from owners, acceptances from the invited user, and there is one row
for a namespace and a user. -/
theorem checkAccess_iff_granted {db₀ db : Db} {history : List ShareEvent} (h₀ : db₀.shares = Table.empty)
    (h : Run perform db₀ history db) :
    (∀ ns u p, (∃ share, checkAccess db ns u p = .ok (some share)) ↔ Granted db₀ ns u p history) ∧
      (∀ e ∈ history, ∀ ns u g permissions, Invites ns u g permissions e → Owns db₀ g ns) ∧
      (∀ e ∈ history, ∀ ns u v, Accepts ns u v e → v = u) ∧
      ∀ ns u, (rowsOf db ns u).length ≤ 1 := by
  have hf := follows_of_run h₀ h
  refine ⟨fun ns u p => ?_, hf.inviter, hf.accepter, fun ns u => ?_⟩
  · have hr := hf.rows ns u
    rcases hc : rowsOf db ns u with _ | ⟨s, _ | ⟨t, rest⟩⟩
    · rw [hc] at hr
      rw [checkAccess_of_rows.1 hc]
      refine iff_of_false (by simp) ?_
      rintro ⟨permissions, -, hl⟩
      exact hr permissions _ hl
    · rw [hc] at hr
      rw [checkAccess_of_rows.2 s hc]
      constructor
      · rintro ⟨share, hsh⟩
        split_ifs at hsh with hs
        · exact ⟨s.permissions, hs.2, (hr s.permissions).2.mpr ⟨rfl, hs.1⟩⟩
        · cases hsh
      · rintro ⟨permissions, hp, hl⟩
        obtain ⟨rfl, hs⟩ := (hr permissions).2.mp hl
        exact ⟨s, by rw [if_pos ⟨hs, hp⟩]⟩
    · rw [hc] at hr
      exact hr.elim
  · have hr := hf.rows ns u
    rcases hc : rowsOf db ns u with _ | ⟨s, _ | ⟨t, rest⟩⟩
    · simp
    · simp
    · rw [hc] at hr
      exact hr.elim

def sharingDb : Db where
  users := (Table.single { id := 1, email := "owner@acme.test" }).insert fun i =>
    { id := i, email := "guest@acme.test" }
  accounts := .single { id := 1, userId := 1 }
  namespaces := .single { id := 1, accountId := 1, name := .acme }

theorem guest_granted_after_accepting : Granted sharingDb 1 2 "read"
      [(.createInvite 1 "Guest@acme.test" ["read"] 1, .ok (newShare 1 2 ["read"] 1 1)),
        (.accept 7 1 2, .ok (accepted 7 (newShare 1 2 ["read"] 1 1)))] := by
  have hs : Run perform sharingDb [] sharingDb := .nil
  have hr := (hs.step (.createInvite 1 "Guest@acme.test" ["read"] 1)).step (.accept 7 1 2)
  exact ((checkAccess_iff_granted rfl hr).1 1 2 "read").mp ⟨accepted 7 (newShare 1 2 ["read"] 1 1), by rfl⟩

end McpworksApi.Services.Shares
