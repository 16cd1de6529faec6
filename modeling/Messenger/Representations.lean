import Messenger.PlainMessenger
import Messenger.Registrations
import Messenger.Terminations
import Messenger.UserRows
import Messenger.FriendLists
import Mathlib.Data.Int.ConditionallyCompleteOrder

/-!
The tables as a state of the messenger that users see. Ids are read as the logins of their
users, hashes as the passwords they were made of, rows of sessions as tokens that have been
given out and rows that are gone as tokens that have expired. What a handler does to the
tables is then what the messenger does.
-/
namespace Messenger.Representations

open KeyedTables Outcomes UserRepository MessageRepository FriendStates TokenRequests TableSteps
  Registrations UserRows PlainMessenger

abbrev Plain := State Bytes Bytes Bytes Bytes

def loginOf (st : Store) (id : ℤ) : Bytes :=
  match st.db.findUser id with
  | some u => u.login
  | none => []

def users (st : Store) : Set ℤ := {id | hasUser st id}

/-- A row of direct_messages and the letter it keeps. -/
structure Keeps (st : Store) (r : DirectMessageRow) (x : Letter Bytes Bytes) : Prop where
  sender : loginOf st r.sender = x.sender
  recipient : loginOf st r.recipient = x.recipient
  text : r.message = x.text
  time : r.createAt = x.time
  waiting : r.delivered = if x.waiting then 0 else 1

structure Represents (env : Env) (st : Store) (m : Plain) : Prop where
  accounts : Listed env st m.accounts
  nulFree : ∀ a ∈ m.accounts, 0 ∉ a.1
  wellFormed : WellFormed m
  sound : Sound env st
  held : ∀ s ∈ st.db.sessions, hasUser st s.id ∧
    m.grants s.token = some ⟨loginOf st s.id, s.createdAt⟩
  lost : ∀ token g, m.grants token = some g → (∃ s ∈ st.db.sessions, s.token = token) ∨
    tokenTtl < env.clock st.clockReads - g.since
  friends : Renames (loginOf st) (users st) (friendMap st.db.friendships.rows) m.friends
  letters : List.Forall₂ (Keeps st) st.db.directMessages.rows m.letters

section

variable {env : Env} {st : Store} {m : Plain}

theorem loginOf_of_findUser {id : ℤ} {u : UserRow} (h : st.db.findUser id = some u) :
    loginOf st id = u.login := by
  unfold loginOf
  rw [h]

theorem loginOf_congr {st' : Store} (husers : st'.db.users = st.db.users) :
    loginOf st' = loginOf st ∧ users st' = users st := by
  unfold loginOf users hasUser Database.findUser
  rw [husers]
  exact ⟨rfl, rfl⟩

theorem distinctLogins (h : Represents env st m) : DistinctLogins st := by
  unfold DistinctLogins
  rw [map_login h.accounts.rows]
  exact h.wellFormed.logins

theorem registered_iff (h : Represents env st m) {login : Bytes} :
    m.Registered login ↔ ∃ u ∈ st.db.users.rows, u.login = login := by
  unfold State.Registered
  rw [← map_login h.accounts.rows, List.mem_map]

theorem registered_iff_findLogin (h : Represents env st m) {login : Bytes} :
    m.Registered login ↔ (st.db.findLogin login).isSome := by
  rw [registered_iff h, Database.findLogin, List.find?_isSome]
  simp only [beq_iff_eq]

theorem nulFree_of_mem (h : Represents env st m) {u : UserRow} (hu : u ∈ st.db.users.rows) :
    getText u.login = u.login := by
  obtain ⟨a, ha, hlogin⟩ := List.mem_map.mp ((registered_iff h).mpr ⟨u, hu, rfl⟩)
  exact (getText_eq_self_iff _).mpr (hlogin ▸ h.nulFree a ha)

theorem getIdByLogin_of_registered (h : Represents env st m) {login : Bytes}
    (hlogin : m.Registered login) :
    ∃ id, getIdByLogin login st = .ok id ∧ hasUser st id ∧ loginOf st id = login := by
  obtain ⟨u, hu, rfl⟩ := (registered_iff h).mp hlogin
  have hfind := findUser_of_mem hu
  refine ⟨u.id, getIdByLogin_of_mem (distinctLogins h) hu, ?_, loginOf_of_findUser hfind⟩
  rw [hasUser, hfind]
  rfl

theorem getIdByLogin_ok (h : Represents env st m) {login : Bytes} {id : ℤ}
    (hid : getIdByLogin login st = .ok id) :
    m.Registered login ∧ hasUser st id ∧ loginOf st id = login := by
  have hlogin : m.Registered login := by
    rw [registered_iff_findLogin h]
    rcases getIdByLogin_cases login st with ⟨hsome, -⟩ | ⟨-, herror⟩
    · exact hsome
    · cases hid.symm.trans herror
  obtain ⟨id', hid', huser, hname⟩ := getIdByLogin_of_registered h hlogin
  cases hid.symm.trans hid'
  exact ⟨hlogin, huser, hname⟩

/-- No two users share a login. -/
theorem loginOf_injOn (h : DistinctLogins st) : Set.InjOn (loginOf st) (users st) := by
  intro x hx y hy hsame
  obtain ⟨u, hu⟩ := Option.isSome_iff_exists.mp hx
  obtain ⟨v, hv⟩ := Option.isSome_iff_exists.mp hy
  rw [loginOf_of_findUser hu, loginOf_of_findUser hv] at hsame
  have huv := List.inj_on_of_nodup_map h (List.mem_of_find?_eq_some hu)
    (List.mem_of_find?_eq_some hv) hsame
  have hxid : u.id = x := by simpa using List.find?_some hu
  have hyid : v.id = y := by simpa using List.find?_some hv
  rw [← hxid, ← hyid, huv]

/-- A lookup finds the user that the token stands for. -/
theorem tokenLogin_eq_holder (h : Represents env st m) (token : Bytes) :
    tokenLogin env token st = m.holder tokenTtl token (env.clock st.clockReads) := by
  unfold tokenLogin State.holder
  cases hcheck : st.db.findToken token with
  | none =>
    cases hgrant : m.grants token with
    | none => rfl
    | some g =>
      rcases h.lost token g hgrant with ⟨s, hs, htoken⟩ | hold
      · have hno := List.find?_eq_none.mp hcheck s hs
        simp [htoken] at hno
      · simp [hold]
  | some check =>
    have hmem : check ∈ st.db.sessions := List.mem_of_find?_eq_some hcheck
    have htoken : check.token = token := by simpa using List.find?_some hcheck
    obtain ⟨huser, hgrant⟩ := h.held check hmem
    obtain ⟨u, hu⟩ := Option.isSome_iff_exists.mp huser
    rw [htoken, loginOf_of_findUser hu] at hgrant
    simp only [hgrant, Option.bind_some, hu, Option.map_some,
      nulFree_of_mem h (List.mem_of_find?_eq_some hu)]

end

section

variable {env : Env} {st st' : Store} {m : Plain}

/-- What is read with the users: who they are, and who asks whom and writes to whom. -/
theorem letters_congr (husers : st'.db.users = st.db.users)
    (hmessages : st'.db.directMessages = st.db.directMessages)
    (h : List.Forall₂ (Keeps st) st.db.directMessages.rows m.letters) :
    List.Forall₂ (Keeps st') st'.db.directMessages.rows m.letters := by
  have hname := (loginOf_congr husers).1
  rw [hmessages]
  refine h.imp fun r x hkeeps => ⟨?_, ?_, hkeeps.text, hkeeps.time, hkeeps.waiting⟩
  · rw [hname]
    exact hkeeps.sender
  · rw [hname]
    exact hkeeps.recipient

theorem friends_congr (husers : st'.db.users = st.db.users)
    (hfriendships : st'.db.friendships = st.db.friendships)
    (h : Renames (loginOf st) (users st) (friendMap st.db.friendships.rows) m.friends) :
    Renames (loginOf st') (users st') (friendMap st'.db.friendships.rows) m.friends := by
  obtain ⟨hname, hids⟩ := loginOf_congr husers
  rw [hname, hids, hfriendships]
  exact h

/-- Only the sessions differ. -/
structure SessionsOnly (env : Env) (st st' : Store) : Prop where
  users : st'.db.users = st.db.users
  friendships : st'.db.friendships = st.db.friendships
  messages : st'.db.directMessages = st.db.directMessages
  reads : st.clockReads ≤ st'.clockReads
  drawn : ∀ s ∈ st'.db.sessions, s ∈ st.db.sessions ∨ ∃ n < st'.uuidsDrawn, s.token = env.uuid n
  uuids : st.uuidsDrawn ≤ st'.uuidsDrawn

theorem SessionsOnly.sound (h : SessionsOnly env st st') (hsound : Sound env st) :
    Sound env st' := by
  have huser : ∀ id, hasUser st id → hasUser st' id := by
    intro id hid
    rwa [hasUser, Database.findUser, h.users]
  refine ⟨?_, ?_, ?_, ?_, ?_⟩
  · rw [h.friendships]
    exact hsound.normalised
  · rw [h.friendships]
    exact fun f hf => ⟨huser _ (hsound.befriended f hf).1, huser _ (hsound.befriended f hf).2⟩
  · rw [h.messages]
    exact fun r hr =>
      ⟨huser _ (hsound.corresponding r hr).1, huser _ (hsound.corresponding r hr).2⟩
  · rw [h.messages, h.friendships]
    exact hsound.friends
  · intro s hs
    rcases h.drawn s hs with hold | hnew
    · obtain ⟨n, hn, htoken⟩ := hsound.drawn s hold
      exact ⟨n, hn.trans_le h.uuids, htoken⟩
    · exact hnew

/-- The state after the sessions have changed, and the grants with them. -/
theorem Represents.sessions (h : Represents env st m) (hclock : Monotone env.clock)
    (honly : SessionsOnly env st st') {grants : Bytes → Option (Grant Bytes)}
    (hwell : WellFormed { m with grants := grants })
    (hheld : ∀ s ∈ st'.db.sessions, hasUser st s.id ∧
      grants s.token = some ⟨loginOf st s.id, s.createdAt⟩)
    (hlost : ∀ token g, grants token = some g → (∃ s ∈ st'.db.sessions, s.token = token) ∨
      tokenTtl < env.clock st.clockReads - g.since ∨
      tokenTtl < env.clock st'.clockReads - g.since) :
    Represents env st' { m with grants := grants } where
  accounts := ⟨honly.users ▸ h.accounts.rows, h.accounts.logins⟩
  nulFree := h.nulFree
  wellFormed := hwell
  sound := honly.sound h.sound
  held := by
    have hname := (loginOf_congr honly.users).1
    intro s hs
    rw [hname, hasUser, Database.findUser, honly.users]
    exact hheld s hs
  lost token g hg := by
    have htime := hclock honly.reads
    rcases hlost token g hg with hrow | hold | hold
    · exact Or.inl hrow
    · exact Or.inr (by omega)
    · exact Or.inr hold
  friends := friends_congr honly.users honly.friendships h.friends
  letters := letters_congr honly.users honly.messages h.letters

/-- Rows may go that no lookup would accept any more. -/
theorem Represents.prune (h : Represents env st m) (hclock : Monotone env.clock)
    (husers : st'.db.users = st.db.users) (hfriendships : st'.db.friendships = st.db.friendships)
    (hmessages : st'.db.directMessages = st.db.directMessages)
    (hreads : st.clockReads ≤ st'.clockReads) (huuids : st.uuidsDrawn ≤ st'.uuidsDrawn)
    (hsub : ∀ s ∈ st'.db.sessions, s ∈ st.db.sessions)
    (hgone : ∀ s ∈ st.db.sessions, s ∈ st'.db.sessions ∨
      tokenTtl < env.clock st.clockReads - s.createdAt) : Represents env st' m := by
  have honly : SessionsOnly env st st' :=
    ⟨husers, hfriendships, hmessages, hreads, fun s hs => Or.inl (hsub s hs), huuids⟩
  refine h.sessions hclock honly h.wellFormed (fun s hs => h.held s (hsub s hs)) ?_
  intro token g hg
  rcases h.lost token g hg with ⟨s, hs, rfl⟩ | hold
  · rcases hgone s hs with hstays | hold
    · exact Or.inl ⟨s, hstays, rfl⟩
    · have hgrant := (h.held s hs).2
      cases hg.symm.trans hgrant
      exact Or.inr (Or.inl hold)
  · exact Or.inr (Or.inl hold)

theorem Represents.ticked (h : Represents env st m) (hclock : Monotone env.clock) :
    Represents env (ticked st) m :=
  h.prune hclock rfl rfl rfl (Nat.le_succ _) le_rfl (fun _ hs => hs) fun _ hs => Or.inl hs

/-- A lookup that is refused. -/
theorem Represents.lookedUp (h : Represents env st m) (hclock : Monotone env.clock)
    {token : Bytes} {r : Except ErrorCode Bytes} (hlook : LookedUp env token st r st') :
    Represents env st' m := by
  cases hlook with
  | unknown _ => exact h
  | expired check hcheck hold =>
    refine h.prune hclock rfl rfl rfl (Nat.le_succ _) le_rfl
      (fun _ hs => List.mem_of_mem_filter hs) fun s hs => ?_
    have hmem : check ∈ st.db.sessions := List.mem_of_find?_eq_some hcheck
    have htoken : check.token = token := by simpa using List.find?_some hcheck
    by_cases hsame : s.token = token
    · -- both rows keep the time at which the token was given out
      have hgrant := (h.held s hs).2
      rw [hsame, ← htoken, (h.held check hmem).2] at hgrant
      have hsince : check.createdAt = s.createdAt :=
        congrArg Grant.since (Option.some.inj hgrant)
      exact Or.inr (hsince ▸ hold)
    · exact Or.inl (List.mem_filter.mpr ⟨hs, by simp [hsame]⟩)
  | orphan _ _ _ _ => exact h.ticked hclock
  | found _ _ _ _ _ => exact h.ticked hclock

theorem Represents.cleaned (h : Represents env st m) (hclock : Monotone env.clock) :
    Represents env (final ((cleanExpiredTokens env).run st)) m := by
  refine h.prune hclock rfl rfl rfl (Nat.le_succ _) le_rfl
    (fun _ hs => List.mem_of_mem_filter hs) fun s hs => ?_
  by_cases hold : tokenTtl < env.clock st.clockReads - s.createdAt
  · exact Or.inr hold
  · exact Or.inl (List.mem_filter.mpr ⟨hs, by simp [not_lt.mp hold]⟩)

theorem Represents.logout (h : Represents env st m) (hclock : Monotone env.clock)
    (token : Bytes) : Represents env (withoutToken st token) (m.revoke token) := by
  have honly : SessionsOnly env st (withoutToken st token) :=
    ⟨rfl, rfl, rfl, le_rfl, fun s hs => Or.inl (List.mem_of_mem_filter hs), le_rfl⟩
  refine h.sessions hclock honly (h.wellFormed.revoke token) ?_ ?_
  · intro s hs
    obtain ⟨hold, hother⟩ := List.mem_filter.mp hs
    have hne : s.token ≠ token := by simpa using hother
    refine ⟨(h.held s hold).1, ?_⟩
    exact (grants_revoke_of_ne (m := m) hne).trans (h.held s hold).2
  · intro token' g hg
    by_cases hsame : token' = token
    · subst hsame
      cases (grants_revoke_self (m := m) token').symm.trans hg
    · have hold := (grants_revoke_of_ne (m := m) hsame).symm.trans hg
      rcases h.lost token' g hold with ⟨s, hs, rfl⟩ | hexpired
      · exact Or.inl ⟨s, List.mem_filter.mpr ⟨hs, by simp [hsame]⟩, rfl⟩
      · exact Or.inr (Or.inl hexpired)

/-- A token that is drawn and given to a user. -/
theorem Represents.given (h : Represents env st m) (hclock : Monotone env.clock)
    {login : Bytes} {id : ℤ} (hid : getIdByLogin login st = .ok id)
    (hfresh : st.db.findToken (env.uuid st.uuidsDrawn) = none) :
    Represents env (withSession st (env.uuid st.uuidsDrawn) id (env.clock st.clockReads))
      (m.grant (env.uuid st.uuidsDrawn) login (env.clock st.clockReads)) := by
  obtain ⟨hregistered, huser, hname⟩ := getIdByLogin_ok h hid
  have honly : SessionsOnly env st
      (withSession st (env.uuid st.uuidsDrawn) id (env.clock st.clockReads)) := by
    refine ⟨rfl, rfl, rfl, Nat.le_succ _, fun s hs => ?_, Nat.le_succ _⟩
    rcases List.mem_append.mp hs with hold | hnew
    · exact Or.inl hold
    · rw [List.mem_singleton.mp hnew]
      exact Or.inr ⟨st.uuidsDrawn, Nat.lt_succ_self _, rfl⟩
  refine h.sessions hclock honly (h.wellFormed.grant hregistered _ _) ?_ ?_
  · intro s hs
    rcases List.mem_append.mp hs with hold | hnew
    · have hne : s.token ≠ env.uuid st.uuidsDrawn := by
        simpa using List.find?_eq_none.mp hfresh s hold
      refine ⟨(h.held s hold).1, ?_⟩
      exact (grants_grant_of_ne (m := m) hne _ _).trans (h.held s hold).2
    · rw [List.mem_singleton.mp hnew]
      refine ⟨huser, ?_⟩
      rw [hname]
      exact grants_grant_self (m := m) _ _ _
  · intro token g hg
    by_cases hsame : token = env.uuid st.uuidsDrawn
    · exact Or.inl ⟨_, List.mem_append_right _ (List.mem_singleton_self _), hsame.symm⟩
    · have hold := (grants_grant_of_ne (m := m) hsame login (env.clock st.clockReads)).symm.trans hg
      rcases h.lost token g hold with ⟨s, hs, htoken⟩ | hexpired
      · exact Or.inl ⟨s, List.mem_append_left _ hs, htoken⟩
      · exact Or.inr (Or.inl hexpired)

end

section

variable {env : Env} {st st' : Store} {m : Plain}

theorem loginOf_grows (hgrows : Grows env st st') {id : ℤ} (hid : hasUser st id) :
    hasUser st' id ∧ loginOf st' id = loginOf st id := by
  obtain ⟨u, hu⟩ := Option.isSome_iff_exists.mp hid
  have hu' := hgrows.findUser hu
  refine ⟨Option.isSome_iff_exists.mpr ⟨u, hu'⟩, ?_⟩
  rw [loginOf_of_findUser hu, loginOf_of_findUser hu']

theorem hasUser_withUser {login salt hash : Bytes} {id : ℤ}
    (h : hasUser (withUser st login salt hash) id) :
    hasUser st id ∨ id = st.db.users.seq + 1 := by
  obtain ⟨u, hu⟩ := Option.isSome_iff_exists.mp h
  have hid : u.id = id := by simpa using List.find?_some hu
  rcases List.mem_append.mp (List.mem_of_find?_eq_some hu) with hold | hnew
  · left
    rw [hasUser, ← hid, findUser_of_mem hold]
    rfl
  · right
    rw [← hid, List.mem_singleton.mp hnew]

/-- Only users have friends. -/
theorem users_of_friendMap (h : Sound env st) {x y : ℤ}
    (hne : friendMap st.db.friendships.rows s(x, y) ≠ .none) : hasUser st x ∧ hasUser st y := by
  obtain ⟨r, hr, hpair, -⟩ := FriendLists.exists_row h.normalised hne
  obtain ⟨h1, h2⟩ := h.befriended r hr
  rcases Sym2.eq_iff.mp hpair with ⟨rfl, rfl⟩ | ⟨rfl, rfl⟩
  · exact ⟨h1, h2⟩
  · exact ⟨h2, h1⟩

theorem sound_withUser (h : Sound env st) (login salt hash : Bytes)
    (hgrows : Grows env st (withUser st login salt hash)) :
    Sound env (withUser st login salt hash) where
  normalised := h.normalised
  befriended f hf := ⟨(loginOf_grows hgrows (h.befriended f hf).1).1,
    (loginOf_grows hgrows (h.befriended f hf).2).1⟩
  corresponding r hr := ⟨(loginOf_grows hgrows (h.corresponding r hr).1).1,
    (loginOf_grows hgrows (h.corresponding r hr).2).1⟩
  friends := h.friends
  drawn := drawn_of_grows hgrows h.drawn

/-- The new user has the login, and nothing to do with anybody. -/
theorem renames_withUser (h : Represents env st m) {login : Bytes}
    (hfree : st.db.findLogin login = none) (salt hash : Bytes)
    (hgrows : Grows env st (withUser st login salt hash)) :
    Renames (loginOf (withUser st login salt hash)) (users (withUser st login salt hash))
      (friendMap st.db.friendships.rows) m.friends := by
  have hnew : loginOf (withUser st login salt hash) (st.db.users.seq + 1) = login := by
    have hrow : (⟨st.db.users.seq + 1, login, salt, hash⟩ : UserRow) ∈
        (withUser st login salt hash).db.users.rows :=
      List.mem_append_right _ (List.mem_singleton_self _)
    exact loginOf_of_findUser (findUser_of_mem hrow)
  have hunregistered : ¬ m.Registered login := by
    rw [registered_iff_findLogin h, hfree]
    exact Bool.false_ne_true
  -- neither side knows a state of a pair with the new user in it
  have nothing : ∀ x y, ¬ (hasUser st x ∧ hasUser st y) →
      hasUser (withUser st login salt hash) x → hasUser (withUser st login salt hash) y →
      friendMap st.db.friendships.rows s(x, y) = .none ∧
        m.friends s(loginOf (withUser st login salt hash) x,
          loginOf (withUser st login salt hash) y) = .none := by
    intro x y hnot hx hy
    have hunknown : ∀ z, ¬ hasUser st z → hasUser (withUser st login salt hash) z →
        ¬ m.Registered (loginOf (withUser st login salt hash) z) := by
      intro z hz hz'
      rw [(hasUser_withUser hz').resolve_left hz, hnew]
      exact hunregistered
    constructor
    · by_contra hne
      exact hnot (users_of_friendMap h.sound hne)
    · by_contra hne
      obtain ⟨hxr, hyr⟩ := h.wellFormed.friends _ _ hne
      refine hnot ⟨?_, ?_⟩
      · by_contra hxn
        exact hunknown x hxn hx hxr
      · by_contra hyn
        exact hunknown y hyn hy hyr
  refine ⟨loginOf_injOn (distinctLogins_withUser (distinctLogins h) hfree salt hash), ?_, ?_⟩
  · intro x hx y hy
    by_cases hboth : hasUser st x ∧ hasUser st y
    · exact fun i hi => (loginOf_grows hgrows (h.friends.within x hboth.1 y hboth.2 i hi)).1
    · rw [(nothing x y hboth hx hy).1]
      exact nofun
  · intro x hx y hy
    by_cases hboth : hasUser st x ∧ hasUser st y
    · have hstate : renamed (loginOf (withUser st login salt hash))
          (friendMap st.db.friendships.rows s(x, y)) =
          renamed (loginOf st) (friendMap st.db.friendships.rows s(x, y)) := by
        cases hpending : friendMap st.db.friendships.rows s(x, y) with
        | none => rfl
        | accepted => rfl
        | pending i =>
          have hi := h.friends.within x hboth.1 y hboth.2 i hpending
          exact congrArg FriendState.pending (loginOf_grows hgrows hi).2
      rw [(loginOf_grows hgrows hboth.1).2, (loginOf_grows hgrows hboth.2).2, hstate]
      exact h.friends.names x hboth.1 y hboth.2
    · obtain ⟨hnone, hnone'⟩ := nothing x y hboth hx hy
      rw [hnone, hnone']
      rfl

/-- An account is opened. -/
theorem Represents.registered (h : Represents env st m) {login : Bytes} (password : Bytes)
    (hfree : st.db.findLogin login = none) (hlogin : 0 ∉ login) :
    Represents env
      (withUser st login (env.uuid st.uuidsDrawn) (sha256 env (password ++ env.uuid st.uuidsDrawn)))
      { m with accounts := m.accounts ++ [(login, password)] } := by
  have hgrows : Grows env st (withUser st login (env.uuid st.uuidsDrawn)
      (sha256 env (password ++ env.uuid st.uuidsDrawn))) :=
    ⟨List.prefix_append _ _, Nat.le_succ _, fun _ hs => Or.inl hs⟩
  have hunregistered : ¬ m.Registered login := by
    rw [registered_iff_findLogin h, hfree]
    exact Bool.false_ne_true
  have hwell := h.wellFormed.register hunregistered password
  constructor
  · exact ⟨List.rel_append h.accounts.rows (.cons ⟨rfl, env.uuid_nulFree _, rfl⟩ .nil),
      hwell.logins⟩
  · intro a ha
    rcases List.mem_append.mp ha with hold | hnew
    · exact h.nulFree a hold
    · rw [List.mem_singleton.mp hnew]
      exact hlogin
  · exact hwell
  · exact sound_withUser h.sound _ _ _ hgrows
  · intro s hs
    obtain ⟨huser, hgrant⟩ := h.held s hs
    obtain ⟨huser', hname⟩ := loginOf_grows hgrows huser
    rw [hname]
    exact ⟨huser', hgrant⟩
  · exact h.lost
  · exact renames_withUser h hfree _ _ hgrows
  · have hrows := h.letters
    have hcorresponding := h.sound.corresponding
    refine List.forall₂_iff_get.mpr ⟨hrows.length_eq, fun i hi hi' => ?_⟩
    have hkeeps := (List.forall₂_iff_get.mp hrows).2 i hi hi'
    obtain ⟨hsender, hrecipient⟩ := hcorresponding _ (List.get_mem _ ⟨i, hi⟩)
    refine ⟨?_, ?_, hkeeps.text, hkeeps.time, hkeeps.waiting⟩
    · exact (loginOf_grows hgrows hsender).2.trans hkeeps.sender
    · exact (loginOf_grows hgrows hrecipient).2.trans hkeeps.recipient

theorem FriendOperation.required_ne_accepted {α : Type} (operation : FriendOperation) (x y : α) :
    (operation.command x y).required ≠ .accepted := by
  cases operation <;> exact nofun

theorem sound_befriended (h : Sound env st) {operation : FriendOperation} {x y : ℤ} {e : ErrorCode}
    (hx : hasUser st x) (hy : hasUser st y) (hcarries : CarriesOut (operation.command x y) st e st')
    (hfriends : ∃ friendships, st' = { st with db := { st.db with friendships := friendships } }) :
    Sound env st' := by
  have hnormalised := hcarries.normalised
  have hmap := hcarries.map
  have hmem : ∀ f ∈ st'.db.friendships.rows,
      f ∈ st.db.friendships.rows ∨ (f.user1, f.user2) = ends (operation.command x y).pair :=
    fun f hf => CarriesOut.users_of_mem hcarries hf
  obtain ⟨friendships, rfl⟩ := hfriends
  refine ⟨hnormalised, fun f hf => ?_, h.corresponding, fun r hr => ?_, h.drawn⟩
  · rcases hmem f hf with hold | hnew
    · exact h.befriended f hold
    · obtain ⟨hactor, hpeer⟩ := operation.ends x y
      have hpair : (f.user1, f.user2) = normalize x y := by
        rw [hnew, Command.pair, hactor, hpeer, normalize_eq]
      have hboth : hasUser st (normalize x y).1 ∧ hasUser st (normalize x y).2 :=
        forall_normalize.mpr ⟨hx, hy⟩
      rwa [← hpair] at hboth
  · rw [hmap]
    exact Command.exec_accepted (FriendOperation.required_ne_accepted operation x y)
      (h.friends r hr)

/-- A command on ids is the same command on logins. -/
theorem Represents.befriended (h : Represents env st m) {operation : FriendOperation} {x y : ℤ}
    {e : ErrorCode} (hx : hasUser st x) (hy : hasUser st y)
    (hcarries : CarriesOut (operation.command x y) st e st')
    (hfriends : ∃ friendships, st' = { st with db := { st.db with friendships := friendships } }) :
    (e = Error.Base.ok ↔
      (operation.command (loginOf st x) (loginOf st y)).Enabled m.friends) ∧
    Represents env st' { m with
      friends := (operation.command (loginOf st x) (loginOf st y)).exec m.friends } := by
  obtain ⟨hactor, hpeer⟩ := operation.ends x y
  obtain ⟨hrequired, hnext⟩ := operation.within (S := users st) hx hy
  have hactorUser : (operation.command x y).actor ∈ users st := by rwa [hactor]
  have hpeerUser : (operation.command x y).peer ∈ users st := by rwa [hpeer]
  have hsound := sound_befriended h.sound hx hy hcarries hfriends
  have henabled := h.friends.enabled_iff hactorUser hpeerUser hrequired
  have hrenames := h.friends.exec hactorUser hpeerUser hrequired hnext
  rw [operation.renamed_command] at henabled hrenames
  rw [← hcarries.map] at hrenames
  have hregistered : ∀ z, hasUser st z → m.Registered (loginOf st z) := by
    intro z hz
    obtain ⟨u, hu⟩ := Option.isSome_iff_exists.mp hz
    rw [registered_iff h, loginOf_of_findUser hu]
    exact ⟨u, List.mem_of_find?_eq_some hu, rfl⟩
  have hwell : WellFormed { m with
      friends := (operation.command (loginOf st x) (loginOf st y)).exec m.friends } := by
    obtain ⟨hactor', hpeer'⟩ := operation.ends (loginOf st x) (loginOf st y)
    refine h.wellFormed.exec ?_ ?_
    · rw [hactor']
      exact hregistered x hx
    · rw [hpeer']
      exact hregistered y hy
  refine ⟨hcarries.verdict.trans henabled.symm, ?_⟩
  obtain ⟨friendships, rfl⟩ := hfriends
  exact ⟨⟨h.accounts.rows, h.accounts.logins⟩, h.nulFree, hwell, hsound, h.held, h.lost,
    hrenames, letters_congr (by rfl) (by rfl) h.letters⟩

/-- A letter is taken in between friends. -/
theorem Represents.written (h : Represents env st m) (hclock : Monotone env.clock)
    {sender recipient : ℤ} (hsender : hasUser st sender) (hrecipient : hasUser st recipient)
    (haccepted : friendMap st.db.friendships.rows s(sender, recipient) = .accepted)
    (text : Bytes) (now : ℤ) :
    Represents env (withMessage st sender recipient now text) { m with
      letters := m.letters ++
        [⟨loginOf st sender, loginOf st recipient, text, now, true⟩] } := by
  have hrow : ∀ r ∈ (withMessage st sender recipient now text).db.directMessages.rows,
      r ∈ st.db.directMessages.rows ∨ (r.sender = sender ∧ r.recipient = recipient) := by
    intro r hr
    rcases List.mem_append.mp hr with hold | hnew
    · exact Or.inl hold
    · rw [List.mem_singleton.mp hnew]
      exact Or.inr ⟨rfl, rfl⟩
  have hreads : env.clock st.clockReads ≤ env.clock (st.clockReads + 1) := hclock (Nat.le_succ _)
  have hlost : ∀ token g, m.grants token = some g →
      (∃ s ∈ st.db.sessions, s.token = token) ∨
        tokenTtl < env.clock (st.clockReads + 1) - g.since := by
    intro token g hg
    rcases h.lost token g hg with hheld | hold
    · exact Or.inl hheld
    · exact Or.inr (by omega)
  refine ⟨⟨h.accounts.rows, h.accounts.logins⟩, h.nulFree,
    ⟨h.wellFormed.logins, h.wellFormed.holders, h.wellFormed.friends⟩,
    ⟨h.sound.normalised, h.sound.befriended, fun r hr => ?_, fun r hr => ?_, h.sound.drawn⟩, h.held,
    hlost, h.friends, ?_⟩
  · rcases hrow r hr with hold | ⟨hs, hr'⟩
    · exact h.sound.corresponding r hold
    · rw [hs, hr']
      exact ⟨hsender, hrecipient⟩
  · rcases hrow r hr with hold | ⟨hs, hr'⟩
    · exact h.sound.friends r hold
    · rw [hs, hr']
      exact haccepted
  · have hnew : Keeps (withMessage st sender recipient now text)
        ⟨st.db.directMessages.seq + 1, sender, recipient, now, text, 0⟩
        ⟨loginOf st sender, loginOf st recipient, text, now, true⟩ := ⟨rfl, rfl, rfl, rfl, rfl⟩
    have hold : List.Forall₂ (Keeps (withMessage st sender recipient now text))
        st.db.directMessages.rows m.letters :=
      h.letters.imp fun r x hkeeps =>
        ⟨hkeeps.sender, hkeeps.recipient, hkeeps.text, hkeeps.time, hkeeps.waiting⟩
    exact List.rel_append hold (.cons hnew .nil)

/-- What waited for a user is marked. -/
theorem Represents.fetched (h : Represents env st m) {login : Bytes}
    (hlogin : m.Registered login) :
    Represents env (withDelivered st ((HandlePacket.backlog env login st).map StoredMessage.id))
      (m.fetched login) := by
  obtain ⟨id, hid, huser, hname⟩ := getIdByLogin_of_registered h hlogin
  have hsound : Sound env
      (withDelivered st ((HandlePacket.backlog env login st).map StoredMessage.id)) := by
    refine ⟨h.sound.normalised, h.sound.befriended, fun r hr => ?_, fun r hr => ?_, h.sound.drawn⟩
    · obtain ⟨old, hold, hsame, -⟩ := unmarked_row hr
      rw [hsame.sender, hsame.recipient]
      exact h.sound.corresponding old hold
    · obtain ⟨old, hold, hsame, -⟩ := unmarked_row hr
      rw [hsame.sender, hsame.recipient]
      exact h.sound.friends old hold
  refine ⟨⟨h.accounts.rows, h.accounts.logins⟩, h.nulFree,
    ⟨h.wellFormed.logins, h.wellFormed.holders, h.wellFormed.friends⟩, hsound, h.held, h.lost,
    h.friends, ?_⟩
  refine List.forall₂_map_left_iff.mpr (List.forall₂_map_right_iff.mpr ?_)
  refine List.forall₂_iff_get.mpr ⟨h.letters.length_eq, fun i hi hi' => ?_⟩
  have hkeeps := (List.forall₂_iff_get.mp h.letters).2 i hi hi'
  have hmem : st.db.directMessages.rows.get ⟨i, hi⟩ ∈ st.db.directMessages.rows := List.get_mem _ _
  generalize st.db.directMessages.rows.get ⟨i, hi⟩ = r at hkeeps hmem
  generalize m.letters.get ⟨i, hi'⟩ = x at hkeeps
  have hcorresponding := (h.sound.corresponding r hmem).2
  -- the row is in the backlog when it waits for the user
  have hlisted : ((HandlePacket.backlog env login st).map StoredMessage.id).contains r.id = true ↔
      r.recipient = id ∧ r.delivered = 0 := by
    rw [List.contains_iff_mem, MessageRows.mem_backlog_iff]
    unfold getIdByLogin at hid
    cases hu : st.db.findLogin login with
    | none =>
      rw [hu] at hid
      cases hid
    | some u =>
      rw [hu] at hid
      cases hid
      constructor
      · rintro ⟨v, hv, r', hr', hsame, hwaits⟩
        cases hu.symm.trans hv
        rw [st.db.directMessages.eq_of_key_eq hr' hmem hsame] at hwaits
        exact hwaits
      · exact fun hwaits => ⟨u, hu, r, hmem, rfl, hwaits⟩
  have hmine : r.recipient = id ↔ x.recipient = login := by
    rw [← hkeeps.recipient, ← hname]
    exact ((loginOf_injOn (distinctLogins h)).eq_iff hcorresponding huser).symm
  by_cases hrecipient : x.recipient = login
  · rw [if_pos hrecipient]
    have hdelivered := hkeeps.waiting
    cases hwaiting : x.waiting with
    | true =>
      rw [hwaiting, if_pos rfl] at hdelivered
      rw [if_pos (hlisted.mpr ⟨hmine.mpr hrecipient, hdelivered⟩)]
      exact ⟨hkeeps.sender, hkeeps.recipient, hkeeps.text, hkeeps.time, rfl⟩
    | false =>
      rw [hwaiting, if_neg Bool.false_ne_true] at hdelivered
      have hnot : ¬ (r.recipient = id ∧ r.delivered = 0) := by
        rw [hdelivered]
        exact fun hboth => absurd hboth.2 one_ne_zero
      rw [if_neg (mt hlisted.mp hnot)]
      exact ⟨hkeeps.sender, hkeeps.recipient, hkeeps.text, hkeeps.time, hdelivered⟩
  · have hnot : ¬ (r.recipient = id ∧ r.delivered = 0) :=
      fun hboth => hrecipient (hmine.mp hboth.1)
    rw [if_neg hrecipient, if_neg (mt hlisted.mp hnot)]
    exact ⟨hkeeps.sender, hkeeps.recipient, hkeeps.text, hkeeps.time, hkeeps.waiting⟩

end

end Messenger.Representations
