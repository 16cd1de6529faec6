import Messenger.ServerSteps

/-!
SessionManager's map against the logins that the sessions themselves hold. The two are
set by different operations: authentication sets both, LOGOUT and the destructor only one
each, and registration is by login while sessions of a login are many. Under the exact
conditions on LOGOUT, re-authentication and disconnects, every entry leads to a session
of its login, and every user who is logged in somewhere has an entry.
-/
namespace Messenger.OnlineEntries

open Outcomes ClientSession UserRepository HandlerActions HandlePacket ServerSteps

/-- Connections are numbered in the order of acceptance. -/
structure Numbered (w : World) : Prop where
  sessions : ∀ c, (login w c).isSome → c < w.nextConn
  entries : ∀ l c, w.onlineUsers.lookup l = some c → c < w.nextConn

theorem lookup_insert_cases {entries : AList (fun _ : Bytes => ConnId)} {l new : Bytes}
    {c d : ConnId} (h : (entries.insert new c).lookup l = some d) :
    (l = new ∧ d = c) ∨ (l ≠ new ∧ entries.lookup l = some d) := by
  by_cases hl : l = new
  · subst hl
    rw [AList.lookup_insert] at h
    exact Or.inl ⟨rfl, (Option.some.inj h).symm⟩
  · rw [AList.lookup_insert_ne hl] at h
    exact Or.inr ⟨hl, h⟩

theorem login_accept (w : World) (c : ConnId) :
    login w.accept c = if c = w.nextConn then some [] else login w c := by
  by_cases hc : c = w.nextConn
  · subst hc
    simp [login, World.accept]
  · simp [login, World.accept, hc]

theorem login_destroy (w : World) (c d : ConnId) :
    login (w.destroy c) d = if d = c then none else login w d := by
  by_cases hd : d = c
  · subst hd
    simp [login, World.destroy]
  · simp [login, World.destroy, hd]

theorem currentLogin_of_login {w : World} {c : ConnId} {l : Bytes} (h : login w c = some l) :
    w.currentLogin c = l := by
  unfold login at h
  obtain ⟨s, hs, rfl⟩ := Option.map_eq_some_iff.mp h
  simp [World.currentLogin, hs]

theorem login_eq_currentLogin {w : World} {c : ConnId} (h : (login w c).isSome) :
    login w c = some (w.currentLogin c) := by
  obtain ⟨l, hl⟩ := Option.isSome_iff_exists.mp h
  rw [hl, currentLogin_of_login hl]

/-- The destructor erases at most the entry of the login it holds. -/
theorem lookup_destroy {w : World} {c : ConnId} {l : Bytes} {d : ConnId}
    (h : (w.destroy c).onlineUsers.lookup l = some d) : w.onlineUsers.lookup l = some d := by
  simp only [World.destroy] at h
  split at h
  · exact h
  · by_cases hl : l = w.currentLogin c
    · subst hl
      rw [AList.lookup_erase] at h
      cases h
    · rw [AList.lookup_erase_ne hl] at h
      exact h

theorem lookup_destroy_of_ne {w : World} {c : ConnId} {l : Bytes} (hl : l ≠ w.currentLogin c) :
    (w.destroy c).onlineUsers.lookup l = w.onlineUsers.lookup l := by
  simp only [World.destroy]
  split
  · rfl
  · exact AList.lookup_erase_ne hl

theorem numbered_step (env : Env) {w : World} (e : Event) (h : Numbered w) :
    Numbered (w.step env e) := by
  have hstep := step_loginStep env w e
  generalize w.step env e = w' at hstep
  cases hstep with
  | same e w' hsame =>
    constructor
    · intro c hc
      rw [hsame.login] at hc
      exact hsame.nextConn ▸ h.sessions c hc
    · intro l c hc
      rw [hsame.onlineUsers] at hc
      exact hsame.nextConn ▸ h.entries l c hc
  | closed e w' hlogin hentries hnext =>
    constructor
    · intro c hc
      rw [hlogin] at hc
      cases hc
    · intro l c hc
      rcases hentries with hold | hempty
      · rw [hold] at hc
        exact hnext ▸ h.entries l c hc
      · rw [hempty, AList.lookup_empty] at hc
        cases hc
  | connected =>
    constructor
    · intro c hc
      rw [login_accept] at hc
      split at hc
      · subst c
        exact Nat.lt_succ_self _
      · exact Nat.lt_succ_of_lt (h.sessions c hc)
    · intro l c hc
      exact Nat.lt_succ_of_lt (h.entries l c hc)
  | destroyed c =>
    constructor
    · intro d hd
      rw [login_destroy] at hd
      split at hd
      · cases hd
      · exact h.sessions d hd
    · intro l d hd
      exact h.entries l d (lookup_destroy hd)
  | set c packetType body new w' hset hlive hlogin hentries hnext =>
    have hc := h.sessions c hlive
    constructor
    · intro d hd
      rw [hlogin] at hd
      split at hd
      · subst d
        exact hnext ▸ hc
      · exact hnext ▸ h.sessions d hd
    · intro l d hd
      rw [hentries] at hd
      split at hd
      · exact hnext ▸ h.entries l d hd
      · rcases lookup_insert_cases hd with ⟨-, rfl⟩ | ⟨-, hold⟩
        · exact hnext ▸ hc
        · exact hnext ▸ h.entries l d hold

theorem numbered_initial (env : Env) (files : ℕ → Option Bytes) :
    Numbered (World.initial env files) where
  sessions c hc := by cases hc
  entries l c hc := by
    have hempty : (World.initial env files).onlineUsers = ∅ := rfl
    rw [hempty, AList.lookup_empty] at hc
    cases hc

def AgreesWith (w : World) : Prop :=
  ∀ l c, w.getSession l = some c → w.currentLogin c = l

/-- The login through whose entry a packet was sent. -/
def entryLogin : Cause → Option Bytes
  | .broadcast l | .notice l | .push l _ => some l
  | _ => none

def SentToOwner (w : World) : Prop :=
  ∀ s ∈ w.sent, ∀ l, entryLogin s.cause = some l → s.asLogin = l

/-- A packet gives a live session a login only when every entry that leads to the session
is of that login. -/
def KeepsEntries (env : Env) (w : World) : Event → Prop
  | .packet c packetType body => (login w c).isSome →
      ∀ new, setsLogin env w packetType body = some new →
        ∀ l, w.onlineUsers.lookup l = some c → l = new
  | _ => True

theorem getSession_eq_some {w : World} {l : Bytes} {c : ConnId} :
    w.getSession l = some c ↔ w.onlineUsers.lookup l = some c ∧ (login w c).isSome := by
  unfold World.getSession World.lock
  cases h : w.onlineUsers.lookup l with
  | none => simp
  | some d =>
    rw [Option.bind_some]
    split
    · rename_i hd
      rw [isSome_login]
      constructor
      · intro hcd
        obtain rfl := Option.some.inj hcd
        exact ⟨rfl, hd⟩
      · rintro ⟨hcd, -⟩
        exact hcd
    · rename_i hd
      constructor
      · intro hcd
        cases hcd
      · rintro ⟨hcd, hlive⟩
        obtain rfl := Option.some.inj hcd
        rw [isSome_login] at hlive
        exact absurd hlive hd

/-- The same in terms of logins, which is what a step is said to change. -/
theorem agreesWith_iff {w : World} :
    AgreesWith w ↔ ∀ l c l', w.onlineUsers.lookup l = some c → login w c = some l' → l' = l := by
  constructor
  · intro h l c l' hentry hlogin
    have hget : w.getSession l = some c := getSession_eq_some.mpr ⟨hentry, by simp [hlogin]⟩
    rw [← h l c hget, currentLogin_of_login hlogin]
  · intro h l c hget
    obtain ⟨hentry, hlive⟩ := getSession_eq_some.mp hget
    exact h l c _ hentry (login_eq_currentLogin hlive)

theorem agreesWith_step (env : Env) {w : World} (e : Event) (hnumbered : Numbered w)
    (h : AgreesWith w) (hkeeps : KeepsEntries env w e) : AgreesWith (w.step env e) := by
  rw [agreesWith_iff] at h ⊢
  have hstep := step_loginStep env w e
  generalize w.step env e = w' at hstep
  intro l c l' hentry hlogin'
  cases hstep with
  | same e w' hsame =>
    rw [hsame.onlineUsers] at hentry
    rw [hsame.login] at hlogin'
    exact h l c l' hentry hlogin'
  | closed e w' hnone _ _ =>
    rw [hnone] at hlogin'
    cases hlogin'
  | connected =>
    -- the new connection is later than every entry
    have hlt := hnumbered.entries l c hentry
    rw [login_accept, if_neg hlt.ne] at hlogin'
    exact h l c l' hentry hlogin'
  | destroyed d =>
    rw [login_destroy] at hlogin'
    split at hlogin'
    · cases hlogin'
    · exact h l c l' (lookup_destroy hentry) hlogin'
  | set d packetType body new w' hset hlive hlogin hentries _ =>
    rw [hlogin] at hlogin'
    rw [hentries] at hentry
    split at hlogin'
    · subst d
      obtain rfl := Option.some.inj hlogin'
      split at hentry
      · exact (hkeeps hlive new hset l hentry).symm
      · rcases lookup_insert_cases hentry with ⟨rfl, -⟩ | ⟨-, hold⟩
        · rfl
        · exact (hkeeps hlive new hset l hold).symm
    · rename_i hne
      split at hentry
      · exact h l c l' hentry hlogin'
      · rcases lookup_insert_cases hentry with ⟨-, hsame⟩ | ⟨-, hold⟩
        · exact absurd hsame hne
        · exact h l c l' hold hlogin'

theorem AgreesWith.sameLogins {w w' : World} (h : AgreesWith w) (hsame : SameLogins w w') :
    AgreesWith w' := by
  rw [agreesWith_iff] at h ⊢
  intro l c l' hentry hlogin
  rw [hsame.onlineUsers] at hentry
  rw [hsame.login] at hlogin
  exact h l c l' hentry hlogin

theorem SentToOwner.append {w w' : World} {new : List Sent} (h : SentToOwner w)
    (hsent : w'.sent = w.sent ++ new)
    (hnew : ∀ s ∈ new, ∀ l, entryLogin s.cause = some l → s.asLogin = l) : SentToOwner w' := by
  intro s hs l hl
  rw [hsent] at hs
  rcases List.mem_append.mp hs with hold | hmem
  · exact h s hold l hl
  · exact hnew s hmem l hl

theorem Action.sentToOwner {env : Env} {w w' : World} (h : Action env w w')
    (hagrees : AgreesWith w) (hsent : SentToOwner w) : SentToOwner w' := by
  cases h with
  | account h =>
    cases h with
    | store _ _ => exact hsent
    | token _ _ => exact hsent
  | draw _ => exact hsent
  | write _ _ _ => exact hsent
  | relay login conn packetType body cause hentry hcause _ =>
    refine hsent.append rfl ?_
    intro s hs l hl
    rw [List.mem_singleton] at hs
    subst s
    have hl' : l = login := by
      rcases hcause with rfl | rfl <;> exact (Option.some.inj hl).symm
    rw [hl']
    exact hagrees login conn hentry
  | direct sender recipient now message pushed _ hpush =>
    refine hsent.append rfl ?_
    intro s hs l hl
    rcases hpush with rfl | ⟨login, conn, msg, hentry, -, rfl⟩
    · cases hs
    · rw [List.mem_singleton] at hs
      subst s
      rw [← Option.some.inj hl]
      exact hagrees login conn hentry

theorem dispatch_sentToOwner (env : Env) (c : ConnId) (packetType : PacketType) (body : Bytes)
    {w : World} (hagrees : AgreesWith w) (hsent : SentToOwner w) :
    SentToOwner (final ((dispatch env c packetType body).run w)) := by
  by_cases hlogout : packetType = .logout
  · subst hlogout
    rcases dispatch_logout env c body w with ⟨e, hrun⟩ | ⟨store, -, hrun⟩
    · rw [hrun]
      exact hsent
    · rw [hrun]
      exact hsent
  · have hactions : ∀ s t, Action env s t →
        AgreesWith s ∧ SentToOwner s → AgreesWith t ∧ SentToOwner t :=
      fun s t hst h => ⟨h.1.sameLogins hst.sameLogins, Action.sentToOwner hst h.1 h.2⟩
    exact ((dispatch_moves env c body w hlogout).preserves hactions ⟨hagrees, hsent⟩).2

theorem SentToOwner.withAnswer {w : World} (h : SentToOwner w) (c : ConnId)
    (packetType : PacketType) (r : Option Response) :
    SentToOwner (withAnswer w c packetType r) := by
  cases r with
  | none => exact h
  | some r =>
    refine h.append rfl ?_
    intro s hs l hl
    rw [List.mem_singleton] at hs
    subst s
    cases hl

theorem SentToOwner.withHanded {w : World} (h : SentToOwner w) (c : ConnId)
    (messages : List StoredMessage) : SentToOwner (withHanded w c messages) := by
  refine h.append rfl ?_
  intro s hs l hl
  obtain ⟨el, -, rfl⟩ := List.mem_map.mp hs
  cases hl

theorem sentToOwner_step (env : Env) {w : World} (e : Event) (hagrees : AgreesWith w)
    (hsent : SentToOwner w) : SentToOwner (w.step env e) := by
  have hstep := step_stepping env w e
  generalize w.step env e = w' at hstep
  cases hstep with
  | idle e => exact hsent
  | restart => exact hsent
  | connect _ => exact hsent
  | disconnect c _ => exact hsent
  | cleanTokens _ => exact hsent
  | packet c packetType body _ hlive =>
    have hhanded : ∀ (w₁ : World) (new : Bytes) (messages : List StoredMessage),
        SentToOwner w₁ → SentToOwner (withHanded (withLogin w₁ c new) c messages) := by
      intro w₁ new messages h
      have hset : SentToOwner (withLogin w₁ c new) := h
      exact hset.withHanded c messages
    exact receive_preserves env hlive hhanded (fun w₁ new h => hhanded w₁ new _ h)
      (fun _ r h => h.withAnswer c packetType r) (fun _ h => h)
      (dispatch_sentToOwner env c packetType body hagrees hsent)

/-- Every entry leads to its login's session, no session has two, and what was sent
through an entry went to a session of that login. -/
structure EntriesOwned (w : World) : Prop where
  owner : AgreesWith w
  unique : ∀ l l' c, w.getSession l = some c → w.getSession l' = some c → l = l'
  sent : SentToOwner w

/-- In every run in which LOGOUT and re-authentication only happen where no entry of
another login leads to the session. -/
theorem entriesOwned_run (env : Env) (files : ℕ → Option Bytes) (events : List Event)
    (hkeeps : LabelledRuns.Along (World.step env) (KeepsEntries env)
      (World.initial env files) events) :
    EntriesOwned (LabelledRuns.run (World.step env) (World.initial env files) events) := by
  have hstep : ∀ w e, Numbered w ∧ AgreesWith w ∧ SentToOwner w → KeepsEntries env w e →
      Numbered (w.step env e) ∧ AgreesWith (w.step env e) ∧ SentToOwner (w.step env e) :=
    fun w e h hk => ⟨numbered_step env e h.1, agreesWith_step env e h.1 h.2.1 hk,
      sentToOwner_step env e h.2.1 h.2.2⟩
  have hinit : AgreesWith (World.initial env files) := by
    rw [agreesWith_iff]
    intro l c l' _ hlogin
    cases hlogin
  obtain ⟨-, hagrees, hsent⟩ := LabelledRuns.invariant_along hstep
    ⟨numbered_initial env files, hinit, fun s hs => by cases hs⟩ hkeeps
  refine ⟨hagrees, ?_, hsent⟩
  intro l l' c hl hl'
  rw [← hagrees l c hl, hagrees l' c hl']

/-- The map has finitely many entries, so the condition can be tested. -/
instance decidableKeepsEntries (env : Env) (w : World) : ∀ e, Decidable (KeepsEntries env w e)
  | .packet c packetType body =>
    decidable_of_iff ((login w c).isSome → ∀ new ∈ setsLogin env w packetType body,
      ∀ entry ∈ w.onlineUsers.entries, entry.2 = c → entry.1 = new) <| by
        refine imp_congr_right fun _ => forall₂_congr fun new _ => ?_
        constructor
        · exact fun h l hentry => h ⟨l, c⟩ (AList.mem_lookup_iff.mp hentry) rfl
        · rintro h ⟨l, d⟩ hmem rfl
          exact h l (AList.mem_lookup_iff.mpr hmem)
  | .connect | .disconnect _ | .cleanTokens | .restart => inferInstanceAs (Decidable True)

def logoutEvent (c : ConnId) : Event := .packet c .logout (serialize (LogoutRequest.mk []))

/-- "c" writes to "a", who logs in again where it was; "c" moves to connection 2, and connection
1 is logged out and dies. -/
def movedAway : List Event :=
  twoFriends ++ [messageEvent, loginEvent 0 [97], .connect, loginEvent 2 [99], logoutEvent 1,
    .disconnect 1]

theorem entriesOwned_run_moved :
    ∃ w, LabelledRuns.run (World.step Env.plain) (World.initial Env.plain fun _ => none)
        movedAway = w ∧ w.getSession [97] = some 0 ∧ w.getSession [99] = some 2 ∧
      (∃ s ∈ w.sent, s.conn = 0 ∧ s.cause = .push [97] 1) ∧ EntriesOwned w :=
  ⟨_, rfl, by decide +kernel, by decide +kernel, by decide +kernel,
    entriesOwned_run Env.plain (fun _ => none) movedAway (by decide +kernel)⟩

/-- Not so in every run: after "a" has logged in again as "b" on the same
connection, a private message for "a" goes to the session of "b". -/
theorem message_for_a_reaches_b :
    ∃ w, World.Reachable Env.plain w ∧ w.getSession [97] = some 0 ∧ w.currentLogin 0 = [98] ∧
      (∃ s ∈ w.sent, s.conn = 0 ∧ s.packetType = .directMessage ∧ s.cause = .push [97] 1 ∧
        s.asLogin = [98]) ∧ ¬ EntriesOwned w := by
  refine ⟨LabelledRuns.run (World.step Env.plain) (World.initial Env.plain fun _ => none)
    (twoFriends ++ [registerEvent 0 [98], messageEvent]), ⟨_, _, rfl⟩, by decide, by decide,
    by decide, ?_⟩
  intro h
  exact absurd (h.owner [97] 0 (by decide)) (by decide)

/-- Whoever is logged in somewhere has an entry that leads to one of its sessions. -/
def AllReachable (w : World) : Prop :=
  ∀ c l, login w c = some l → l ≠ [] → ∃ d, w.getSession l = some d ∧ w.currentLogin d = l

/-- No other live session has this login. -/
def Alone (w : World) (c : ConnId) (l : Bytes) : Prop := ∀ d, d ≠ c → login w d ≠ some l

/-- A session dies only as the last one of its login; the session that the entry of its
login leads to takes another login, or none, only as the last one. -/
def SparesOthers (env : Env) (w : World) : Event → Prop
  | .packet c packetType body => ∀ new, setsLogin env w packetType body = some new →
      ∀ l, l ≠ [] → l ≠ new → w.currentLogin c = l → w.onlineUsers.lookup l = some c →
        Alone w c l
  | .disconnect c => ∀ l, l ≠ [] → w.currentLogin c = l → Alone w c l
  | _ => True

/-- In terms of entries and logins. -/
theorem allReachable_iff {w : World} :
    AllReachable w ↔ ∀ c l, login w c = some l → l ≠ [] →
      ∃ d, w.onlineUsers.lookup l = some d ∧ login w d = some l := by
  constructor
  · intro h c l hlogin hne
    obtain ⟨d, hget, hcurrent⟩ := h c l hlogin hne
    obtain ⟨hentry, hlive⟩ := getSession_eq_some.mp hget
    exact ⟨d, hentry, by rw [login_eq_currentLogin hlive, hcurrent]⟩
  · intro h c l hlogin hne
    obtain ⟨d, hentry, hd⟩ := h c l hlogin hne
    exact ⟨d, getSession_eq_some.mpr ⟨hentry, by simp [hd]⟩, currentLogin_of_login hd⟩

theorem setsLogin_logout {env : Env} {w : World} {body new : Bytes}
    (h : setsLogin env w .logout body = some new) : new = [] := by
  simp only [setsLogin] at h
  split at h
  · exact (Option.some.inj h).symm
  · cases h

theorem allReachable_step (env : Env) {w : World} (e : Event) (hnumbered : Numbered w)
    (h : AllReachable w) (hspares : SparesOthers env w e) : AllReachable (w.step env e) := by
  rw [allReachable_iff] at h ⊢
  have hstep := step_loginStep env w e
  generalize w.step env e = w' at hstep
  intro c l hlogin' hne
  cases hstep with
  | same e w' hsame =>
    rw [hsame.login] at hlogin'
    obtain ⟨d, hentry, hd⟩ := h c l hlogin' hne
    exact ⟨d, by rw [hsame.onlineUsers, hentry], by rw [hsame.login, hd]⟩
  | closed e w' hnone _ _ =>
    rw [hnone] at hlogin'
    cases hlogin'
  | connected =>
    rw [login_accept] at hlogin'
    split at hlogin'
    · exact absurd (Option.some.inj hlogin').symm hne
    · obtain ⟨d, hentry, hd⟩ := h c l hlogin' hne
      have hlt := hnumbered.entries l d hentry
      exact ⟨d, hentry, by rw [login_accept, if_neg hlt.ne, hd]⟩
  | destroyed x =>
    rw [login_destroy] at hlogin'
    split at hlogin'
    · cases hlogin'
    rename_i hcx
    have hother : l ≠ w.currentLogin x := by
      rintro rfl
      exact hspares _ hne rfl c hcx hlogin'
    obtain ⟨d, hentry, hd⟩ := h c l hlogin' hne
    have hdx : d ≠ x := by
      rintro rfl
      exact hother (currentLogin_of_login hd).symm
    exact ⟨d, by rw [lookup_destroy_of_ne hother, hentry], by rw [login_destroy, if_neg hdx, hd]⟩
  | set x packetType body new w' hset hlive hlogin hentries _ =>
    rw [hlogin] at hlogin'
    by_cases hnew : l = new
    · subst hnew
      have htype : packetType ≠ .logout := by
        rintro rfl
        exact hne (setsLogin_logout hset)
      refine ⟨x, ?_, by rw [hlogin, if_pos rfl]⟩
      rw [hentries, if_neg htype, AList.lookup_insert]
    · have hcx : c ≠ x := by
        rintro rfl
        rw [if_pos rfl] at hlogin'
        exact hnew (Option.some.inj hlogin').symm
      rw [if_neg hcx] at hlogin'
      obtain ⟨d, hentry, hd⟩ := h c l hlogin' hne
      have hdx : d ≠ x := by
        rintro rfl
        exact hspares new hset l hne hnew (currentLogin_of_login hd) hentry c hcx hlogin'
      refine ⟨d, ?_, by rw [hlogin, if_neg hdx, hd]⟩
      rw [hentries]
      split
      · exact hentry
      · rw [AList.lookup_insert_ne hnew, hentry]

/-- In every run in which no session that others of its login depend on dies or changes
its login. -/
theorem allReachable_run (env : Env) (files : ℕ → Option Bytes) (events : List Event)
    (hspares : LabelledRuns.Along (World.step env) (SparesOthers env)
      (World.initial env files) events) :
    AllReachable (LabelledRuns.run (World.step env) (World.initial env files) events) := by
  have hstep : ∀ w e, Numbered w ∧ AllReachable w → SparesOthers env w e →
      Numbered (w.step env e) ∧ AllReachable (w.step env e) :=
    fun w e h hs => ⟨numbered_step env e h.1, allReachable_step env e h.1 h.2 hs⟩
  exact (LabelledRuns.invariant_along hstep
    ⟨numbered_initial env files, fun c l hlogin => by cases hlogin⟩ hspares).2

/-- Sessions are numbered, so only those below the next number have to be looked at. -/
theorem alone_of_numbered {w : World} (h : Numbered w) {c : ConnId} {l : Bytes}
    (hothers : ∀ d < w.nextConn, d ≠ c → login w d ≠ some l) : Alone w c l := by
  intro d hne hlogin
  exact hothers d (h.sessions d (by rw [hlogin]; rfl)) hne hlogin

/-- "a" is logged in on connections 0 and 1 and "c" on connection 2; the map leads to 1. -/
def twoDevices : List Event :=
  [.connect, .connect, .connect, registerEvent 0 [97], loginEvent 1 [97], registerEvent 2 [99]]

/-- Connection 0 logs out and dies, and then "c" goes away. -/
theorem allReachable_run_twoDevices :
    ∃ w, LabelledRuns.run (World.step Env.plain) (World.initial Env.plain fun _ => none)
        (twoDevices ++ [logoutEvent 0, .disconnect 0, .disconnect 2]) = w ∧
      w.currentLogin 1 = [97] ∧ w.getSession [97] = some 1 ∧ AllReachable w := by
  refine ⟨_, rfl, by decide, by decide,
    allReachable_run Env.plain (fun _ => none) _
      ⟨trivial, trivial, trivial, ?_, ?_, ?_, ?_, ?_, ?_, trivial⟩⟩
  · intro new _ l hne _ hcurrent _
    exact absurd hcurrent.symm hne
  · intro new _ l hne _ hcurrent _
    exact absurd hcurrent.symm hne
  · intro new _ l hne _ hcurrent _
    exact absurd hcurrent.symm hne
  -- the entry of "a" does not lead to the session that logs out
  · rintro new _ l _ _ rfl hentry
    exact absurd hentry (by decide)
  · intro l hne hcurrent
    exact absurd hcurrent.symm hne
  -- nobody else is logged in as "c"
  · rintro l _ rfl
    refine alone_of_numbered (LabelledRuns.invariant (fun _ e h => numbered_step Env.plain e h)
      (numbered_initial Env.plain fun _ => none)
      (twoDevices ++ [logoutEvent 0, .disconnect 0])) ?_
    decide

/-- A user logs in on a second connection, and the first one closes. -/
def secondDevice : World :=
  LabelledRuns.run (World.step Env.plain) (World.initial Env.plain fun _ => none)
    [.connect, .connect, registerEvent 0 [97], loginEvent 1 [97], .disconnect 0]

/-- Not so in every run: the second connection is no longer reached. -/
theorem second_connection_unreachable :
    World.Reachable Env.plain secondDevice ∧ secondDevice.currentLogin 1 = [97] ∧
      (secondDevice.sessions 1).isSome ∧ secondDevice.getSession [97] = none ∧
      ¬ AllReachable secondDevice := by
  have hnone : secondDevice.getSession [97] = none := by decide
  refine ⟨⟨_, _, rfl⟩, by decide, by decide, hnone, ?_⟩
  intro h
  obtain ⟨d, hget, -⟩ := h 1 [97] (by decide) (by decide)
  rw [hnone] at hget
  cases hget

end Messenger.OnlineEntries
