import Messenger.ServerSteps

/-!
Whom a token acts for. REGISTER and LOGIN tie a fresh token to the id of a users row,
and no later step unties it; but the login comes back as a C string. A token therefore
acts for its own user exactly when the login holds no NUL; otherwise it acts for the
user whose login is the part before the NUL, if there is one.
-/
namespace Messenger.TokenIdentity

open Outcomes ClientSession UserRepository HandlerActions HandlePacket ServerSteps

/-- `token` has been drawn and given out for the user with this login and id. -/
structure Issued (env : Env) (token login : Bytes) (id : ℤ) (st : Store) : Prop where
  user : ∃ u, st.db.findLogin login = some u ∧ u.id = id
  drawn : ∃ n, n < st.uuidsDrawn ∧ token = env.uuid n
  rows : ∀ s ∈ st.db.sessions, s.token = token → s.id = id

variable {env : Env} {token login : Bytes} {id : ℤ} {st st' : Store}

/-- An identifier drawn later is another one, so no new row bears the token. -/
theorem Issued.grows (h : Issued env token login id st) (hgrows : Grows env st st') :
    Issued env token login id st' where
  user := by
    obtain ⟨u, hu, hid⟩ := h.user
    exact ⟨u, hgrows.findLogin hu, hid⟩
  drawn := by
    obtain ⟨n, hn, htoken⟩ := h.drawn
    exact ⟨n, hn.trans_le hgrows.uuids, htoken⟩
  rows := by
    intro s hs htoken
    rcases hgrows.tokens s hs with hold | ⟨m, hm, -, hfresh⟩
    · exact h.rows s hold htoken
    · obtain ⟨n, hn, hdrawn⟩ := h.drawn
      have hsame : m = n := env.uuid_injective (hfresh.symm.trans (htoken.trans hdrawn))
      omega

theorem Issued.run (w : World) (h : Issued env token login id w.store) (events : List Event) :
    Issued env token login id (LabelledRuns.run (World.step env) w events).store := by
  have hstep : ∀ (w : World) (e : Event), Issued env token login id w.store →
      Issued env token login id (w.step env e).store :=
    fun w e hw => hw.grows (step_grows env w e)
  exact LabelledRuns.invariant hstep h events

/-- What the lookup of an issued token can return: the login as a C string. -/
theorem Issued.lookup {r : Bytes} (h : Issued env token login id st)
    (hr : tokenLogin env token st = some r) : r = getText login := by
  obtain ⟨u, hu, hid⟩ := h.user
  unfold tokenLogin at hr
  cases hcheck : st.db.findToken token with
  | none =>
    rw [hcheck] at hr
    cases hr
  | some check =>
    have hrow : check ∈ st.db.sessions := List.mem_of_find?_eq_some hcheck
    have htoken : check.token = token := by simpa using List.find?_some hcheck
    have hcheckId : check.id = u.id := (h.rows check hrow htoken).trans hid.symm
    rw [hcheck] at hr
    simp only [hcheckId, Database.findUser_of_findLogin hu, Option.map_some] at hr
    split at hr
    · cases hr
    · rw [← Option.some.inj hr, Database.login_of_findLogin hu]

/-- A packet is answered with `r`, behind whatever else it caused to be sent. -/
def AnsweredWith (env : Env) (w : World) (c : ConnId) (packetType : PacketType) (body : Bytes)
    (r : Response) : Prop :=
  ∃ w' before, (handlePacket env c packetType body).run w = .ok () w' ∧
    w'.sent = w.sent ++ before ++
      [⟨c, .result, r.serialize, .result packetType r, w'.currentLogin c⟩]

/-- The event is a REGISTER or LOGIN that is answered OK with this token. -/
structure Issues (env : Env) (w : World) (e : Event) (login token : Bytes) : Prop where
  running : w.status = .running
  packet : ∃ c packetType body, e = .packet c packetType body ∧ (w.sessions c).isSome ∧
    (packetType = .register ∨ packetType = .login) ∧
    (∃ req, deserialize AuthRequest body = .ok req ∧ req.login = login) ∧
    AnsweredWith env w c packetType body (.auth ⟨token, Error.Base.ok⟩)

theorem issued_withSession {u : UserRow} (hu : st.db.findLogin login = some u)
    (htoken : st.db.findToken (env.uuid st.uuidsDrawn) = none) (now : ℤ) :
    Issued env (env.uuid st.uuidsDrawn) login u.id
      (withSession st (env.uuid st.uuidsDrawn) u.id now) where
  user := ⟨u, hu, rfl⟩
  drawn := ⟨st.uuidsDrawn, Nat.lt_succ_self _, rfl⟩
  rows := by
    intro s hs hsame
    rcases List.mem_append.mp hs with hold | hnew
    · have hno := List.find?_eq_none.mp htoken s hold
      simp [hsame] at hno
    · rw [List.mem_singleton.mp hnew]

/-- The switch ties the token that it answers OK with. -/
theorem issued_of_dispatch {self : ConnId} {packetType : PacketType} {body : Bytes}
    (htype : packetType = .register ∨ packetType = .login) {req : AuthRequest}
    (hreq : deserialize AuthRequest body = .ok req) {w w₁ : World} {l : Option Bytes}
    (h : (dispatch env self packetType body).run w =
      .ok (some (.auth ⟨token, Error.Base.ok⟩), l) w₁) :
    ∃ id, Issued env token req.login id w₁.store := by
  rcases htype with rfl | rfl
  · obtain ⟨response, hrun, hresponse⟩ := answerAuth_ok h
    rcases handleRegister_cases env self w hreq with
      ⟨-, hcase⟩ | ⟨-, ⟨salt, hash, store, u, -, hu, hnone, hcase⟩ | ⟨e, w₂, hcase⟩⟩
    · rw [hcase] at hrun
      cases hrun
      simp only [Option.some.injEq, Response.auth.injEq, AuthResponse.mk.injEq] at hresponse
      exact absurd hresponse.2 (by decide)
    · rw [hcase] at hrun
      cases hrun
      cases hresponse
      exact ⟨u.id, issued_withSession hu hnone _⟩
    · rw [hcase] at hrun
      cases hrun
  · obtain ⟨response, hrun, hresponse⟩ := answerAuth_ok h
    rcases handleLogin_cases env self w hreq with
      ⟨-, hcase⟩ | ⟨-, ⟨u, hu, hnone, hcase⟩ | ⟨e, w₂, hcase⟩⟩
    · rw [hcase] at hrun
      cases hrun
      simp only [Option.some.injEq, Response.auth.injEq, AuthResponse.mk.injEq] at hresponse
      exact absurd hresponse.2 (by decide)
    · rw [hcase] at hrun
      cases hrun
      cases hresponse
      exact ⟨u.id, issued_withSession hu hnone _⟩
    · rw [hcase] at hrun
      cases hrun

theorem last_of_append_singleton {α : Type} {xs ys : List α} {x y : α}
    (h : xs ++ [x] = ys ++ [y]) : x = y := by
  have hlast := (List.append_inj' h rfl).2
  exact List.singleton_inj.mp hlast

theorem unseen_dispatch {self : ConnId} {packetType : PacketType} {body : Bytes}
    (htype : Authenticating packetType) {w w₁ : World} {a : Option Response × Option Bytes}
    (h : (dispatch env self packetType body).run w = .ok a w₁) : Unseen env w w₁ := by
  have hunseen := unseen_of_moves (dispatch_accounts env self body w htype)
  rw [h] at hunseen
  exact hunseen

/-- A request that has to be answered is answered with what the switch made. -/
theorem response_of_sent {self : ConnId} {packetType : PacketType} {body : Bytes}
    {w w₁ : World} {r : Response} {r' : Option Response} {l : Option Bytes}
    (h : (dispatch env self packetType body).run w = .ok (r', l) w₁)
    (hawaits : awaitsResult packetType = true) {w₂ : World} {front : List Sent}
    (hsent : (withAnswer w₂ self packetType r').sent =
      front ++ [⟨self, .result, r.serialize, .result packetType r,
        (withAnswer w₂ self packetType r').currentLogin self⟩]) : r' = some r := by
  have hfits := dispatch_fitsRequest env self body packetType _ _ _ h
  cases r' with
  | none =>
    have hnone : awaitsResult packetType = false := hfits
    rw [hawaits] at hnone
    cases hnone
  | some r' =>
    have hlast := congrArg Sent.cause (last_of_append_singleton hsent)
    injection hlast with _ hr
    rw [hr]

/-- An answered REGISTER or LOGIN ties its token in the state it leaves. -/
theorem Issues.issued {w : World} {e : Event} (h : Issues env w e login token) :
    ∃ id, Issued env token login id (w.step env e).store := by
  obtain ⟨c, packetType, body, rfl, hlive, htype, ⟨req, hreq, rfl⟩, w', before, hrun, hsent⟩ :=
    h.packet
  have hstep : w.step env (.packet c packetType body) = w' :=
    step_of_handled h.running hlive hrun
  have hawaits : awaitsResult packetType = true := by
    rcases htype with rfl | rfl <;> rfl
  have hcases := handlePacket_handling env packetType body hlive
  rw [hrun] at hcases
  rw [hstep]
  cases hcases with
  | answered r w₁ hdispatch =>
    obtain rfl := response_of_sent hdispatch hawaits hsent
    obtain ⟨id, hissued⟩ := issued_of_dispatch htype hreq hdispatch
    exact ⟨id, hissued⟩
  | welcomed r l w₁ hdispatch _ _ =>
    obtain rfl := response_of_sent hdispatch hawaits hsent
    obtain ⟨id, hissued⟩ := issued_of_dispatch htype hreq hdispatch
    have hmark : Grows env w₁.store (welcomed env w₁ c l).store :=
      .of_subset rfl (fun _ hs => hs) le_rfl
    exact ⟨id, hissued.grows hmark⟩

/-- A lookup that returned `r` and left `st'` stands for the user with this login: in
the id that handlers go on with and in the login that TOKEN_VERIFY sets. -/
structure ActsFor (env : Env) (w : World) (token r : Bytes) (st' : Store) (login : Bytes) :
    Prop where
  returned : r = login
  resolved : ∃ u, w.store.db.findLogin login = some u ∧ getIdByLogin r st' = .ok u.id
  verified : ∀ c body, (w.sessions c).isSome →
    deserialize TokenVerifyRequest body = .ok ⟨token⟩ →
    (final ((handlePacket env c .tokenVerify body).run w)).currentLogin c = login

theorem currentLogin_withAnswer (w : World) (self c : ConnId) (packetType : PacketType)
    (r : Option Response) : (withAnswer w self packetType r).currentLogin c = w.currentLogin c := by
  cases r <;> rfl

/-- TOKEN_VERIFY sets the login that the lookup returns, whether or not the backlog
can be delivered afterwards. -/
theorem verify_sets_login {w : World} {r : Bytes} (hr : tokenLogin env token w.store = some r)
    {c : ConnId} {body : Bytes} (hlive : (w.sessions c).isSome)
    (hreq : deserialize TokenVerifyRequest body = .ok ⟨token⟩) :
    (final ((handlePacket env c .tokenVerify body).run w)).currentLogin c = r := by
  have hdispatch : ∃ response w₁,
      (dispatch env c .tokenVerify body).run w = .ok (some response, some r) w₁ := by
    obtain ⟨verdict, store, hlook, ⟨l, rfl, hrun⟩ | ⟨e, rfl, -⟩⟩ :=
      handleTokenVerify_cases env c w hreq
    · have hl : l = r := Option.some.inj (hlook.login.trans hr)
      subst hl
      exact ⟨_, _, answerAuth_run hrun⟩
    · have hnone := hlook.login.trans hr
      cases hnone
  obtain ⟨response, w₁, hdispatch⟩ := hdispatch
  have hlive₁ : (w₁.sessions c).isSome :=
    (unseen_dispatch (Or.inr (Or.inr rfl)) hdispatch).logins.live hlive
  have hcurrent := currentLogin_withLogin hlive₁ r
  have hcases := handlePacket_handling env .tokenVerify body hlive
  generalize (handlePacket env c .tokenVerify body).run w = result at hcases
  cases hcases with
  | thrown e w₂ hrun =>
    rw [hdispatch] at hrun
    cases hrun
  | answered r' w₂ hrun =>
    rw [hdispatch] at hrun
    cases hrun
  | undelivered r' l w₂ e handed hrun _ =>
    rw [hdispatch] at hrun
    cases hrun
    exact hcurrent
  | welcomed r' l w₂ hrun _ _ =>
    rw [hdispatch] at hrun
    cases hrun
    rw [final_ok, currentLogin_withAnswer]
    exact hcurrent

/-- Of every login that was answered OK with a token, and at every later point of the run
at which the token is good: it acts for its user exactly when the login holds no NUL. -/
theorem token_acts_for_login_iff (env : Env) (w : World) (e : Event) (login token : Bytes)
    (hissues : Issues env w e login token) (events : List Event) (later : World)
    (hlater : later = LabelledRuns.run (World.step env) (w.step env e) events)
    (r : Bytes) (st' : Store)
    (hget : (getLoginByToken env token).run later.store = .ok (.ok r) st') :
    ActsFor env later token r st' login ↔ 0 ∉ login := by
  obtain ⟨id, hissued⟩ := hissues.issued
  have hlate : Issued env token login id later.store := hlater ▸ hissued.run _ events
  obtain ⟨verdict, st'', hrun, hlook⟩ := getLoginByToken_run env token later.store
  rw [hget] at hrun
  cases hrun
  have htoken : tokenLogin env token later.store = some r := hlook.login.symm
  have hr : r = getText login := hlate.lookup htoken
  rw [← getText_eq_self_iff, ← hr]
  constructor
  · exact fun h => h.returned
  · intro hsame
    obtain ⟨u, hu, -⟩ := hlate.user
    refine ⟨hsame, ⟨u, hu, ?_⟩, ?_⟩
    · have hfind : st'.db.findLogin r = some u := by
        rw [Database.findLogin, hlook.users, hsame]
        exact hu
      rw [getIdByLogin, hfind]
    · intro c body hlive hreq
      rw [verify_sets_login htoken hlive hreq, hsame]

/-- The server with two connections. -/
def twoConnections : World :=
  ((World.initial Env.plain fun _ => none).accept).accept

theorem issues_ordinary :
    Issues Env.plain twoConnections (registerEvent 0 [97]) [97] [97, 97] where
  running := rfl
  packet := by
    refine ⟨0, .register, _, rfl, rfl, Or.inl rfl, ⟨⟨[97], [112]⟩, rfl, rfl⟩, _, [], rfl, ?_⟩
    decide

/-- "c" registers, asks "a" for its friendship, logs out and is gone. -/
def others : List Event :=
  [registerEvent 1 [99],
    .packet 1 .friendRequest (serialize (FriendRequest.mk [97, 97, 97, 97] [97])),
    .packet 1 .logout (serialize (LogoutRequest.mk [97, 97, 97, 97])), .disconnect 1]

/-- Through all that the token of "a" stays its own. -/
theorem token_acts_for_login_ordinary :
    ∃ st', ActsFor Env.plain
      (LabelledRuns.run (World.step Env.plain)
        (twoConnections.step Env.plain (registerEvent 0 [97])) others) [97, 97] [97] st' [97] :=
  ⟨_, (token_acts_for_login_iff Env.plain twoConnections (registerEvent 0 [97]) [97] [97, 97]
    issues_ordinary others _ rfl [97] _ rfl).mpr (by decide)⟩

/-- A token does not always act for its own user: after "a" has registered, the
token that "a\0b" gets acts for "a". -/
theorem nul_login_acts_for_other :
    ∃ w token st', World.Reachable Env.plain w ∧
      Issues Env.plain w (registerEvent 1 [97, 0, 98]) [97, 0, 98] token ∧
      (getLoginByToken Env.plain token).run
          (w.step Env.plain (registerEvent 1 [97, 0, 98])).store = .ok (.ok [97]) st' ∧
      getIdByLogin [97] st' = .ok 1 ∧ getIdByLogin [97, 0, 98] st' = .ok 2 ∧
      ¬ ActsFor Env.plain (w.step Env.plain (registerEvent 1 [97, 0, 98])) token [97] st'
        [97, 0, 98] := by
  refine ⟨LabelledRuns.run (World.step Env.plain) (World.initial Env.plain fun _ => none)
    [.connect, .connect, registerEvent 0 [97]], [97, 97, 97, 97], _, ⟨_, _, rfl⟩, ⟨rfl, ?_⟩, rfl,
    rfl, rfl, ?_⟩
  · refine ⟨1, .register, _, rfl, rfl, Or.inl rfl, ⟨⟨[97, 0, 98], [112]⟩, rfl, rfl⟩, _, [], rfl,
      ?_⟩
    decide
  · intro h
    exact absurd h.returned (by decide)

end Messenger.TokenIdentity
