import Messenger.Representations
import Messenger.Simulations
import Messenger.RequestEffects
import Messenger.Refusals

/-!
The server carries out the messenger that its users see. Each packet that reaches a session
is one request of a user, and one more when it welcomes somebody; packets that do not
decode, connections, restarts and a server that goes down under a packet are no requests at
all. The tables then stand for the state of the messenger after every run, and every RESULT
says what the messenger replies.
-/
namespace Messenger.Refinement

open KeyedTables Outcomes ClientSession UserRepository MessageRepository FriendStates
  HandlerActions HandlePacket ServerSteps MalformedBodies TokenIdentity TokenRequests TableSteps
  Authentications PlainMessenger Representations Refusals

abbrev PlainRequest := Request Bytes Bytes Bytes Bytes

abbrev Ask := Asked Bytes Bytes Bytes Bytes

def plainFriendRequest (operation : FriendOperation) (body : Bytes) : Option PlainRequest :=
  (deserialize FriendRequest body).toOption.map fun req =>
    .befriend req.token operation req.targetLogin

def plainRequest (packetType : PacketType) (body : Bytes) : Option PlainRequest :=
  match packetType with
  | .register => (deserialize AuthRequest body).toOption.map fun req =>
      .register req.login req.password
  | .login => (deserialize AuthRequest body).toOption.map fun req => .login req.login req.password
  | .tokenVerify => (deserialize TokenVerifyRequest body).toOption.map fun req =>
      .present req.oldToken
  | .logout => (deserialize LogoutRequest body).toOption.map fun req => .logout req.oldToken
  | .friendRequest => plainFriendRequest .request body
  | .friendAccept => plainFriendRequest .accept body
  | .friendReject => plainFriendRequest .reject body
  | .directMessage => (deserialize DirectMessageRequest body).toOption.map fun req =>
      .write req.token req.recipientLogin req.message
  | .message => (deserialize ChatSendRequest body).toOption.map fun req => .present req.token
  | .upload => (deserialize FileUploadRequest body).toOption.map fun req => .present req.token
  | .download => (deserialize FileDownloadRequest body).toOption.map fun req => .present req.token
  | .friendList => (deserialize FriendListRequest body).toOption.map fun req => .present req.token
  | .messageHistory => (deserialize HistoryRequest body).toOption.map fun req => .present req.token
  | .chatList => (deserialize ChatListRequest body).toOption.map fun req => .present req.token
  | _ => none

/-- A registration draws its salt first. -/
def freshToken (env : Env) (st : Store) : PlainRequest → Bytes
  | .register _ _ => env.uuid (st.uuidsDrawn + 1)
  | _ => env.uuid st.uuidsDrawn

def ask (env : Env) (st : Store) (request : PlainRequest) : Ask where
  request := request
  fresh := freshToken env st request
  now := env.clock st.clockReads
  later := env.clock (st.clockReads + 1)

/-- What a RESULT says of a reply. -/
def Replied : Reply Bytes → Response → Prop
  | .token t, r => r = .auth ⟨t, Error.Base.ok⟩
  | .done, r => r.error = Error.Base.ok
  | .refused, r => r.error.ok = false

/-- The switch does what the messenger does when it is asked. -/
structure Follows (env : Env) (m : Plain) (a : Ask)
    (result : EStateM.Result Exn World (Option Response × Option Bytes)) : Prop where
  state : Represents env (final result).store (m.step tokenTtl a)
  reply : ∀ r l w', result = .ok (some r, l) w' → Replied (m.reply tokenTtl a) r

theorem follows_ok {env : Env} {m : Plain} {a : Ask} {r : Response} {l : Option Bytes} {w' : World}
    (hstate : Represents env w'.store (m.step tokenTtl a))
    (hreply : Replied (m.reply tokenTtl a) r) : Follows env m a (.ok (some r, l) w') where
  state := hstate
  reply r' l' w'' h := by
    cases h
    exact hreply

section

/-- The answer of a handler that may authenticate somebody. -/
theorem follows_answerAuth {env : Env} {m : Plain} {a : Ask}
    {program : ServerM (Response × Option Bytes)} {w w' : World} {r : Response} {l : Option Bytes}
    (hrun : program.run w = .ok (r, l) w')
    (hstate : Represents env w'.store (m.step tokenTtl a))
    (hreply : Replied (m.reply tokenTtl a) r) : Follows env m a ((answerAuth program).run w) := by
  rw [answerAuth_run hrun]
  exact follows_ok hstate hreply

variable {env : Env} {w : World} {m : Plain} {body : Bytes} (hclock : Monotone env.clock)
  (hsha : Function.Injective (sha256 env)) (self : ConnId)

include hclock

/-- A token is drawn for a login that has just been verified. -/
theorem verifyUser_given {st : Store} (h : Represents env st m) {login password : Bytes}
    (hpw : verifyPassword env login password st = true) :
    ∃ st', (verifyUser env login password).run st = .ok (.ok (env.uuid st.uuidsDrawn)) st' ∧
      Represents env st'
        (m.grant (env.uuid st.uuidsDrawn) login (env.clock st.clockReads)) := by
  have hfresh := findToken_fresh h.sound.drawn le_rfl
  obtain ⟨u, hu, hverify⟩ := verifyUser_run st hpw hfresh
  have hid : getIdByLogin login st = .ok u.id := by
    unfold getIdByLogin
    rw [hu]
  exact ⟨_, hverify, h.given hclock hid hfresh⟩

include hsha

omit hsha in
/-- A LOGIN whose password is verified is given a token. -/
theorem login_given (h : Represents env w.store m) {req : AuthRequest}
    (hreq : deserialize AuthRequest body = .ok req)
    (hpw : verifyPassword env req.login req.password w.store = true) :
    ∃ st', (handleLogin env self body).run w =
        .ok (.auth ⟨env.uuid w.store.uuidsDrawn, Error.Base.ok⟩, some req.login)
          (withToken w self st' (env.uuid w.store.uuidsDrawn)) ∧
      Represents env st'
        (m.grant (env.uuid w.store.uuidsDrawn) req.login (env.clock w.store.clockReads)) := by
  obtain ⟨st', hverify, hgiven⟩ := verifyUser_given hclock h hpw
  refine ⟨st', ?_, hgiven⟩
  simp only [handleLogin, EStateM.run_bind, decode_run hreq, liftStore_run, liftStore, hverify]
  rfl

omit hsha in
/-- A REGISTER of a login that is free opens an account and is given a token. -/
theorem register_given (h : Represents env w.store m) {req : AuthRequest}
    (hreq : deserialize AuthRequest body = .ok req) (hnul : 0 ∉ req.login)
    (hfree : w.store.db.findLogin req.login = none) :
    ∃ st', (handleRegister env self body).run w =
        .ok (.auth ⟨env.uuid (w.store.uuidsDrawn + 1), Error.Base.ok⟩, some req.login)
          (withToken w self st' (env.uuid (w.store.uuidsDrawn + 1))) ∧
      Represents env st'
        (State.grant { m with accounts := m.accounts ++ [(req.login, req.password)] }
          (env.uuid (w.store.uuidsDrawn + 1)) req.login (env.clock w.store.clockReads)) := by
  rcases registerUser_cases env req.login req.password w.store with
    ⟨htaken, -⟩ | ⟨-, hregister⟩
  · rw [hfree] at htaken
    cases htaken
  · have hpw := verifyPassword_withUser env hfree
      (env.uuid_nulFree w.store.uuidsDrawn) req.password
    have hopened := h.registered req.password hfree hnul
    obtain ⟨st', hverify, hgiven⟩ := verifyUser_given hclock hopened hpw
    refine ⟨st', ?_, hgiven⟩
    simp only [handleRegister, EStateM.run_bind, decode_run hreq, liftStore_run, liftStore,
      hregister, base_ok, if_true, hverify]
    rfl

theorem login_follows (h : Represents env w.store m) {req : AuthRequest}
    (hreq : deserialize AuthRequest body = .ok req) :
    Follows env m (ask env w.store (.login req.login req.password))
      ((dispatch env self .login body).run w) := by
  have hverified := Registrations.verifyPassword_iff h.accounts
    (Registrations.noCollision_of_injective hsha w.store m.accounts req.login req.password)
  rcases handleLogin_cases env self w hreq with ⟨hpw, hrun⟩ | ⟨hpw, -⟩
  · have hunknown : (req.login, req.password) ∉ m.accounts := by
      rw [← hverified, hpw]
      exact Bool.false_ne_true
    refine follows_answerAuth hrun ?_ ?_
    · simp only [State.step, ask, if_neg hunknown]
      exact h
    · simp only [State.reply, ask, if_neg hunknown]
      rfl
  · have hknown := hverified.mp hpw
    obtain ⟨st', hrun, hgiven⟩ := login_given hclock self h hreq hpw
    refine follows_answerAuth hrun ?_ ?_
    · simp only [State.step, ask, if_pos hknown]
      exact hgiven
    · simp only [State.reply, ask, if_pos hknown]
      rfl

omit hsha in
theorem register_follows (h : Represents env w.store m) {req : AuthRequest}
    (hreq : deserialize AuthRequest body = .ok req) (hnul : 0 ∉ req.login) :
    Follows env m (ask env w.store (.register req.login req.password))
      ((dispatch env self .register body).run w) := by
  have hregistered : m.Registered req.login ↔ _ := registered_iff_findLogin h
  rcases handleRegister_cases env self w hreq with ⟨htaken, hrun⟩ | ⟨hfree, -⟩
  · refine follows_answerAuth hrun ?_ ?_
    · simp only [State.step, ask, if_pos (hregistered.mpr htaken)]
      exact h
    · simp only [State.reply, ask, if_pos (hregistered.mpr htaken)]
      rfl
  · have hunregistered : ¬ m.Registered req.login := by
      rw [hregistered, hfree]
      exact Bool.false_ne_true
    obtain ⟨st', hrun, hgiven⟩ := register_given hclock self h hreq hnul hfree
    refine follows_answerAuth hrun ?_ ?_
    · simp only [State.step, ask, if_neg hunregistered]
      exact hgiven
    · simp only [State.reply, ask, if_neg hunregistered]
      rfl

omit hsha in
theorem tokenVerify_follows (h : Represents env w.store m) {req : TokenVerifyRequest}
    (hreq : deserialize TokenVerifyRequest body = .ok req) :
    Follows env m (ask env w.store (.present req.oldToken))
      ((dispatch env self .tokenVerify body).run w) := by
  obtain ⟨r, st, hrun, hlook⟩ := getLoginByToken_lookedUp env req.oldToken w.store
  have hholder := (tokenLogin_eq_holder h req.oldToken).symm.trans (tokenLogin_of_lookedUp hlook)
  have hstate := h.lookedUp hclock hlook
  cases r with
  | error e =>
    have hhandle : (handleTokenVerify env self body).run w =
        .ok (.tokenVerify ⟨e⟩, none) { w with store := st } := by
      simp only [handleTokenVerify, EStateM.run_bind, decode_run hreq, liftStore_run, liftStore,
        hrun]
      rfl
    refine follows_answerAuth hhandle hstate ?_
    simp only [State.reply, ask, hholder]
    exact ok_of_lookedUp_error hlook
  | ok login =>
    have hhandle : (handleTokenVerify env self body).run w =
        .ok (.tokenVerify ⟨Error.Base.ok⟩, some login) (withToken w self st req.oldToken) := by
      simp only [handleTokenVerify, EStateM.run_bind, decode_run hreq, liftStore_run, liftStore,
        hrun]
      rfl
    refine follows_answerAuth hhandle hstate ?_
    simp only [State.reply, ask, hholder]
    rfl

omit hclock hsha in
theorem logout_follows (hclock : Monotone env.clock) (h : Represents env w.store m)
    {req : LogoutRequest} (hreq : deserialize LogoutRequest body = .ok req) :
    Follows env m (ask env w.store (.logout req.oldToken))
      ((dispatch env self .logout body).run w) := by
  have hrun : (dispatch env self .logout body).run w =
      .ok (none, none) (withoutLogin w self (withoutToken w.store req.oldToken)) := by
    simp only [dispatch, handleLogout, EStateM.run_bind, decode_run hreq]
    rfl
  rw [hrun]
  exact ⟨h.logout hclock req.oldToken, fun r l w' hended => by cases hended⟩

end

def carriedToken : PlainRequest → Option Bytes
  | .present token | .befriend token _ _ | .write token _ _ => some token
  | _ => none

theorem refused_of_no_holder {m : Plain} {a : Ask} {token : Bytes}
    (htoken : carriedToken a.request = some token)
    (hholder : m.holder tokenTtl token a.now = none) :
    m.step tokenTtl a = m ∧ m.reply tokenTtl a = .refused := by
  unfold State.step State.reply
  cases hrequest : a.request with
  | present token' =>
    rw [hrequest] at htoken
    cases htoken
    simp only [hholder]
    exact ⟨trivial, rfl⟩
  | befriend token' operation target =>
    rw [hrequest] at htoken
    cases htoken
    simp only [hholder]
    exact ⟨trivial, trivial⟩
  | write token' recipient text =>
    rw [hrequest] at htoken
    cases htoken
    simp only [hholder]
    exact ⟨trivial, trivial⟩
  | register | login | logout | fetch =>
    rw [hrequest] at htoken
    cases htoken

section

variable {env : Env} {w : World} {m : Plain} {body : Bytes} {packetType : PacketType}
  {t : TokenRequest}

/-- A request and what it is for a user: the same token, and refusals that say so. -/
theorem plainRequest_of_requestOf (h : requestOf env packetType body = some t) :
    ∃ q, plainRequest packetType body = some q ∧ carriedToken q = some t.token ∧
      ∀ e, (t.refuse e).error = e := by
  have decoded : ∀ {Derived Args : Type} [Serializable Derived Args] [TupleSerializer Args]
      {f : Derived → TokenRequest} {g : Derived → PlainRequest},
      (deserialize Derived body).toOption.map f = some t →
      (∀ d, carriedToken (g d) = some (f d).token ∧ ∀ e, ((f d).refuse e).error = e) →
      ∃ q, (deserialize Derived body).toOption.map g = some q ∧ carriedToken q = some t.token ∧
        ∀ e, (t.refuse e).error = e := by
    intro Derived Args _ _ f g hrequest hsame
    obtain ⟨d, hd, rfl⟩ := toOption_map_some hrequest
    refine ⟨g d, ?_, hsame d⟩
    rw [hd]
    rfl
  cases packetType with
  | register | login | tokenVerify | logout | result | friendNewRequest | friendRequestAccepted
  | friendRequestRejected | unnamed => cases h
  | _ => exact decoded h fun d => ⟨rfl, fun e => rfl⟩

theorem returned_follows {a : Ask} {program : ServerM Response} {w : World}
    (hstate : Represents env (final (program.run w)).store (m.step tokenTtl a))
    (hreply : ∀ r w', program.run w = .ok r w' → Replied (m.reply tokenTtl a) r) :
    Follows env m a ((answer program).run w) := by
  rw [answer, EStateM.run_bind]
  cases hrun : program.run w with
  | ok r w' =>
    rw [hrun] at hstate
    exact follows_ok hstate (hreply r w' hrun)
  | error e w' =>
    rw [hrun] at hstate
    exact ⟨hstate, fun r l w'' hended => by cases hended⟩

/-- What is left to show of a request is what its act does for the token's holder. -/
theorem request_follows (hclock : Monotone env.clock) (self : ConnId)
    (h : Represents env w.store m) (hrequest : requestOf env packetType body = some t)
    {q : PlainRequest} (hplain : plainRequest packetType body = some q)
    (hact : ∀ login, m.holder tokenTtl t.token (env.clock w.store.clockReads) = some login →
      m.Registered login →
      Follows env m (ask env w.store q)
        ((answer (t.act login)).run { w with store := ticked w.store })) :
    Follows env m (ask env w.store q) ((dispatch env self packetType body).run w) := by
  obtain ⟨q', hplain', htoken, hrefuse⟩ := plainRequest_of_requestOf hrequest
  cases hplain.symm.trans hplain'
  rw [dispatch_request self hrequest w]
  have hholder := tokenLogin_eq_holder h t.token
  cases hlogin : tokenLogin env t.token w.store with
  | none =>
    obtain ⟨e, st', hlook, hrun⟩ := withAccount_none t.refuse t.act hlogin
    obtain ⟨hstep, hreply⟩ := refused_of_no_holder (a := ask env w.store q) htoken
      (hholder.symm.trans hlogin)
    rw [answer_run hrun]
    refine follows_ok ?_ ?_
    · rw [hstep]
      exact h.lookedUp hclock hlook
    · rw [hreply]
      have hno := ok_of_lookedUp_error hlook
      rwa [← hrefuse e] at hno
  | some login =>
    have hsame := hholder.symm.trans hlogin
    have hrun := hact login hsame (holder_registered h.wellFormed hsame)
    have hdispatch : (answer (withAccount env t.token t.refuse t.act)).run w =
        (answer (t.act login)).run { w with store := ticked w.store } := by
      simp only [answer, EStateM.run_bind, withAccount_some t.refuse t.act hlogin]
    rw [hdispatch]
    exact hrun

/-- Acts that change no table and refuse nobody. -/
theorem presented_follows (hclock : Monotone env.clock) (h : Represents env w.store m)
    {program : ServerM Response} {token login : Bytes}
    (hholder : m.holder tokenTtl token (env.clock w.store.clockReads) = some login)
    (hstore : (final (program.run { w with store := ticked w.store })).store = ticked w.store)
    (hok : ∀ r w', program.run { w with store := ticked w.store } = .ok r w' →
      r.error = Error.Base.ok) :
    Follows env m (ask env w.store (.present token))
      ((answer program).run { w with store := ticked w.store }) := by
  refine returned_follows ?_ fun r w' hrun => ?_
  · rw [hstore]
    exact h.ticked hclock
  · simp only [State.reply, ask, hholder]
    exact hok r w' hrun

theorem outward_store {program : ServerM Response} {w : World} (h : Moves Outward program w) :
    (final (program.run w)).store = w.store :=
  h.preserves (P := fun w' => w'.store = w.store) (fun _ _ hstep hw => hstep.store.trans hw) rfl

theorem reading_store {program : ServerM Response} {x : Except Exn Response} {w : World}
    (h : program.run w = answeredFrom x w) : (final (program.run w)).store = w.store := by
  rw [h]
  cases x <;> rfl

theorem messageAct_store (message login : Bytes) (w : World) :
    (final ((messageAct message login).run w)).store = w.store :=
  outward_store (moves_bind (broadcast_moves _ _ _) fun _ _ _ => moves_pure _ _)

theorem uploadAct_store (env : Env) (fileName fileData : Bytes) (w : World) :
    (final ((uploadAct env fileName fileData).run w)).store = w.store :=
  outward_store (moves_bind (encryptAES_moves env w _ _) fun _ w₁ _ =>
    moves_bind (bytesToFile_moves env w₁ _ _) fun _ _ _ => moves_pure _ _)

theorem downloadAct_store (env : Env) (fileName : Bytes) (w : World) :
    (final ((downloadAct env fileName).run w)).store = w.store :=
  reading_store (StoredFiles.downloadAct_run env w fileName)

/-- A request about friends is the command on the logins. -/
theorem friendAct_follows (hclock : Monotone env.clock) (h : Represents env w.store m)
    (call : ℤ → ℤ → FriendCall) {operation : FriendOperation}
    (hcall : ∀ x y, (call x y).command = operation.command x y) (notice : PacketType)
    {token target login : Bytes}
    (hholder : m.holder tokenTtl token (env.clock w.store.clockReads) = some login)
    (hlogin : m.Registered login) :
    Follows env m (ask env w.store (.befriend token operation target))
      ((answer (friendAct env (fun x y => (call x y).program) notice target login)).run
        { w with store := ticked w.store }) := by
  have hticked := h.ticked hclock
  obtain ⟨x, hx, hxuser, hxname⟩ := getIdByLogin_of_registered hticked hlogin
  by_cases htarget : m.Registered target
  · obtain ⟨y, hy, hyuser, hyname⟩ := getIdByLogin_of_registered hticked htarget
    have hids : friendIds login target (ticked w.store) = .ok (x, y) := by
      simp only [friendIds, hx, hy]
      rfl
    obtain ⟨hactor, hpeer⟩ := operation.ends x y
    have hexist : (call x y).UsersExist (ticked w.store) := by
      refine ⟨?_, ?_⟩
      · rw [hcall, hactor]
        exact hxuser
      · rw [hcall, hpeer]
        exact hyuser
    obtain ⟨e, st', hprogram, hcarries⟩ := (call x y).carriesOut hticked.sound.normalised hexist
    rw [hcall] at hcarries
    have hfriends := RequestEffects.friendCall_friendships (call x y) (ticked w.store)
    rw [hprogram] at hfriends
    obtain ⟨hverdict, hstate⟩ := hticked.befriended hxuser hyuser hcarries hfriends
    rw [hxname, hyname] at hverdict hstate
    have hrun := friendAct_run env (fun x y => (call x y).program) notice
      (w := { w with store := ticked w.store }) hids
    simp only [hprogram] at hrun
    refine returned_follows ?_ fun r w' hreturned => ?_
    · have hfinal : (final ((friendAct env (fun x y => (call x y).program) notice target login).run
          { w with store := ticked w.store })).store = st' := by
        rw [hrun]
        split
        · exact withNotice_store _ _ _
        · rfl
      rw [hfinal]
      simp only [State.step, ask, hholder, if_pos htarget]
      exact hstate
    · rw [hrun] at hreturned
      simp only [State.reply, ask, hholder]
      by_cases he : e = Error.Base.ok
      · rw [if_pos ⟨htarget, hverdict.mp he⟩]
        rw [if_pos (by rw [he]; rfl)] at hreturned
        cases hreturned
        rfl
      · rw [if_neg fun hboth => he (hverdict.mpr hboth.2)]
        rw [if_neg fun hok => he (eq_ok_of_ok hok)] at hreturned
        cases hreturned
        exact Bool.eq_false_iff.mpr fun hok => he (eq_ok_of_ok hok)
  · have hids : friendIds login target (ticked w.store) = .error Error.User.notFound := by
      have hunknown : (ticked w.store).db.findLogin target = none := by
        rw [registered_iff_findLogin hticked] at htarget
        exact Option.not_isSome_iff_eq_none.mp htarget
      simp only [friendIds, getIdByLogin, hunknown]
      rfl
    obtain ⟨hrefused, hrun⟩ := friendAct_refused env (fun x y => (call x y).program) notice
      (w := { w with store := ticked w.store }) hids
    rw [answer_run hrun]
    refine follows_ok ?_ ?_
    · simp only [State.step, ask, hholder, if_neg htarget]
      exact hticked
    · simp only [State.reply, ask, hholder, if_neg fun hboth : _ ∧ _ => htarget hboth.1]
      exact hrefused

/-- Two users are friends by their ids when they are by their logins. -/
theorem areFriends_iff {st : Store} (h : Represents env st m) {x y : ℤ} (hx : hasUser st x)
    (hy : hasUser st y) : (FriendRepository.areFriends x y st).ok = true ↔
      m.friends s(loginOf st x, loginOf st y) = .accepted := by
  rw [areFriends_ok_iff h.sound.normalised, h.friends.names x hx y hy]
  cases friendMap st.db.friendships.rows s(x, y) <;> simp [renamed]

/-- A message has somewhere to go exactly when it is for a friend. -/
theorem directMessagePlan_cases {st : Store} (h : Represents env st m) {login : Bytes}
    (hlogin : m.Registered login) (recipient : Bytes) :
    (∃ x y, directMessagePlan recipient login st = .ok (.ok (x, y)) ∧
      (hasUser st x ∧ loginOf st x = login) ∧ (hasUser st y ∧ loginOf st y = recipient) ∧
      m.Registered recipient ∧ m.friends s(login, recipient) = .accepted) ∨
    ∃ e, directMessagePlan recipient login st = .ok (.error e) ∧ e.ok = false ∧
      ¬ (m.Registered recipient ∧ m.friends s(login, recipient) = .accepted) := by
  obtain ⟨x, hx, hxuser, hxname⟩ := getIdByLogin_of_registered h hlogin
  by_cases hrecipient : m.Registered recipient
  · obtain ⟨y, hy, hyuser, hyname⟩ := getIdByLogin_of_registered h hrecipient
    have hfriends := areFriends_iff h hxuser hyuser
    rw [hxname, hyname] at hfriends
    cases hok : (FriendRepository.areFriends x y st).ok with
    | true =>
      refine Or.inl ⟨x, y, ?_, ⟨hxuser, hxname⟩, ⟨hyuser, hyname⟩, hrecipient, hfriends.mp hok⟩
      simp only [directMessagePlan, hx, hy, hok, if_true]
    | false =>
      refine Or.inr ⟨FriendRepository.areFriends x y st, ?_, hok, fun hboth => ?_⟩
      · simp only [directMessagePlan, hx, hy, hok, Bool.false_eq_true, if_false]
      · cases hok.symm.trans (hfriends.mpr hboth.2)
  · refine Or.inr ⟨Error.User.notFound, ?_, rfl, fun hboth => hrecipient hboth.1⟩
    have hunknown : st.db.findLogin recipient = none := by
      rw [registered_iff_findLogin h] at hrecipient
      exact Option.not_isSome_iff_eq_none.mp hrecipient
    simp only [directMessagePlan, getIdByLogin, hunknown]

/-- A message goes between friends, or not at all. -/
theorem directMessageAct_follows (hclock : Monotone env.clock) (h : Represents env w.store m)
    {token recipient message login : Bytes}
    (hholder : m.holder tokenTtl token (env.clock w.store.clockReads) = some login)
    (hlogin : m.Registered login) :
    Follows env m (ask env w.store (.write token recipient message))
      ((answer (directMessageAct env recipient message login)).run
        { w with store := ticked w.store }) := by
  have hticked := h.ticked hclock
  have hrun := directMessageAct_run env recipient message login
    { w with store := ticked w.store }
  rcases directMessagePlan_cases hticked hlogin recipient with
    ⟨x, y, hplan, ⟨hx, hxname⟩, ⟨hy, hyname⟩, hwrite⟩ | ⟨e, hplan, hrefused, hno⟩
  · simp only [hplan] at hrun
    rw [answer_run hrun]
    have haccepted := hwrite.2
    rw [← hxname, ← hyname, ← areFriends_iff hticked hx hy,
      areFriends_ok_iff hticked.sound.normalised] at haccepted
    have hstate := hticked.written hclock hx hy haccepted message
      (env.clock (w.store.clockReads + 1))
    rw [hxname, hyname] at hstate
    refine follows_ok ?_ ?_
    · simp only [State.step, ask, hholder, if_pos hwrite]
      exact hstate
    · simp only [State.reply, ask, hholder, if_pos hwrite]
      rfl
  · simp only [hplan] at hrun
    rw [answer_run hrun]
    refine follows_ok ?_ ?_
    · simp only [State.step, ask, hholder, if_neg hno]
      exact hticked
    · simp only [State.reply, ask, hholder, if_neg hno]
      exact hrefused

theorem messageAct_returns (message login : Bytes) :
    Returns (fun r => r.error = Error.Base.ok) (messageAct message login) :=
  returns_bind fun _ => returns_pure rfl

theorem uploadAct_returns (env : Env) (fileName fileData : Bytes) :
    Returns (fun r => r.error = Error.Base.ok) (uploadAct env fileName fileData) :=
  returns_bind fun _ => returns_bind fun _ => returns_pure rfl

theorem downloadAct_returns (env : Env) (fileName : Bytes) :
    Returns (fun r => r.error = Error.Base.ok) (downloadAct env fileName) :=
  returns_bind fun _ => returns_bind fun _ => returns_pure rfl

theorem friendListAct_returns (login : Bytes) :
    Returns (fun r => r.error = Error.Base.ok) (friendListAct login) :=
  returns_bind fun _ => returns_bind fun _ => returns_bind fun _ => returns_bind fun _ =>
    returns_bind fun _ => returns_bind fun _ => returns_pure rfl

theorem historyAct_returns (env : Env) (peerLogin login : Bytes) :
    Returns (fun r => r.error = Error.Base.ok) (historyAct env peerLogin login) :=
  returns_bind fun _ => returns_bind fun _ => returns_bind fun _ => returns_bind fun _ =>
    returns_bind fun _ => returns_bind fun _ => returns_pure rfl

/-- A chat list is refused to nobody who is there. -/
theorem chatListAct_returns (env : Env) {login : Bytes} {w w' : World} {r : Response}
    (hknown : ∃ id, getIdByLogin login w.store = .ok id)
    (hrun : (chatListAct env login).run w = .ok r w') : r.error = Error.Base.ok := by
  obtain ⟨id, hid⟩ := hknown
  rw [chatListAct_run, chatListAnswer, hid] at hrun
  cases hrun
  rfl

theorem plainRequest_none_of_requestOf_none (hrequest : requestOf env packetType body = none)
    (hauth : ¬ Authenticating packetType) (hlogout : packetType ≠ .logout) :
    plainRequest packetType body = none := by
  have undecoded : ∀ {Derived Args : Type} [Serializable Derived Args] [TupleSerializer Args]
      {f : Derived → TokenRequest} {g : Derived → PlainRequest},
      (deserialize Derived body).toOption.map f = none →
      (deserialize Derived body).toOption.map g = none := by
    intro Derived Args _ _ f g hnone
    obtain ⟨e, he⟩ := toOption_map_none hnone
    rw [he]
    rfl
  cases packetType with
  | register => exact absurd (Or.inl rfl) hauth
  | login => exact absurd (Or.inr (Or.inl rfl)) hauth
  | tokenVerify => exact absurd (Or.inr (Or.inr rfl)) hauth
  | logout => exact absurd rfl hlogout
  | result | friendNewRequest | friendRequestAccepted | friendRequestRejected | unnamed => rfl
  | _ => exact undecoded hrequest

/-- The login of a REGISTER that decodes holds no NUL. -/
def NulFreeLogin (packetType : PacketType) (body : Bytes) : Prop :=
  packetType = .register → ∀ req ∈ (deserialize AuthRequest body).toOption, 0 ∉ req.login

instance (packetType : PacketType) (body : Bytes) : Decidable (NulFreeLogin packetType body) :=
  inferInstanceAs (Decidable (_ → _))

theorem dispatch_follows (hclock : Monotone env.clock)
    (hsha : Function.Injective (sha256 env)) (self : ConnId) (h : Represents env w.store m)
    (hnul : NulFreeLogin packetType body) {q : PlainRequest}
    (hplain : plainRequest packetType body = some q) :
    Follows env m (ask env w.store q) ((dispatch env self packetType body).run w) := by
  cases packetType with
  | register =>
    obtain ⟨req, hreq, rfl⟩ := toOption_map_some hplain
    exact register_follows hclock self h hreq (hnul rfl req (by rw [hreq]; rfl))
  | login =>
    obtain ⟨req, hreq, rfl⟩ := toOption_map_some hplain
    exact login_follows hclock hsha self h hreq
  | tokenVerify =>
    obtain ⟨req, hreq, rfl⟩ := toOption_map_some hplain
    exact tokenVerify_follows hclock self h hreq
  | logout =>
    obtain ⟨req, hreq, rfl⟩ := toOption_map_some hplain
    exact logout_follows self hclock h hreq
  | message =>
    obtain ⟨req, hreq, rfl⟩ := toOption_map_some hplain
    refine request_follows hclock self h (by rw [requestOf, hreq]; rfl) hplain ?_
    intro login hholder _
    exact presented_follows hclock h hholder (messageAct_store _ _ _)
      (messageAct_returns _ login _)
  | upload =>
    obtain ⟨req, hreq, rfl⟩ := toOption_map_some hplain
    refine request_follows hclock self h (by rw [requestOf, hreq]; rfl) hplain ?_
    intro login hholder _
    exact presented_follows hclock h hholder (uploadAct_store env _ _ _)
      (uploadAct_returns env _ _ _)
  | download =>
    obtain ⟨req, hreq, rfl⟩ := toOption_map_some hplain
    refine request_follows hclock self h (by rw [requestOf, hreq]; rfl) hplain ?_
    intro login hholder _
    exact presented_follows hclock h hholder (downloadAct_store env _ _)
      (downloadAct_returns env _ _)
  | friendRequest =>
    obtain ⟨req, hreq, rfl⟩ := toOption_map_some hplain
    refine request_follows hclock self h (by rw [requestOf, friendRequestOf, hreq]; rfl) hplain ?_
    intro login hholder hlogin
    exact friendAct_follows hclock h .sendRequest (fun x y => rfl) _ hholder hlogin
  | friendAccept =>
    obtain ⟨req, hreq, rfl⟩ := toOption_map_some hplain
    refine request_follows hclock self h (by rw [requestOf, friendRequestOf, hreq]; rfl) hplain ?_
    intro login hholder hlogin
    exact friendAct_follows hclock h .acceptRequest (fun x y => rfl) _ hholder hlogin
  | friendReject =>
    obtain ⟨req, hreq, rfl⟩ := toOption_map_some hplain
    refine request_follows hclock self h (by rw [requestOf, friendRequestOf, hreq]; rfl) hplain ?_
    intro login hholder hlogin
    exact friendAct_follows hclock h .rejectRequest (fun x y => rfl) _ hholder hlogin
  | friendList =>
    obtain ⟨req, hreq, rfl⟩ := toOption_map_some hplain
    refine request_follows hclock self h (by rw [requestOf, hreq]; rfl) hplain ?_
    intro login hholder _
    exact presented_follows hclock h hholder (reading_store (friendListAct_run login _))
      (friendListAct_returns login _)
  | messageHistory =>
    obtain ⟨req, hreq, rfl⟩ := toOption_map_some hplain
    refine request_follows hclock self h (by rw [requestOf, hreq]; rfl) hplain ?_
    intro login hholder _
    exact presented_follows hclock h hholder (reading_store (historyAct_run env _ login _))
      (historyAct_returns env _ login _)
  | directMessage =>
    obtain ⟨req, hreq, rfl⟩ := toOption_map_some hplain
    refine request_follows hclock self h (by rw [requestOf, hreq]; rfl) hplain ?_
    intro login hholder hlogin
    exact directMessageAct_follows hclock h hholder hlogin
  | chatList =>
    obtain ⟨req, hreq, rfl⟩ := toOption_map_some hplain
    refine request_follows hclock self h (by rw [requestOf, hreq]; rfl) hplain ?_
    intro login hholder hlogin
    obtain ⟨id, hid, -, -⟩ := getIdByLogin_of_registered h hlogin
    exact presented_follows hclock h hholder (reading_store (chatListAct_run env login _))
      fun _ _ => chatListAct_returns env ⟨id, hid⟩
  | _ => cases hplain

/-- A packet that asks for nothing does nothing, or ends the server. -/
theorem dispatch_unasked (env : Env) (self : ConnId) (w : World)
    (hplain : plainRequest packetType body = none) :
    (dispatch env self packetType body).run w = .ok (none, none) w ∨
      ∃ e, (dispatch env self packetType body).run w = .error e w := by
  have undecoded : ∀ {Derived Args : Type} [Serializable Derived Args] [TupleSerializer Args]
      {g : Derived → PlainRequest} {T : MessageType}, requestStruct packetType = some T →
      (deserialize Derived body).toOption.map g = none →
      ((∃ e, deserialize Derived body = .error e) → ∃ e, T.deserialize body = .error e) →
      ∃ e, (dispatch env self packetType body).run w = .error e w := by
    intro Derived Args _ _ g T hT hnone hsame
    obtain ⟨e, he⟩ := hsame (toOption_map_none hnone)
    exact ⟨e, dispatch_malformed hT he w⟩
  cases packetType with
  | result | friendNewRequest | friendRequestAccepted | friendRequestRejected | unnamed =>
    exact Or.inl rfl
  | _ => exact Or.inr (undecoded rfl hplain id)

end

/-- What the messenger is asked by a packet: the request in it, and for what waits for the
user that it welcomes. -/
def asked (env : Env) (w : World) (c : ConnId) (packetType : PacketType) (body : Bytes) :
    List Ask :=
  ((plainRequest packetType body).map (ask env w.store)).toList ++
    if (w.receive env c packetType body).status = .terminated then []
    else
      ((authenticatesAs env w packetType body).map fun login =>
        ask env w.store (.fetch login)).toList

/-- A packet that finds no session asks for nothing, and no other event does. -/
def shown (env : Env) (w : World) : Event → List Ask
  | .packet c packetType body =>
    if w.status = .running ∧ (w.sessions c).isSome then asked env w c packetType body else []
  | _ => []

section

variable {env : Env} {w : World} {m : Plain} {body : Bytes} {packetType : PacketType}
  {self : ConnId}

theorem switch_represents (hclock : Monotone env.clock) (hsha : Function.Injective (sha256 env))
    (self : ConnId) (h : Represents env w.store m) (hnul : NulFreeLogin packetType body) :
    Represents env (final ((dispatch env self packetType body).run w)).store
      (LabelledRuns.run (State.step tokenTtl) m
        ((plainRequest packetType body).map (ask env w.store)).toList) := by
  cases hplain : plainRequest packetType body with
  | none =>
    rcases dispatch_unasked env self w hplain with hrun | ⟨e, hrun⟩
    · rw [hrun]
      exact h
    · rw [hrun]
      exact h
  | some q => exact (dispatch_follows hclock hsha self h hnul hplain).state

theorem receive_represents (hclock : Monotone env.clock) (hsha : Function.Injective (sha256 env))
    (h : Represents env w.store m) (hnul : NulFreeLogin packetType body)
    (hup : w.status ≠ .terminated) (hlive : (w.sessions self).isSome) :
    Represents env (w.receive env self packetType body).store
      (LabelledRuns.run (State.step tokenTtl) m (asked env w self packetType body)) := by
  have hswitch := switch_represents hclock hsha self h hnul
  have hcases := handlePacket_handling env packetType body hlive
  unfold asked
  rw [LabelledRuns.run_append]
  unfold World.receive
  generalize hrun : (handlePacket env self packetType body).run w = result at hcases
  cases hcases with
  | thrown e w₁ hend =>
    rw [hend] at hswitch
    exact hswitch
  | undelivered r login w₁ e handed hend _ =>
    rw [hend] at hswitch
    exact hswitch
  | answered r w₁ hend =>
    rw [hend] at hswitch
    rw [← dispatch_login hend]
    simp only [Option.map_none, Option.toList_none, ite_self, withAnswer_store]
    exact hswitch
  | welcomed r login w₁ hend hid hsenders =>
    have hstays := Terminations.status_of_returned hlive hup hrun
    rw [hend] at hswitch
    rw [← dispatch_login hend]
    simp only [if_neg hstays, withAnswer_store]
    obtain ⟨id, hid⟩ := hid
    exact hswitch.fetched (getIdByLogin_ok hswitch hid).1

theorem represents_new (env : Env) (files : ℕ → Option Bytes) :
    Represents env (World.initial env files).store State.new where
  accounts := ⟨.nil, List.nodup_nil⟩
  nulFree := nofun
  wellFormed := wellFormed_new
  sound := sound_initial env files
  held := nofun
  lost := nofun
  friends :=
    have nobody : ∀ x, x ∉ users (World.initial env files).store := fun _ => Bool.false_ne_true
    ⟨fun x hx => absurd hx (nobody x), fun x hx => absurd hx (nobody x),
      fun x hx => absurd hx (nobody x)⟩
  letters := .nil

end

/-- No login with a NUL in it is asked for. -/
def NulFreeEvent : Event → Prop
  | .packet _ packetType body => NulFreeLogin packetType body
  | _ => True

instance : ∀ e, Decidable (NulFreeEvent e)
  | .packet _ packetType body => inferInstanceAs (Decidable (NulFreeLogin packetType body))
  | .restart | .connect | .disconnect _ | .cleanTokens => inferInstanceAs (Decidable True)

theorem simulates (env : Env) (hclock : Monotone env.clock)
    (hsha : Function.Injective (sha256 env)) :
    Simulations.Simulates (World.step env) (State.step tokenTtl) (shown env)
      (fun _ e => NulFreeEvent e) (fun w m => Represents env w.store m) := by
  intro w e m h hnul
  have hstepping := step_stepping env w e
  cases e with
  | packet c packetType body =>
    simp only [World.step, shown]
    split
    · rename_i hready
      have hup : w.status ≠ .terminated := by
        rw [hready.1]
        decide
      exact receive_represents hclock hsha h hnul hup hready.2
    · exact h
  | restart =>
    change Represents env (w.step env .restart).store m
    generalize w.step env .restart = w' at hstepping
    cases hstepping with
    | idle _ => exact h
    | restart => exact h.cleaned hclock
  | connect =>
    change Represents env (w.step env .connect).store m
    generalize w.step env .connect = w' at hstepping
    cases hstepping <;> exact h
  | disconnect c =>
    change Represents env (w.step env (.disconnect c)).store m
    generalize w.step env (.disconnect c) = w' at hstepping
    cases hstepping <;> exact h
  | cleanTokens =>
    change Represents env (w.step env .cleanTokens).store m
    generalize w.step env .cleanTokens = w' at hstepping
    cases hstepping with
    | idle _ => exact h
    | cleanTokens _ => exact h.cleaned hclock

/-- The state of the messenger after what the users have asked for in a run. -/
def played (env : Env) (files : ℕ → Option Bytes) (events : List Event) : Plain :=
  LabelledRuns.run (State.step tokenTtl) State.new
    (Simulations.shownRun (World.step env) (shown env) (World.initial env files) events)

theorem played_snoc (env : Env) (files : ℕ → Option Bytes) (events : List Event) (e : Event) :
    played env files (events ++ [e]) =
      LabelledRuns.run (State.step tokenTtl) (played env files events)
        (shown env (LabelledRuns.run (World.step env) (World.initial env files) events) e) := by
  rw [played, Simulations.shownRun_append, LabelledRuns.run_append]
  simp only [Simulations.shownRun, List.append_nil]
  rfl

theorem represents_run {env : Env} (hclock : Monotone env.clock)
    (hsha : Function.Injective (sha256 env)) (files : ℕ → Option Bytes) {events : List Event}
    (hnul : ∀ e ∈ events, NulFreeEvent e) :
    Represents env (LabelledRuns.run (World.step env) (World.initial env files) events).store
      (played env files events) :=
  (simulates env hclock hsha).run (represents_new env files)
    (LabelledRuns.along_of_forall hnul _)

theorem replied_of_answered {env : Env} (hclock : Monotone env.clock)
    (hsha : Function.Injective (sha256 env)) {w : World} {m : Plain} (h : Represents env w.store m)
    {c : ConnId} (hlive : (w.sessions c).isSome) {packetType : PacketType} {body : Bytes}
    (hnul : NulFreeLogin packetType body) {r : Response}
    (hanswered : AnsweredWith env w c packetType body r) :
    ∃ q, plainRequest packetType body = some q ∧
      Replied (m.reply tokenTtl (ask env w.store q)) r := by
  have hawaits := awaits_of_answered hanswered
  obtain ⟨w', before, hrun, hsent⟩ := hanswered
  have hcases := handlePacket_handling env packetType body hlive
  rw [hrun] at hcases
  have hswitch : ∃ l w₁, (dispatch env c packetType body).run w = .ok (some r, l) w₁ := by
    cases hcases with
    | answered r' w₁ hend =>
      obtain rfl := response_of_sent hend hawaits hsent
      exact ⟨none, w₁, hend⟩
    | welcomed r' login w₁ hend _ _ =>
      obtain rfl := response_of_sent hend hawaits hsent
      exact ⟨some login, w₁, hend⟩
  obtain ⟨l, w₁, hend⟩ := hswitch
  cases hplain : plainRequest packetType body with
  | none =>
    rcases dispatch_unasked env c w hplain with hother | ⟨e, hother⟩
    · cases hend.symm.trans hother
    · cases hend.symm.trans hother
  | some q =>
    exact ⟨q, rfl, (dispatch_follows hclock hsha c h hnul hplain).reply r l w₁ hend⟩

/-- After every run, restarts and ends by exceptions included, the tables stand for the
state that the plain messenger reaches by the users' requests, and every RESULT says what
the messenger replies in that state: the same token, the same consent, the same refusal. A
run in which the files of the database are overwritten counts up to there. -/
theorem refines_messenger (env : Env) (hclock : Monotone env.clock)
    (hsha : Function.Injective (sha256 env)) (files : ℕ → Option Bytes) (events : List Event)
    (hnul : ∀ e ∈ events, NulFreeEvent e) :
    Represents env (LabelledRuns.run (World.step env) (World.initial env files) events).store
        (played env files events) ∧
      ∀ (c : ConnId) (packetType : PacketType) (body : Bytes) (r : Response),
        ((LabelledRuns.run (World.step env) (World.initial env files) events).sessions c).isSome →
        NulFreeLogin packetType body →
        AnsweredWith env (LabelledRuns.run (World.step env) (World.initial env files) events) c
          packetType body r →
        ∃ q, plainRequest packetType body = some q ∧
          Replied ((played env files events).reply tokenTtl
            (ask env (LabelledRuns.run (World.step env) (World.initial env files) events).store q))
            r := by
  have h := represents_run hclock hsha files hnul
  exact ⟨h, fun c packetType body r hlive hlogin hanswered =>
    replied_of_answered hclock hsha h hlive hlogin hanswered⟩

theorem clock_plain_monotone : Monotone Env.plain.clock := fun _ _ h => Int.ofNat_le.mpr h

theorem nulFree_twoFriends : ∀ e ∈ twoFriends, NulFreeEvent e := by decide

/-- "c" writes to "a", who has befriended "c" before; the RESULT agrees. -/
theorem refines_messenger_written :
    ∃ r, AnsweredWith Env.plain
        (LabelledRuns.run (World.step Env.plain) (World.initial Env.plain fun _ => none) twoFriends)
        1 .directMessage (serialize (DirectMessageRequest.mk [97, 97, 97, 97] [97] [104])) r ∧
      Replied ((played Env.plain (fun _ => none) twoFriends).reply tokenTtl
        (ask Env.plain (LabelledRuns.run (World.step Env.plain)
          (World.initial Env.plain fun _ => none) twoFriends).store
          (.write [97, 97, 97, 97] [97] [104]))) r := by
  have hanswered : AnsweredWith Env.plain
      (LabelledRuns.run (World.step Env.plain) (World.initial Env.plain fun _ => none) twoFriends)
      1 .directMessage (serialize (DirectMessageRequest.mk [97, 97, 97, 97] [97] [104]))
      (.directMessage ⟨Error.Base.ok⟩) :=
    ⟨_, pushed (LabelledRuns.run (World.step Env.plain) (World.initial Env.plain fun _ => none)
      twoFriends) [97] [99] [104], rfl, by decide⟩
  refine ⟨_, hanswered, ?_⟩
  obtain ⟨q, hplain, hreplied⟩ :=
    (refines_messenger Env.plain clock_plain_monotone Registrations.sha256_plain_injective
      (fun _ => none) twoFriends nulFree_twoFriends).2 1 .directMessage _ _ (by decide) nofun
      hanswered
  have hwrite : plainRequest .directMessage
      (serialize (DirectMessageRequest.mk [97, 97, 97, 97] [97] [104])) =
      some (.write [97, 97, 97, 97] [97] [104]) := by decide
  obtain rfl := Option.some.inj (hplain.symm.trans hwrite)
  exact hreplied

end Messenger.Refinement
