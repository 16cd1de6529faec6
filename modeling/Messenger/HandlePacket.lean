import Messenger.HandlerActions
import Messenger.RoundTrip

/-!
What handle_packet does as a whole: the switch, then the welcome of an authenticated
user (its login, its backlog, its entry in the map), then the answer. Who a packet
authenticates is decided by the state before it, and each request that is answered at
all gets one answer, of the type its client waits for.
-/
namespace Messenger.HandlePacket

open KeyedTables Outcomes ClientSession UserRepository MessageRepository HandlerActions

/-- The login under which a packet logs its session in, by the tests its handler makes. -/
def authenticatesAs (env : Env) (w : World) (packetType : PacketType) (body : Bytes) :
    Option Bytes :=
  match packetType with
  | .register =>
    match deserialize AuthRequest body with
    | .ok req => if (w.store.db.findLogin req.login).isSome then none else some req.login
    | .error _ => none
  | .login =>
    match deserialize AuthRequest body with
    | .ok req =>
      if verifyPassword env req.login req.password w.store then some req.login else none
    | .error _ => none
  | .tokenVerify =>
    match deserialize TokenVerifyRequest body with
    | .ok req => tokenLogin env req.oldToken w.store
    | .error _ => none
  | _ => none

/-- A session opened by `self`: the new row and the token kept in the session. -/
def withToken (w : World) (self : ConnId) (store : Store) (token : Bytes) : World :=
  { w with
    store := store
    sessions := Function.update w.sessions self
      ((w.sessions self).map (fun s => { s with currentToken := token })) }

theorem isSome_withToken {w : World} {self : ConnId} (hlive : (w.sessions self).isSome)
    (store : Store) (token : Bytes) : ((withToken w self store token).sessions self).isSome := by
  obtain ⟨s, hs⟩ := Option.isSome_iff_exists.mp hlive
  simp [withToken, hs]

section

variable {env : Env} {self : ConnId} {body : Bytes} {w : World}

theorem decode_run {Derived Args : Type} [Serializable Derived Args] [TupleSerializer Args]
    {d : Derived} (h : deserialize Derived body = .ok d) (w : World) :
    (decode Derived body).run w = .ok d w := by
  unfold decode
  rw [h]
  rfl

theorem liftStore_run {α : Type} (m : StoreM α) (w : World) :
    (liftM m : ServerM α).run w = liftStore m w := rfl

/-- A LOGIN that decodes. -/
theorem handleLogin_cases (env : Env) (self : ConnId) (w : World) {req : AuthRequest}
    (hreq : deserialize AuthRequest body = .ok req) :
    (verifyPassword env req.login req.password w.store = false ∧
      (handleLogin env self body).run w =
        .ok (.auth ⟨[], Error.Auth.incorrectCredentials⟩, none) w) ∨
    (verifyPassword env req.login req.password w.store = true ∧
      ((∃ u, w.store.db.findLogin req.login = some u ∧
        w.store.db.findToken (env.uuid w.store.uuidsDrawn) = none ∧
        (handleLogin env self body).run w =
          .ok (.auth ⟨env.uuid w.store.uuidsDrawn, Error.Base.ok⟩, some req.login)
            (withToken w self
              (withSession w.store (env.uuid w.store.uuidsDrawn) u.id
                (env.clock w.store.clockReads))
              (env.uuid w.store.uuidsDrawn))) ∨
      ∃ e w', (handleLogin env self body).run w = .error e w')) := by
  simp only [handleLogin, EStateM.run_bind, decode_run hreq, liftStore_run, liftStore]
  rcases verifyUser_cases env req.login req.password w.store with
    ⟨hpw, hrun⟩ | ⟨hpw, ⟨u, hu, htoken, hrun⟩ | ⟨e, hrun⟩⟩
  · refine Or.inl ⟨hpw, ?_⟩
    simp only [hrun]
    rfl
  · refine Or.inr ⟨hpw, Or.inl ⟨u, hu, htoken, ?_⟩⟩
    simp only [hrun]
    rfl
  · refine Or.inr ⟨hpw, Or.inr ⟨e, ?_⟩⟩
    simp only [hrun]
    exact ⟨_, rfl⟩

/-- A REGISTER that decodes. -/
theorem handleRegister_cases (env : Env) (self : ConnId) (w : World) {req : AuthRequest}
    (hreq : deserialize AuthRequest body = .ok req) :
    ((w.store.db.findLogin req.login).isSome ∧
      (handleRegister env self body).run w =
        .ok (.auth ⟨[], Error.Auth.loginExists⟩, none) w) ∨
    (w.store.db.findLogin req.login = none ∧
      ((∃ salt hash store u, store = withUser w.store req.login salt hash ∧
        store.db.findLogin req.login = some u ∧
        store.db.findToken (env.uuid store.uuidsDrawn) = none ∧
        (handleRegister env self body).run w =
          .ok (.auth ⟨env.uuid store.uuidsDrawn, Error.Base.ok⟩, some req.login)
            (withToken w self
              (withSession store (env.uuid store.uuidsDrawn) u.id (env.clock store.clockReads))
              (env.uuid store.uuidsDrawn))) ∨
      ∃ e w', (handleRegister env self body).run w = .error e w')) := by
  simp only [handleRegister, EStateM.run_bind, decode_run hreq, liftStore_run, liftStore]
  rcases registerUser_cases env req.login req.password w.store with
    ⟨htaken, hreg⟩ | ⟨hfree, hreg⟩
  · refine Or.inl ⟨htaken, ?_⟩
    simp only [hreg]
    rfl
  · refine Or.inr ⟨hfree, ?_⟩
    generalize hstore : withUser w.store req.login (env.uuid w.store.uuidsDrawn)
      (sha256 env (req.password ++ env.uuid w.store.uuidsDrawn)) = store at hreg
    simp only [hreg, base_ok, if_true, EStateM.run_bind, liftStore_run, liftStore]
    rcases verifyUser_cases env req.login req.password store with
      ⟨-, hrun⟩ | ⟨-, ⟨u, hu, htoken, hrun⟩ | ⟨e, hrun⟩⟩
    · refine Or.inr ⟨.badExpectedAccess, ?_⟩
      simp only [hrun]
      exact ⟨_, rfl⟩
    · refine Or.inl ⟨_, _, store, u, hstore.symm, hu, htoken, ?_⟩
      simp only [hrun]
      rfl
    · refine Or.inr ⟨e, ?_⟩
      simp only [hrun]
      exact ⟨_, rfl⟩

/-- A TOKEN_VERIFY that decodes. -/
theorem handleTokenVerify_cases (env : Env) (self : ConnId) (w : World) {req : TokenVerifyRequest}
    (hreq : deserialize TokenVerifyRequest body = .ok req) :
    ∃ r store, Lookup env req.oldToken w.store r store ∧
      ((∃ login, r = .ok login ∧
        (handleTokenVerify env self body).run w =
          .ok (.tokenVerify ⟨Error.Base.ok⟩, some login)
            (withToken w self store req.oldToken)) ∨
      ∃ e, r = .error e ∧
        (handleTokenVerify env self body).run w =
          .ok (.tokenVerify ⟨e⟩, none) { w with store := store }) := by
  obtain ⟨r, store, hrun, hlook⟩ := getLoginByToken_run env req.oldToken w.store
  refine ⟨r, store, hlook, ?_⟩
  simp only [handleTokenVerify, EStateM.run_bind, decode_run hreq, liftStore_run, liftStore, hrun]
  cases r with
  | ok login => exact Or.inl ⟨login, rfl, rfl⟩
  | error e => exact Or.inr ⟨e, rfl, rfl⟩

theorem answerAuth_ok {m : ServerM (Response × Option Bytes)} {w w' : World}
    {r : Option Response} {l : Option Bytes} (h : (answerAuth m).run w = .ok (r, l) w') :
    ∃ response, m.run w = .ok (response, l) w' ∧ r = some response := by
  rw [answerAuth, EStateM.run_bind] at h
  cases hm : m.run w with
  | ok a w₁ =>
    rw [hm] at h
    cases h
    exact ⟨a.1, rfl, rfl⟩
  | error e w₁ =>
    rw [hm] at h
    cases h

theorem answerAuth_run {m : ServerM (Response × Option Bytes)} {w w' : World}
    {a : Response × Option Bytes} (h : m.run w = .ok a w') :
    (answerAuth m).run w = .ok (some a.1, a.2) w' := by
  rw [answerAuth, EStateM.run_bind, h]
  rfl

theorem deserialize_of_decode_ok {Derived Args β : Type} [Serializable Derived Args]
    [TupleSerializer Args] {rest : Derived → ServerM β} {w w' : World} {b : β}
    (h : (decode Derived body >>= rest).run w = .ok b w') :
    ∃ d, deserialize Derived body = .ok d := by
  cases hd : deserialize Derived body with
  | ok d => exact ⟨d, rfl⟩
  | error e =>
    rw [EStateM.run_bind, decode, hd] at h
    cases h

theorem login_of_handleRegister {r : Response} {l : Option Bytes} {w' : World}
    (h : (handleRegister env self body).run w = .ok (r, l) w') :
    l = authenticatesAs env w .register body := by
  obtain ⟨req, hreq⟩ := deserialize_of_decode_ok h
  simp only [authenticatesAs, hreq]
  rcases handleRegister_cases env self w hreq with
    ⟨htaken, hcase⟩ | ⟨hfree, ⟨salt, hash, store, u, -, -, -, hcase⟩ | ⟨e, w₁, hcase⟩⟩
  · rw [hcase] at h
    cases h
    rw [if_pos htaken]
  · rw [hcase] at h
    cases h
    rw [hfree]
    rfl
  · rw [hcase] at h
    cases h

theorem login_of_handleLogin {r : Response} {l : Option Bytes} {w' : World}
    (h : (handleLogin env self body).run w = .ok (r, l) w') :
    l = authenticatesAs env w .login body := by
  obtain ⟨req, hreq⟩ := deserialize_of_decode_ok h
  simp only [authenticatesAs, hreq]
  rcases handleLogin_cases env self w hreq with
    ⟨hpw, hcase⟩ | ⟨hpw, ⟨u, -, -, hcase⟩ | ⟨e, w₁, hcase⟩⟩
  · rw [hcase] at h
    cases h
    rw [hpw]
    rfl
  · rw [hcase] at h
    cases h
    rw [hpw]
    rfl
  · rw [hcase] at h
    cases h

theorem login_of_handleTokenVerify {r : Response} {l : Option Bytes} {w' : World}
    (h : (handleTokenVerify env self body).run w = .ok (r, l) w') :
    l = authenticatesAs env w .tokenVerify body := by
  obtain ⟨req, hreq⟩ := deserialize_of_decode_ok h
  simp only [authenticatesAs, hreq]
  obtain ⟨verdict, store, hlook, ⟨login, rfl, hcase⟩ | ⟨e, rfl, hcase⟩⟩ :=
    handleTokenVerify_cases env self w hreq
  · rw [hcase] at h
    cases h
    exact hlook.login
  · rw [hcase] at h
    cases h
    exact hlook.login

theorem login_of_answer {m : ServerM Response} {r : Option Response} {l : Option Bytes}
    {w' : World} (h : (answer m).run w = .ok (r, l) w') : l = none := by
  have hreturns : Returns (fun a : Option Response × Option Bytes => a.2 = none) (answer m) :=
    returns_bind fun _ => returns_pure rfl
  exact hreturns _ _ _ h

/-- The switch hands on a login exactly when the tests on the state before it say so. -/
theorem dispatch_login {packetType : PacketType} {r : Option Response} {l : Option Bytes}
    {w' : World} (h : (dispatch env self packetType body).run w = .ok (r, l) w') :
    l = authenticatesAs env w packetType body := by
  cases packetType with
  | register =>
    obtain ⟨response, hrun, -⟩ := answerAuth_ok h
    exact login_of_handleRegister hrun
  | login =>
    obtain ⟨response, hrun, -⟩ := answerAuth_ok h
    exact login_of_handleLogin hrun
  | tokenVerify =>
    obtain ⟨response, hrun, -⟩ := answerAuth_ok h
    exact login_of_handleTokenVerify hrun
  | message => exact login_of_answer h
  | upload => exact login_of_answer h
  | download => exact login_of_answer h
  | friendRequest => exact login_of_answer h
  | friendAccept => exact login_of_answer h
  | friendReject => exact login_of_answer h
  | friendList => exact login_of_answer h
  | directMessage => exact login_of_answer h
  | messageHistory => exact login_of_answer h
  | chatList => exact login_of_answer h
  | logout =>
    have hreturns : Returns (fun a : Option Response × Option Bytes => a.2 = none)
        (dispatch env self .logout body) := returns_bind fun _ => returns_pure rfl
    exact hreturns _ _ _ h
  | result =>
    cases h
    rfl
  | friendNewRequest =>
    cases h
    rfl
  | friendRequestAccepted =>
    cases h
    rfl
  | friendRequestRejected =>
    cases h
    rfl
  | unnamed value hvalue =>
    cases h
    rfl

end

/-- The response struct of each request that is answered with a RESULT. -/
def answers : PacketType → Response → Bool
  | .register, .auth _ => true
  | .login, .auth _ => true
  | .message, .chat _ => true
  | .upload, .fileUpload _ => true
  | .download, .fileDownload _ => true
  | .friendRequest, .friend _ => true
  | .friendAccept, .friend _ => true
  | .friendReject, .friend _ => true
  | .friendList, .friendList _ => true
  | .directMessage, .directMessage _ => true
  | .messageHistory, .history _ => true
  | .tokenVerify, .tokenVerify _ => true
  | .chatList, .chatList _ => true
  | _, _ => false

/-- The requests after which the client has to wait for a RESULT. -/
def awaitsResult : PacketType → Bool
  | .register | .login | .message | .upload | .download => true
  | .friendRequest | .friendAccept | .friendReject | .friendList => true
  | .directMessage | .messageHistory | .tokenVerify | .chatList => true
  | _ => false

/-- The answer fits its request: one of the right struct where one is awaited, or none. -/
def FitsRequest (packetType : PacketType) : Option Response → Prop
  | some response => answers packetType response = true
  | none => awaitsResult packetType = false

section

variable (env : Env) (self : ConnId) (body : Bytes)

theorem handleRegister_returns :
    Returns (fun a => ∃ r, a.1 = .auth r) (handleRegister env self body) := by
  refine returns_bind fun req => returns_bind fun err => returns_ite ?_ ?_
  · exact returns_bind fun _ => returns_bind fun _ => returns_bind fun _ =>
      returns_pure ⟨_, rfl⟩
  · exact returns_pure ⟨_, rfl⟩

theorem handleLogin_returns :
    Returns (fun a => ∃ r, a.1 = .auth r) (handleLogin env self body) := by
  refine returns_bind fun req => returns_bind fun token => ?_
  cases token with
  | ok token => exact returns_bind fun _ => returns_pure ⟨_, rfl⟩
  | error e => exact returns_pure ⟨_, rfl⟩

theorem handleTokenVerify_returns :
    Returns (fun a => ∃ r, a.1 = .tokenVerify r) (handleTokenVerify env self body) := by
  refine returns_bind fun req => returns_bind fun login => ?_
  cases login with
  | ok login => exact returns_bind fun _ => returns_pure ⟨_, rfl⟩
  | error e => exact returns_pure ⟨_, rfl⟩

theorem handleMessage_returns : Returns (fun a => ∃ r, a = .chat r) (handleMessage env body) := by
  refine returns_bind fun req => returns_bind fun login => ?_
  cases login with
  | ok login => exact returns_bind fun _ => returns_pure ⟨_, rfl⟩
  | error e => exact returns_pure ⟨_, rfl⟩

theorem handleUpload_returns :
    Returns (fun a => ∃ r, a = .fileUpload r) (handleUpload env body) := by
  refine returns_bind fun req => returns_bind fun login => ?_
  cases login with
  | ok login => exact returns_bind fun _ => returns_bind fun _ => returns_pure ⟨_, rfl⟩
  | error e => exact returns_pure ⟨_, rfl⟩

theorem handleDownload_returns :
    Returns (fun a => ∃ r, a = .fileDownload r) (handleDownload env body) := by
  refine returns_bind fun req => returns_bind fun login => ?_
  cases login with
  | ok login => exact returns_bind fun _ => returns_bind fun _ => returns_pure ⟨_, rfl⟩
  | error e => exact returns_pure ⟨_, rfl⟩

theorem handleFriend_returns (operation : ℤ → ℤ → StoreM ErrorCode) (notice : PacketType) :
    Returns (fun a => ∃ r, a = .friend r) (handleFriend operation notice env body) := by
  refine returns_bind fun req => returns_bind fun login => ?_
  cases login with
  | error e => exact returns_pure ⟨_, rfl⟩
  | ok login =>
    refine returns_bind fun exists_ => returns_ite (returns_pure ⟨_, rfl⟩) ?_
    refine returns_bind fun senderId => returns_bind fun targetId => returns_ite ?_ ?_
    · refine returns_bind fun senderError => returns_ite ?_ ?_
      · exact returns_bind fun _ => returns_pure ⟨_, rfl⟩
      · exact returns_bind fun _ => returns_pure ⟨_, rfl⟩
    · refine returns_bind fun _ => returns_bind fun _ => returns_bind fun _ => ?_
      refine returns_ite (returns_pure ⟨_, rfl⟩) (returns_bind fun online => ?_)
      cases online with
      | some sess => exact returns_bind fun _ => returns_pure ⟨_, rfl⟩
      | none => exact returns_pure ⟨_, rfl⟩

theorem handleFriendList_returns :
    Returns (fun a => ∃ r, a = .friendList r) (handleFriendList env body) := by
  refine returns_bind fun req => returns_bind fun login => ?_
  cases login with
  | error e => exact returns_pure ⟨_, rfl⟩
  | ok login =>
    exact returns_bind fun _ => returns_bind fun _ => returns_bind fun _ => returns_bind fun _ =>
      returns_bind fun _ => returns_bind fun _ => returns_pure ⟨_, rfl⟩

theorem handleMessageHistory_returns :
    Returns (fun a => ∃ r, a = .history r) (handleMessageHistory env body) := by
  refine returns_bind fun req => returns_bind fun login => ?_
  cases login with
  | error e => exact returns_pure ⟨_, rfl⟩
  | ok login =>
    exact returns_bind fun _ => returns_bind fun _ => returns_bind fun _ => returns_bind fun _ =>
      returns_bind fun _ => returns_bind fun _ => returns_pure ⟨_, rfl⟩

theorem handleDirectMessage_returns :
    Returns (fun a => ∃ r, a = .directMessage r) (handleDirectMessage env body) := by
  refine returns_bind fun req => returns_bind fun login => ?_
  cases login with
  | error e => exact returns_pure ⟨_, rfl⟩
  | ok login =>
    refine returns_bind fun existsErr => returns_ite (returns_pure ⟨_, rfl⟩) ?_
    refine returns_bind fun _ => returns_bind fun _ => returns_bind fun _ => returns_bind fun _ =>
      returns_bind fun _ => ?_
    refine returns_ite (returns_pure ⟨_, rfl⟩) ?_
    refine returns_bind fun online => returns_bind fun ts => ?_
    cases online with
    | some sess => exact returns_bind fun _ => returns_pure ⟨_, rfl⟩
    | none => exact returns_pure ⟨_, rfl⟩

theorem handleChatList_returns :
    Returns (fun a => ∃ r, a = .chatList r) (handleChatList env body) := by
  refine returns_bind fun req => returns_bind fun login => ?_
  cases login with
  | error e => exact returns_pure ⟨_, rfl⟩
  | ok login =>
    refine returns_bind fun id => ?_
    cases id with
    | error e => exact returns_bind fun _ => returns_pure ⟨_, rfl⟩
    | ok id => exact returns_bind fun _ => returns_pure ⟨_, rfl⟩

theorem answer_returns {m : ServerM Response} {Q : Response → Prop} (h : Returns Q m) :
    Returns (fun a => ∃ r, a.1 = some r ∧ Q r) (answer m) := by
  intro w a w' hrun
  rw [answer, EStateM.run_bind] at hrun
  cases hm : m.run w with
  | ok r w₁ =>
    rw [hm] at hrun
    cases hrun
    exact ⟨r, rfl, h _ _ _ hm⟩
  | error e w₁ =>
    rw [hm] at hrun
    cases hrun

/-- Every branch of every handler answers with its own struct, or throws. -/
theorem dispatch_fitsRequest (packetType : PacketType) :
    Returns (fun a => FitsRequest packetType a.1) (dispatch env self packetType body) := by
  have plain : ∀ (m : ServerM Response) (Q : Response → Prop), Returns Q m →
      (∀ r, Q r → answers packetType r = true) →
      Returns (fun a => FitsRequest packetType a.1) (answer m) := by
    intro m Q hm hQ w a w' hrun
    obtain ⟨r, hr, hq⟩ := answer_returns hm _ _ _ hrun
    rw [hr]
    exact hQ r hq
  have auth : ∀ (m : ServerM (Response × Option Bytes)) (Q : Response → Prop),
      Returns (fun a => Q a.1) m → (∀ r, Q r → answers packetType r = true) →
      Returns (fun a => FitsRequest packetType a.1) (answerAuth m) := by
    intro m Q hm hQ w a w' hrun
    obtain ⟨response, hrun', hr⟩ := answerAuth_ok hrun
    rw [hr]
    exact hQ response (hm _ _ _ hrun')
  cases packetType with
  | register =>
    exact auth _ (fun x => ∃ r, x = .auth r) (handleRegister_returns env self body)
      (by rintro _ ⟨r, rfl⟩; rfl)
  | login =>
    exact auth _ (fun x => ∃ r, x = .auth r) (handleLogin_returns env self body)
      (by rintro _ ⟨r, rfl⟩; rfl)
  | tokenVerify =>
    exact auth _ (fun x => ∃ r, x = .tokenVerify r) (handleTokenVerify_returns env self body)
      (by rintro _ ⟨r, rfl⟩; rfl)
  | message => exact plain _ _ (handleMessage_returns env body) (by rintro _ ⟨r, rfl⟩; rfl)
  | upload => exact plain _ _ (handleUpload_returns env body) (by rintro _ ⟨r, rfl⟩; rfl)
  | download => exact plain _ _ (handleDownload_returns env body) (by rintro _ ⟨r, rfl⟩; rfl)
  | friendRequest =>
    exact plain _ _ (handleFriend_returns env body _ _) (by rintro _ ⟨r, rfl⟩; rfl)
  | friendAccept =>
    exact plain _ _ (handleFriend_returns env body _ _) (by rintro _ ⟨r, rfl⟩; rfl)
  | friendReject =>
    exact plain _ _ (handleFriend_returns env body _ _) (by rintro _ ⟨r, rfl⟩; rfl)
  | friendList => exact plain _ _ (handleFriendList_returns env body) (by rintro _ ⟨r, rfl⟩; rfl)
  | directMessage =>
    exact plain _ _ (handleDirectMessage_returns env body) (by rintro _ ⟨r, rfl⟩; rfl)
  | messageHistory =>
    exact plain _ _ (handleMessageHistory_returns env body) (by rintro _ ⟨r, rfl⟩; rfl)
  | chatList => exact plain _ _ (handleChatList_returns env body) (by rintro _ ⟨r, rfl⟩; rfl)
  | logout => exact returns_bind fun _ => returns_pure rfl
  | result => exact returns_pure rfl
  | friendNewRequest => exact returns_pure rfl
  | friendRequestAccepted => exact returns_pure rfl
  | friendRequestRejected => exact returns_pure rfl
  | unnamed value hvalue => exact returns_pure rfl

end

/-- Every answer ends with its error code, so none is empty. -/
theorem serialize_response (r : Response) :
    ∃ front, r.serialize = front ++ htonl r.error.value := by
  cases r <;> exact ⟨_, rfl⟩

theorem serialize_response_ne_nil (r : Response) : r.serialize ≠ [] := by
  obtain ⟨front, h⟩ := serialize_response r
  intro hnil
  have hlen := congrArg List.length (h.symm.trans hnil)
  rw [List.length_append, htonl_length, List.length_nil] at hlen
  omega

/-- The undelivered messages of the user with this login, in the order of delivery. -/
def backlog (env : Env) (login : Bytes) (st : Store) : List StoredMessage :=
  match getIdByLogin login st with
  | .ok id => getUndelivered env id st
  | .error _ => []

/-- The packet that hands one message of a backlog over. -/
def backlogPacket (st : Store) (self : ConnId) (asLogin : Bytes) (el : StoredMessage) : Sent where
  conn := self
  packetType := .directMessage
  body :=
    match getLoginById el.sender st with
    | .ok senderLogin =>
      serialize (DirectMessageIncoming.mk senderLogin el.message (Int64.ofInt el.timestamp))
    | .error _ => []
  cause := .pending el.id
  asLogin := asLogin

def withHanded (w : World) (self : ConnId) (messages : List StoredMessage) : World :=
  { w with
    sent := w.sent ++ messages.map (backlogPacket w.store self (w.currentLogin self)) }

/-- Every message of a list was sent by a user that has a login. -/
def SendersFound (st : Store) (messages : List StoredMessage) : Prop :=
  ∀ el ∈ messages, ∃ senderLogin, getLoginById el.sender st = .ok senderLogin

/-- All messages are handed over, or those before the one whose sender has no login. -/
theorem deliverLoop_cases (self : ConnId) (pending : List StoredMessage) (w : World) :
    (SendersFound w.store pending ∧ (deliverLoop self pending).run w =
        .ok (pending.map StoredMessage.id) (withHanded w self pending)) ∨
      ∃ handed, ¬ SendersFound w.store pending ∧ handed <+: pending ∧
        (deliverLoop self pending).run w =
          .error .badExpectedAccess (withHanded w self handed) := by
  induction pending generalizing w with
  | nil =>
    refine Or.inl ⟨fun el hel => absurd hel List.not_mem_nil, ?_⟩
    simp only [withHanded, List.map_nil, List.append_nil]
    rfl
  | cons el rest ih =>
    simp only [deliverLoop, EStateM.run_bind, query_run]
    cases hlogin : getLoginById el.sender w.store with
    | error e =>
      refine Or.inr ⟨[], fun hfound => ?_, List.nil_prefix, ?_⟩
      · obtain ⟨senderLogin, hsender⟩ := hfound el List.mem_cons_self
        cases hlogin.symm.trans hsender
      · simp only [withHanded, List.map_nil, List.append_nil]
        rfl
    | ok senderLogin =>
      have hsend : (sendPacket self .directMessage
          (serialize (DirectMessageIncoming.mk senderLogin el.message (Int64.ofInt el.timestamp)))
          (.pending el.id)).run w = .ok () (withHanded w self [el]) := by
        simp only [withHanded, List.map_cons, List.map_nil, backlogPacket, hlogin]
        rfl
      have hrest : ∀ messages, withHanded (withHanded w self [el]) self messages =
          withHanded w self (el :: messages) := by
        intro messages
        simp only [withHanded, List.map_cons, List.map_nil, List.append_assoc,
          List.singleton_append]
        rfl
      have hvalue : (valueOf (.ok senderLogin : Except ErrorCode Bytes)).run w =
          .ok senderLogin w := rfl
      simp only [hvalue, hsend]
      rcases ih (withHanded w self [el]) with ⟨hfound, hok⟩ | ⟨handed, hlost, hpre, herror⟩
      · refine Or.inl ⟨List.forall_mem_cons.mpr ⟨⟨senderLogin, hlogin⟩, hfound⟩, ?_⟩
        rw [hok, hrest]
        rfl
      · refine Or.inr ⟨el :: handed, fun hfound => hlost (List.forall_mem_cons.mp hfound).2,
          List.cons_prefix_cons.mpr ⟨rfl, hpre⟩, ?_⟩
        rw [herror, hrest]

theorem withDelivered_nil (st : Store) : withDelivered st [] = st := by
  obtain ⟨⟨users, friendships, ⟨rows, seq, ordered, bounded⟩, sessions⟩, reads, drawn⟩ := st
  simp [withDelivered, Table.update]

/-- The state after a backlog was handed over and marked. -/
def withDeliveredBacklog (w : World) (self : ConnId) (messages : List StoredMessage) : World :=
  { withHanded w self messages with
    store := withDelivered w.store (messages.map StoredMessage.id) }

/-- The backlog is handed over and marked, or somebody has no login, or it is too long to
be marked in one statement. -/
theorem deliverPending_cases (env : Env) (self : ConnId) (w : World) :
    ((∃ id, getIdByLogin (w.currentLogin self) w.store = .ok id) ∧
      SendersFound w.store (backlog env (w.currentLogin self) w.store) ∧
      (backlog env (w.currentLogin self) w.store).length ≤ maxVariableNumber ∧
      (deliverPending env self).run w = .ok ()
        (withDeliveredBacklog w self (backlog env (w.currentLogin self) w.store))) ∨
    (∃ handed, ((∃ e, getIdByLogin (w.currentLogin self) w.store = .error e) ∨
        ¬ SendersFound w.store (backlog env (w.currentLogin self) w.store)) ∧
      handed <+: backlog env (w.currentLogin self) w.store ∧
      (deliverPending env self).run w = .error .badExpectedAccess (withHanded w self handed)) ∨
    (maxVariableNumber < (backlog env (w.currentLogin self) w.store).length ∧
      (deliverPending env self).run w = .error (.sqliteException "too many SQL variables")
        (withHanded w self (backlog env (w.currentLogin self) w.store))) := by
  simp only [deliverPending, EStateM.run_bind, EStateM.run_get, query_run, backlog]
  cases hid : getIdByLogin (w.currentLogin self) w.store with
  | error e =>
    refine Or.inr (Or.inl ⟨[], Or.inl ⟨e, rfl⟩, List.nil_prefix, ?_⟩)
    simp only [withHanded, List.map_nil, List.append_nil]
    rfl
  | ok id =>
    have hvalue : (valueOf (.ok id : Except ErrorCode ℤ)).run w = .ok id w := rfl
    simp only [hvalue]
    cases hpending : getUndelivered env id w.store with
    | nil =>
      refine Or.inl ⟨⟨id, rfl⟩, fun el hel => absurd hel List.not_mem_nil, Nat.zero_le _, ?_⟩
      simp only [withDeliveredBacklog, withHanded, List.map_nil, List.append_nil,
        withDelivered_nil]
      rfl
    | cons el rest =>
      simp only [List.isEmpty_cons, Bool.false_eq_true, if_false, EStateM.run_bind]
      rcases deliverLoop_cases self (el :: rest) w with
        ⟨hfound, hok⟩ | ⟨handed, hlost, hpre, herror⟩
      · simp only [hok, liftStore_run, liftStore]
        have hstore : (withHanded w self (el :: rest)).store = w.store := rfl
        rcases markDelivered_cases ((el :: rest).map StoredMessage.id) w.store with
          ⟨hshort, hmark⟩ | ⟨hlong, hmark⟩
        · rw [List.length_map] at hshort
          refine Or.inl ⟨⟨id, rfl⟩, hfound, hshort, ?_⟩
          simp only [hstore, hmark]
          rfl
        · rw [List.length_map] at hlong
          refine Or.inr (Or.inr ⟨hlong, ?_⟩)
          simp only [hstore, hmark]
          rfl
      · refine Or.inr (Or.inl ⟨handed, Or.inr hlost, hpre, ?_⟩)
        simp only [herror]

def withLogin (w : World) (self : ConnId) (login : Bytes) : World :=
  { w with
    sessions := Function.update w.sessions self
      ((w.sessions self).map (fun s => { s with currentLogin := login })) }

/-- The whole welcome: login, backlog, map entry. -/
def welcomed (env : Env) (w : World) (self : ConnId) (login : Bytes) : World :=
  { withDeliveredBacklog (withLogin w self login) self (backlog env login w.store) with
    onlineUsers := w.onlineUsers.insert login self }

def withAnswer (w : World) (self : ConnId) (packetType : PacketType) :
    Option Response → World
  | some r =>
    { w with
      sent := w.sent ++
        [⟨self, .result, r.serialize, .result packetType r, w.currentLogin self⟩] }
  | none => w

theorem respond_run (self : ConnId) (packetType : PacketType) (r : Option Response) (w : World) :
    (respond self packetType r).run w = .ok () (withAnswer w self packetType r) := by
  cases r with
  | none => rfl
  | some r =>
    have hne : r.serialize.isEmpty = false := by
      rw [List.isEmpty_eq_false_iff]
      exact serialize_response_ne_nil r
    simp only [respond, hne, Bool.false_eq_true, if_false]
    rfl

theorem currentLogin_withLogin {w : World} {self : ConnId} (hlive : (w.sessions self).isSome)
    (login : Bytes) : (withLogin w self login).currentLogin self = login := by
  obtain ⟨s, hs⟩ := Option.isSome_iff_exists.mp hlive
  simp [withLogin, World.currentLogin, hs]

theorem welcomed_sent (env : Env) {w : World} {self : ConnId}
    (hlive : (w.sessions self).isSome) (login : Bytes) :
    (welcomed env w self login).sent =
      w.sent ++ (backlog env login w.store).map (backlogPacket w.store self login) := by
  simp only [welcomed, withDeliveredBacklog, withHanded, currentLogin_withLogin hlive]
  rfl

section

variable {env : Env} {self : ConnId} {packetType : PacketType} {body : Bytes} {w w₁ : World}

theorem handlePacket_thrown {e : Exn}
    (hrun : (dispatch env self packetType body).run w = .error e w₁) :
    (handlePacket env self packetType body).run w = .error e w₁ := by
  simp only [handlePacket, EStateM.run_bind, hrun]

/-- When nobody has been authenticated only the RESULT is left to do. -/
theorem handlePacket_answered {r : Option Response}
    (hrun : (dispatch env self packetType body).run w = .ok (r, none) w₁) :
    (handlePacket env self packetType body).run w = .ok () (withAnswer w₁ self packetType r) := by
  have hwelcome : (welcome env self none).run w₁ = .ok () w₁ := rfl
  simp only [handlePacket, EStateM.run_bind, hrun, hwelcome, respond_run]

/-- A backlog that cannot be handed over or marked ends the handling. -/
theorem handlePacket_undelivered {r : Option Response} {login : Bytes} {e : Exn} {w₂ : World}
    (hrun : (dispatch env self packetType body).run w = .ok (r, some login) w₁)
    (herror : (deliverPending env self).run (withLogin w₁ self login) = .error e w₂) :
    (handlePacket env self packetType body).run w = .error e w₂ := by
  have hset : (modifySession self (fun s => { s with currentLogin := login })).run w₁ =
      .ok () (withLogin w₁ self login) := rfl
  simp only [handlePacket, EStateM.run_bind, hrun, welcome, hset, herror]

/-- Otherwise the map entry and the RESULT follow. -/
theorem handlePacket_delivered {r : Option Response} {login : Bytes}
    (hrun : (dispatch env self packetType body).run w = .ok (r, some login) w₁)
    (hdelivered : (deliverPending env self).run (withLogin w₁ self login) =
      .ok () (withDeliveredBacklog (withLogin w₁ self login) self (backlog env login w₁.store))) :
    (handlePacket env self packetType body).run w =
      .ok () (withAnswer (welcomed env w₁ self login) self packetType r) := by
  have hset : (modifySession self (fun s => { s with currentLogin := login })).run w₁ =
      .ok () (withLogin w₁ self login) := rfl
  have hadd : (SessionManager.addUser login self).run
      (withDeliveredBacklog (withLogin w₁ self login) self (backlog env login w₁.store)) =
      .ok () (welcomed env w₁ self login) := rfl
  simp only [handlePacket, EStateM.run_bind, hrun, welcome, hset, hdelivered, hadd, respond_run]

end

/-- The four ways in which handle_packet ends on a live session. -/
inductive Handling (env : Env) (self : ConnId) (packetType : PacketType) (body : Bytes)
    (w : World) : EStateM.Result Exn World Unit → Prop where
  | thrown (e : Exn) (w₁ : World)
      (hrun : (dispatch env self packetType body).run w = .error e w₁) :
      Handling env self packetType body w (.error e w₁)
  | answered (r : Option Response) (w₁ : World)
      (hrun : (dispatch env self packetType body).run w = .ok (r, none) w₁) :
      Handling env self packetType body w (.ok () (withAnswer w₁ self packetType r))
  | undelivered (r : Option Response) (login : Bytes) (w₁ : World) (e : Exn)
      (handed : List StoredMessage)
      (hrun : (dispatch env self packetType body).run w = .ok (r, some login) w₁)
      (hhanded : handed <+: backlog env login w₁.store) :
      Handling env self packetType body w
        (.error e (withHanded (withLogin w₁ self login) self handed))
  | welcomed (r : Option Response) (login : Bytes) (w₁ : World)
      (hrun : (dispatch env self packetType body).run w = .ok (r, some login) w₁)
      (hid : ∃ id, getIdByLogin login w₁.store = .ok id)
      (hsenders : SendersFound w₁.store (backlog env login w₁.store)) :
      Handling env self packetType body w
        (.ok () (withAnswer (welcomed env w₁ self login) self packetType r))

theorem authenticating_of_authenticatesAs {env : Env} {w : World} {packetType : PacketType}
    {body login : Bytes} (h : authenticatesAs env w packetType body = some login) :
    Authenticating packetType := by
  cases packetType with
  | register => exact Or.inl rfl
  | login => exact Or.inr (Or.inl rfl)
  | tokenVerify => exact Or.inr (Or.inr rfl)
  | _ => cases h

/-- An authentication that succeeds has touched nothing but accounts before the welcome. -/
theorem unseen_of_dispatch {env : Env} {self : ConnId} {packetType : PacketType} {body : Bytes}
    {w w₁ : World} {r : Option Response} {login : Bytes}
    (h : (dispatch env self packetType body).run w = .ok (r, some login) w₁) :
    authenticatesAs env w packetType body = some login ∧ Unseen env w w₁ := by
  have hauth := (dispatch_login h).symm
  have hunseen := unseen_of_moves
    (dispatch_accounts env self body w (authenticating_of_authenticatesAs hauth))
  rw [h] at hunseen
  exact ⟨hauth, hunseen⟩

theorem handlePacket_handling (env : Env) (packetType : PacketType) (body : Bytes)
    {self : ConnId} {w : World} (hlive : (w.sessions self).isSome) :
    Handling env self packetType body w ((handlePacket env self packetType body).run w) := by
  cases hrun : (dispatch env self packetType body).run w with
  | error e w₁ =>
    rw [handlePacket_thrown hrun]
    exact .thrown e w₁ hrun
  | ok a w₁ =>
    obtain ⟨r, l⟩ := a
    cases l with
    | none =>
      rw [handlePacket_answered hrun]
      exact .answered r w₁ hrun
    | some login =>
      obtain ⟨-, hunseen⟩ := unseen_of_dispatch hrun
      have hcurrent := currentLogin_withLogin (hunseen.logins.live hlive) login
      have hstore : (withLogin w₁ self login).store = w₁.store := rfl
      have hcases := deliverPending_cases env self (withLogin w₁ self login)
      rw [hcurrent, hstore] at hcases
      rcases hcases with ⟨hid, hfound, -, hok⟩ | ⟨handed, -, hhanded, herror⟩ | ⟨-, herror⟩
      · rw [handlePacket_delivered hrun hok]
        exact .welcomed r login w₁ hrun hid hfound
      · rw [handlePacket_undelivered hrun herror]
        exact .undelivered r login w₁ _ handed hrun hhanded
      · rw [handlePacket_undelivered hrun herror]
        exact .undelivered r login w₁ _ _ hrun List.prefix_rfl

/-- What holds after the switch and is kept by the welcome, by the answer and by the end of
the server holds after the packet. -/
theorem receive_preserves {P : World → Prop} (env : Env) {self : ConnId}
    {packetType : PacketType} {body : Bytes} {w : World} (hlive : (w.sessions self).isSome)
    (hhanded : ∀ w login messages, P w → P (withHanded (withLogin w self login) self messages))
    (hwelcomed : ∀ w login, P w → P (welcomed env w self login))
    (hanswer : ∀ w r, P w → P (withAnswer w self packetType r))
    (hterminate : ∀ w, P w → P w.terminate)
    (h : P (final ((dispatch env self packetType body).run w))) :
    P (w.receive env self packetType body) := by
  have hcases := handlePacket_handling env packetType body hlive
  unfold World.receive
  generalize (handlePacket env self packetType body).run w = result at hcases
  cases hcases with
  | thrown e w₁ hrun =>
    rw [hrun] at h
    exact hterminate _ h
  | answered r w₁ hrun =>
    rw [hrun] at h
    exact hanswer _ r h
  | undelivered r login w₁ e handed hrun _ =>
    rw [hrun] at h
    exact hterminate _ (hhanded _ login handed h)
  | welcomed r login w₁ hrun _ _ =>
    rw [hrun] at h
    exact hanswer _ r (hwelcomed _ login h)

def withoutLogin (w : World) (self : ConnId) (store : Store) : World :=
  { w with
    store := store
    sessions := Function.update w.sessions self ((w.sessions self).map (fun _ => ⟨[], []⟩)) }

/-- A LOGOUT that decodes drops the token it names and clears its own session; it leaves
the map alone, and nothing else happens. -/
theorem dispatch_logout (env : Env) (self : ConnId) (body : Bytes) (w : World) :
    (∃ e, (dispatch env self .logout body).run w = .error e w) ∨
      ∃ store, Quiet env w.store store ∧
        (dispatch env self .logout body).run w = .ok (none, none) (withoutLogin w self store) := by
  cases hreq : deserialize LogoutRequest body with
  | error e =>
    refine Or.inl ⟨e, ?_⟩
    simp only [dispatch, handleLogout, decode, hreq, EStateM.run_bind, run_throw_any]
  | ok req =>
    refine Or.inr ⟨_, logout_quiet env req.oldToken w.store, ?_⟩
    simp only [dispatch, handleLogout, EStateM.run_bind, decode_run hreq]
    rfl

/-- What the actions of handlers keep, and a LOGOUT as well, holds after the switch. -/
theorem dispatch_preserves {P : World → Prop} (env : Env) (self : ConnId)
    (packetType : PacketType) (body : Bytes) {w : World}
    (haction : ∀ s t, Action env s t → P s → P t)
    (hlogout : ∀ store, Quiet env w.store store → P (withoutLogin w self store)) (h : P w) :
    P (final ((dispatch env self packetType body).run w)) := by
  by_cases htype : packetType = .logout
  · subst htype
    rcases dispatch_logout env self body w with ⟨e, hrun⟩ | ⟨store, hquiet, hrun⟩
    · rw [hrun]
      exact h
    · rw [hrun]
      exact hlogout store hquiet
  · exact (dispatch_moves env self body w htype).preserves haction h

end Messenger.HandlePacket
