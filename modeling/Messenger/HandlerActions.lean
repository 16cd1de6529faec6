import Messenger.RepositoryCalls
import Messenger.ClientSession

/-!
Every handler but the one for LOGOUT, as a sequence of atomic actions on the world. An
authentication works on accounts and on its own session's token; the other handlers also
write files and hand packets over through the map. No action changes who is logged in
where: that is left to what follows the switch in handle_packet.
-/
namespace Messenger.HandlerActions

open KeyedTables Outcomes ClientSession UserRepository MessageRepository

inductive Account (env : Env) (w : World) : World → Prop where
  | store (st : Store) (h : Quiet env w.store st) : Account env w { w with store := st }
  | token (c : ConnId) (t : Bytes) : Account env w
      { w with
        sessions := Function.update w.sessions c
          ((w.sessions c).map (fun s => { s with currentToken := t })) }

/-- The packet that the map entry of `login` leads to. -/
def viaEntry (w : World) (conn : ConnId) (packetType : PacketType) (body : Bytes)
    (cause : Cause) : Sent :=
  ⟨conn, packetType, body, cause, w.currentLogin conn⟩

/-- What is sent through the map apart from stored messages: a line of the general chat,
or a notice without a body. -/
inductive Relays : PacketType → Bytes → Prop where
  | message (msg : ChatIncoming) : Relays .message (serialize msg)
  | newRequest : Relays .friendNewRequest []
  | accepted : Relays .friendRequestAccepted []
  | rejected : Relays .friendRequestRejected []

theorem Relays.ne {packetType : PacketType} {body : Bytes} (h : Relays packetType body) :
    packetType ≠ .result ∧ packetType ≠ .directMessage := by
  cases h <;> exact ⟨nofun, nofun⟩

/-- A stored message is pushed through the entry of its recipient's login, or not at all. -/
def Pushes (w : World) (recipient : ℤ) (pushed : List Sent) : Prop :=
  pushed = [] ∨ ∃ (login : Bytes) (conn : ConnId) (msg : DirectMessageIncoming),
    w.getSession login = some conn ∧ getIdByLogin login w.store = .ok recipient ∧
    pushed = [viaEntry w conn .directMessage (serialize msg)
      (.push login (w.store.db.directMessages.seq + 1))]

inductive Action (env : Env) (w : World) : World → Prop where
  | account {w' : World} (h : Account env w w') : Action env w w'
  | draw (n : ℕ) : Action env w { w with randomDraws := n }
  | write (files : ℕ → Option Bytes) (status : ServerStatus)
      (h : status = w.status ∨ status = .overwritten) :
      Action env w { w with files := files, status := status }
  | relay (login : Bytes) (conn : ConnId) (packetType : PacketType) (body : Bytes) (cause : Cause)
      (hentry : w.getSession login = some conn)
      (hcause : cause = .broadcast login ∨ cause = .notice login)
      (hrelays : Relays packetType body) :
      Action env w { w with sent := w.sent ++ [viaEntry w conn packetType body cause] }
  | direct (sender recipient now : ℤ) (message : Bytes) (pushed : List Sent)
      (huser : (w.store.db.findUser recipient).isSome) (hpush : Pushes w recipient pushed) :
      Action env w
        { w with
          store := withMessage w.store sender recipient now message
          sent := w.sent ++ pushed }

/-- What an authentication is made of, call by call. -/
inductive AccountAction (env : Env) (packetType : PacketType) (body : Bytes) (w : World) :
    World → Prop where
  | register (req : AuthRequest) (htype : packetType = .register)
      (hreq : deserialize AuthRequest body = .ok req) : AccountAction env packetType body w
      { w with store := final ((registerUser env req.login req.password).run w.store) }
  | verify (login password : Bytes) : AccountAction env packetType body w
      { w with store := final ((verifyUser env login password).run w.store) }
  | lookup (token : Bytes) : AccountAction env packetType body w
      { w with store := final ((getLoginByToken env token).run w.store) }
  | token (c : ConnId) (t : Bytes) : AccountAction env packetType body w
      { w with
        sessions := Function.update w.sessions c
          ((w.sessions c).map (fun s => { s with currentToken := t })) }

theorem AccountAction.account {env : Env} {packetType : PacketType} {body : Bytes}
    {w w' : World} (h : AccountAction env packetType body w w') : Account env w w' := by
  cases h with
  | register req _ _ => exact .store _ (registerUser_quiet env req.login req.password w.store)
  | verify login password => exact .store _ (verifyUser_quiet env login password w.store)
  | lookup token => exact .store _ (getLoginByToken_quiet env token w.store)
  | token c t => exact .token c t

/-- The actions that leave the store alone. -/
inductive Outward (w : World) : World → Prop where
  | draw (n : ℕ) : Outward w { w with randomDraws := n }
  | write (files : ℕ → Option Bytes) (status : ServerStatus)
      (h : status = w.status ∨ status = .overwritten) :
      Outward w { w with files := files, status := status }
  | relay (login : Bytes) (conn : ConnId) (packetType : PacketType) (body : Bytes) (cause : Cause)
      (hentry : w.getSession login = some conn)
      (hcause : cause = .broadcast login ∨ cause = .notice login)
      (hrelays : Relays packetType body) :
      Outward w { w with sent := w.sent ++ [viaEntry w conn packetType body cause] }

theorem Outward.action {w w' : World} (env : Env) (h : Outward w w') : Action env w w' := by
  cases h with
  | draw n => exact .draw n
  | write files status h => exact .write files status h
  | relay login conn packetType body cause hentry hcause hrelays =>
    exact .relay login conn packetType body cause hentry hcause hrelays

theorem Outward.store {w w' : World} (h : Outward w w') : w'.store = w.store := by
  cases h <;> rfl

section

variable {env : Env} {w : World} {α : Type}

theorem liftStore_final (m : StoreM α) (w : World) :
    final ((liftM m : ServerM α).run w) = { w with store := final (m.run w.store) } := by
  change final (liftStore m w) = _
  unfold liftStore
  cases m.run w.store <;> rfl

theorem moves_lift {A : World → World → Prop} {m : StoreM α}
    (h : A w { w with store := final (m.run w.store) }) : Moves A (liftM m : ServerM α) w := by
  unfold Moves
  rw [liftStore_final]
  exact .single h

theorem moves_quiet {m : StoreM α} (h : Quiet env w.store (final (m.run w.store))) :
    Moves (Account env) (liftM m : ServerM α) w :=
  moves_lift (.store _ h)

theorem moves_accounts {m : ServerM α} (h : Moves (Account env) m w) : Moves (Action env) m w :=
  h.mono (fun _ _ => .account)

variable {A : World → World → Prop}

theorem moves_query (f : Store → α) : Moves A (query f) w := .refl

theorem moves_decode {Derived Args : Type} [Serializable Derived Args] [TupleSerializer Args]
    (body : Bytes) : Moves A (decode Derived body) w := by
  unfold decode
  split
  · exact moves_pure _ _
  · exact moves_throw _ _

theorem moves_valueOf (x : Except ErrorCode α) : Moves A (valueOf x) w := by
  cases x with
  | ok a => exact moves_pure _ _
  | error e => exact moves_throw _ _

theorem moves_errorOf (env : Env) (x : Except ErrorCode α) : Moves A (errorOf env x) w := by
  cases x with
  | error e => exact moves_pure _ _
  | ok a =>
    simp only [errorOf]
    cases env.inactive with
    | some e => exact moves_pure _ _
    | none => exact moves_throw _ _

theorem moves_token (packetType : PacketType) (body : Bytes) (c : ConnId) (t : Bytes) :
    Moves (AccountAction env packetType body)
      (modifySession c (fun s => { s with currentToken := t })) w :=
  moves_modify (.token c t)

theorem moves_getLoginByToken (token : Bytes) :
    Moves (Account env) (liftM (getLoginByToken env token) : ServerM _) w :=
  moves_quiet (getLoginByToken_quiet env token w.store)

theorem query_run (f : Store → α) (w : World) : (query f).run w = .ok (f w.store) w := rfl

theorem getSession_run (login : Bytes) (w : World) :
    (SessionManager.getSession login).run w = .ok (w.getSession login) w := rfl

theorem eq_of_valueOf {x : Except ErrorCode α} {w' : World} {a : α}
    (h : (valueOf x).run w = .ok a w') : x = .ok a ∧ w' = w := by
  cases x with
  | ok b =>
    cases h
    exact ⟨rfl, rfl⟩
  | error e => cases h

end

variable (env : Env) (self : ConnId) (body : Bytes) (w : World)

theorem decoded_of_decode {Derived Args : Type} [Serializable Derived Args]
    [TupleSerializer Args] {body : Bytes} {req : Derived} {w w₁ : World}
    (h : (decode Derived body).run w = .ok req w₁) : deserialize Derived body = .ok req := by
  unfold decode at h
  split at h
  · rename_i hreq
    cases h
    exact hreq
  · cases h

theorem handleRegister_moves :
    Moves (AccountAction env .register body) (handleRegister env self body) w := by
  refine moves_bind (moves_decode body) fun req w₁ hdecode => ?_
  refine moves_bind (moves_lift (.register req rfl (decoded_of_decode hdecode))) fun err w₂ _ => ?_
  refine moves_ite (fun _ => ?_) fun _ => moves_pure _ _
  refine moves_bind (moves_lift (.verify _ _)) fun token w₃ _ => ?_
  refine moves_bind (moves_valueOf token) fun token w₄ _ => ?_
  exact moves_bind (moves_token _ _ self token) fun _ _ _ => moves_pure _ _

theorem handleLogin_moves :
    Moves (AccountAction env .login body) (handleLogin env self body) w := by
  refine moves_bind (moves_decode body) fun req w₁ _ => ?_
  refine moves_bind (moves_lift (.verify _ _)) fun token w₂ _ => ?_
  split
  · exact moves_bind (moves_token _ _ self _) fun _ _ _ => moves_pure _ _
  · exact moves_pure _ _

theorem handleTokenVerify_moves :
    Moves (AccountAction env .tokenVerify body) (handleTokenVerify env self body) w := by
  refine moves_bind (moves_decode body) fun req w₁ _ => ?_
  refine moves_bind (moves_lift (.lookup _)) fun login w₂ _ => ?_
  split
  · exact moves_bind (moves_token _ _ self _) fun _ _ _ => moves_pure _ _
  · exact moves_pure _ _

theorem moves_relay {w : World} {login body : Bytes} {conn : ConnId}
    {packetType : PacketType} {cause : Cause} (hentry : w.getSession login = some conn)
    (hcause : cause = .broadcast login ∨ cause = .notice login)
    (hrelays : Relays packetType body) :
    Moves Outward (sendPacket conn packetType body cause) w :=
  moves_modify (.relay login conn packetType body cause hentry hcause hrelays)

/-- The entries of a broadcast are those of the map throughout: sending changes neither
the map nor who is alive. -/
theorem broadcastLoop_moves (senderLogin : Bytes) (msg : ChatIncoming)
    (entries : List (Bytes × ConnId)) (w : World)
    (hentries : ∀ e ∈ entries, w.onlineUsers.lookup e.1 = some e.2) :
    Moves Outward (SessionManager.broadcastLoop senderLogin .message (serialize msg) entries)
      w := by
  induction entries generalizing w with
  | nil => exact moves_pure _ _
  | cons e rest ih =>
    obtain ⟨login, weakSess⟩ := e
    have hlookup := hentries _ List.mem_cons_self
    have hrest : ∀ e ∈ rest, w.onlineUsers.lookup e.1 = some e.2 :=
      fun e he => hentries e (List.mem_cons_of_mem _ he)
    refine moves_bind (moves_get w) fun w₁ w₂ hget => ?_
    obtain ⟨rfl, rfl⟩ : w = w₁ ∧ w = w₂ := by
      cases hget
      exact ⟨rfl, rfl⟩
    refine moves_ite (fun _ => ?_) fun _ => ?_
    · cases hlock : w.lock weakSess with
      | some sess =>
        have hentry : w.getSession login = some sess := by
          rw [World.getSession, hlookup, Option.bind_some, hlock]
        refine moves_bind (moves_relay hentry (Or.inl rfl) (.message msg)) fun _ w₃ hsend => ?_
        cases hsend
        exact ih _ hrest
      | none => exact ih _ hrest
    · exact ih _ hrest

theorem moves_outward {env : Env} {w : World} {α : Type} {m : ServerM α}
    (h : Moves Outward m w) : Moves (Action env) m w :=
  h.mono fun _ _ hstep => hstep.action env

theorem broadcast_moves (senderLogin : Bytes) (msg : ChatIncoming) (w : World) :
    Moves Outward (SessionManager.broadcast senderLogin .message (serialize msg)) w := by
  refine moves_bind (moves_get w) fun w₁ w₂ hget => ?_
  cases hget
  apply broadcastLoop_moves
  intro e he
  obtain ⟨entry, hentry, rfl⟩ := List.mem_map.mp he
  exact AList.mem_lookup_iff.mpr hentry

theorem handleMessage_moves : Moves (Action env) (handleMessage env body) w := by
  refine moves_bind (moves_decode body) fun req w₁ _ => ?_
  refine moves_bind (moves_accounts (moves_getLoginByToken _)) fun login w₂ _ => ?_
  split
  · exact moves_bind (moves_outward (broadcast_moves _ _ w₂)) fun _ _ _ => moves_pure _ _
  · exact moves_pure _ _

theorem encryptAES_moves (plaintext key : Bytes) :
    Moves Outward (encryptAES env plaintext key) w := by
  refine moves_ite (fun _ => moves_throw _ _) fun _ => ?_
  refine moves_bind (moves_get w) fun w₁ w₂ _ => ?_
  refine moves_bind (moves_modify (.draw _)) fun _ w₃ _ => ?_
  split
  · exact moves_throw _ _
  · split
    · exact moves_throw _ _
    · exact moves_throw _ _
    · exact moves_throw _ _
    · exact moves_throw _ _
    · exact moves_ite (fun _ => moves_pure _ _) fun _ => moves_throw _ _

theorem bytesToFile_moves (fileName bytes : Bytes) :
    Moves Outward (bytesToFile env fileName bytes) w := by
  unfold bytesToFile
  split
  · exact moves_pure _ _
  · refine moves_ite (fun _ => moves_modify (.write _ _ ?_)) fun _ => moves_pure _ _
    split
    · exact Or.inr rfl
    · exact Or.inl rfl

theorem handleUpload_moves : Moves (Action env) (handleUpload env body) w := by
  refine moves_bind (moves_decode body) fun req w₁ _ => ?_
  refine moves_bind (moves_accounts (moves_getLoginByToken _)) fun login w₂ _ => ?_
  split
  · refine moves_bind (moves_outward (encryptAES_moves env w₂ _ _)) fun encrypted w₃ _ => ?_
    exact moves_bind (moves_outward (bytesToFile_moves env w₃ _ _)) fun _ _ _ => moves_pure _ _
  · exact moves_pure _ _

theorem fileToBytes_moves {A : World → World → Prop} (fileName : Bytes) :
    Moves A (fileToBytes env fileName) w := by
  refine moves_bind (moves_get w) fun w₁ w₂ _ => ?_
  split
  · exact moves_throw _ _
  · split
    · exact moves_throw _ _
    · refine moves_ite (fun _ => moves_throw _ _) fun _ => ?_
      exact moves_ite (fun _ => moves_pure _ _) fun _ => moves_pure _ _

theorem decryptAES_moves {A : World → World → Prop} (ciphertextWithIv key : Bytes) :
    Moves A (decryptAES env ciphertextWithIv key) w := by
  refine moves_ite (fun _ => moves_throw _ _) fun _ => ?_
  refine moves_ite (fun _ => moves_throw _ _) fun _ => ?_
  split
  · exact moves_throw _ _
  · exact moves_throw _ _
  · exact moves_throw _ _
  · exact moves_throw _ _
  · exact moves_ite (fun _ => moves_pure _ _) fun _ => moves_throw _ _

theorem handleDownload_moves : Moves (Action env) (handleDownload env body) w := by
  refine moves_bind (moves_decode body) fun req w₁ _ => ?_
  refine moves_bind (moves_accounts (moves_getLoginByToken _)) fun login w₂ _ => ?_
  split
  · refine moves_bind (fileToBytes_moves env w₂ _) fun bytes w₃ _ => ?_
    exact moves_bind (decryptAES_moves env w₃ _ _) fun _ _ _ => moves_pure _ _
  · exact moves_pure _ _

theorem handleFriend_moves {operation : ℤ → ℤ → StoreM ErrorCode} {notice : PacketType}
    (hop : ∀ a b st, Quiet env st (final ((operation a b).run st)))
    (hnotice : Relays notice []) :
    Moves (Action env) (handleFriend operation notice env body) w := by
  refine moves_bind (moves_decode body) fun req w₁ _ => ?_
  refine moves_bind (moves_accounts (moves_getLoginByToken _)) fun senderLogin w₂ _ => ?_
  split
  · exact moves_pure _ _
  refine moves_bind (moves_query _) fun userExistsErr w₃ _ => ?_
  refine moves_ite (fun _ => moves_pure _ _) fun _ => ?_
  refine moves_bind (moves_query _) fun senderId w₄ _ => ?_
  refine moves_bind (moves_query _) fun targetId w₅ _ => ?_
  refine moves_ite (fun _ => ?_) fun _ => ?_
  · refine moves_bind (moves_errorOf env senderId) fun senderError w₆ _ => ?_
    refine moves_ite (fun _ => ?_) fun _ => ?_
    · exact moves_bind (moves_errorOf env _) fun _ _ _ => moves_pure _ _
    · exact moves_bind (moves_errorOf env _) fun _ _ _ => moves_pure _ _
  refine moves_bind (moves_valueOf senderId) fun sender w₆ _ => ?_
  refine moves_bind (moves_valueOf targetId) fun target w₇ _ => ?_
  refine moves_bind (moves_accounts (moves_quiet (hop _ _ _))) fun err w₈ _ => ?_
  refine moves_ite (fun _ => moves_pure _ _) fun _ => ?_
  refine moves_bind .refl fun sess w₉ hsess => ?_
  rw [getSession_run] at hsess
  cases hsess
  cases hentry : w₈.getSession req.targetLogin with
  | some sess =>
    exact moves_bind (moves_outward (moves_relay hentry (Or.inr rfl) hnotice))
      fun _ _ _ => moves_pure _ _
  | none => exact moves_pure _ _

theorem loginsOf_moves (ids : List ℤ) (w : World) : Moves (Action env) (loginsOf ids) w := by
  induction ids generalizing w with
  | nil => exact moves_pure _ _
  | cons el rest ih =>
    refine moves_bind (moves_query _) fun found w₁ _ => ?_
    refine moves_bind (moves_valueOf found) fun login w₂ _ => ?_
    exact moves_bind (ih w₂) fun _ _ _ => moves_pure _ _

theorem handleFriendList_moves : Moves (Action env) (handleFriendList env body) w := by
  refine moves_bind (moves_decode body) fun req w₁ _ => ?_
  refine moves_bind (moves_accounts (moves_getLoginByToken _)) fun senderLogin w₂ _ => ?_
  split
  · exact moves_pure _ _
  refine moves_bind (moves_query _) fun senderId w₃ _ => ?_
  refine moves_bind (moves_valueOf senderId) fun id w₄ _ => ?_
  refine moves_bind (moves_query _) fun friendList w₅ _ => ?_
  refine moves_bind (loginsOf_moves env _ _) fun friendListLogin w₆ _ => ?_
  refine moves_bind (moves_query _) fun pendingList w₇ _ => ?_
  exact moves_bind (loginsOf_moves env _ _) fun _ _ _ => moves_pure _ _

theorem historyEntries_moves (messages : List DirectMessage) (w : World) :
    Moves (Action env) (historyEntries messages) w := by
  induction messages generalizing w with
  | nil => exact moves_pure _ _
  | cons m rest ih =>
    refine moves_bind (moves_query _) fun found w₁ _ => ?_
    refine moves_bind (moves_valueOf found) fun fromLogin w₂ _ => ?_
    exact moves_bind (ih w₂) fun _ _ _ => moves_pure _ _

theorem handleMessageHistory_moves : Moves (Action env) (handleMessageHistory env body) w := by
  refine moves_bind (moves_decode body) fun req w₁ _ => ?_
  refine moves_bind (moves_accounts (moves_getLoginByToken _)) fun senderLogin w₂ _ => ?_
  split
  · exact moves_pure _ _
  refine moves_bind (moves_query _) fun senderId w₃ _ => ?_
  refine moves_bind (moves_query _) fun peerId w₄ _ => ?_
  refine moves_bind (moves_valueOf senderId) fun sender w₅ _ => ?_
  refine moves_bind (moves_valueOf peerId) fun peer w₆ _ => ?_
  refine moves_bind (moves_query _) fun messages w₇ _ => ?_
  exact moves_bind (historyEntries_moves env _ _) fun _ _ _ => moves_pure _ _

theorem handleChatList_moves : Moves (Action env) (handleChatList env body) w := by
  refine moves_bind (moves_decode body) fun req w₁ _ => ?_
  refine moves_bind (moves_accounts (moves_getLoginByToken _)) fun senderLogin w₂ _ => ?_
  split
  · exact moves_pure _ _
  refine moves_bind (moves_query _) fun id w₃ _ => ?_
  split
  · exact moves_bind (moves_errorOf env _) fun _ _ _ => moves_pure _ _
  · exact moves_bind (moves_query _) fun _ _ _ => moves_pure _ _

/-- Saving the message and pushing it are one action. -/
theorem save_and_push_moves {online : Option ConnId} {senderLogin recipientLogin : Bytes}
    {recipient : ℤ} (sender : ℤ) (message : Bytes) (honline : w.getSession recipientLogin = online)
    (hid : getIdByLogin recipientLogin w.store = .ok recipient) :
    Moves (Action env) (do
      let ts ← MessageRepository.saveMessage env sender recipient message
      match online with
      | some sess =>
        sendPacket sess .directMessage
          (serialize (DirectMessageIncoming.mk senderLogin message (Int64.ofInt ts)))
          (.push recipientLogin ts)
      | none => pure ()
      return Response.directMessage ⟨Error.Base.ok⟩ : ServerM Response) w := by
  have hlift : (liftM (saveMessage env sender recipient message) : ServerM ℤ).run w =
      liftStore (saveMessage env sender recipient message) w := rfl
  unfold Moves
  rw [EStateM.run_bind, hlift, liftStore]
  rcases saveMessage_cases env sender recipient message w.store with ⟨huser, hrun⟩ | ⟨e, hrun⟩
  · rw [hrun]
    cases online with
    | some sess =>
      exact .single (.direct sender recipient (env.clock w.store.clockReads) message _ huser
        (Or.inr ⟨recipientLogin, sess, _, honline, hid, rfl⟩))
    | none =>
      have hnothing : Action env w _ :=
        .direct sender recipient (env.clock w.store.clockReads) message [] huser (Or.inl rfl)
      rw [List.append_nil] at hnothing
      exact .single hnothing
  · rw [hrun]
    exact .single (.account (.store _ (.of_subset rfl (fun _ hs => hs) rfl le_rfl)))

theorem handleDirectMessage_moves : Moves (Action env) (handleDirectMessage env body) w := by
  refine moves_bind (moves_decode body) fun req w₁ _ => ?_
  refine moves_bind (moves_accounts (moves_getLoginByToken _)) fun senderLogin w₂ _ => ?_
  split
  · exact moves_pure _ _
  refine moves_bind (moves_query _) fun existsErr w₃ _ => ?_
  refine moves_ite (fun _ => moves_pure _ _) fun _ => ?_
  refine moves_bind (moves_query _) fun senderId w₄ _ => ?_
  refine moves_bind (moves_query _) fun recipientId w₅ hrecipient => ?_
  rw [query_run] at hrecipient
  cases hrecipient
  refine moves_bind (moves_valueOf senderId) fun sender w₆ hsender => ?_
  obtain ⟨-, rfl⟩ := eq_of_valueOf hsender
  refine moves_bind (moves_valueOf _) fun recipient w₇ hvalue => ?_
  obtain ⟨hid, rfl⟩ := eq_of_valueOf hvalue
  refine moves_bind (moves_query _) fun friendsErr w₈ hfriends => ?_
  rw [query_run] at hfriends
  cases hfriends
  refine moves_ite (fun _ => moves_pure _ _) fun _ => ?_
  refine moves_bind .refl fun online w₉ honline => ?_
  rw [getSession_run] at honline
  cases honline
  exact save_and_push_moves env _ sender req.message rfl hid

/-- The requests that log their session in when they succeed. -/
def Authenticating (packetType : PacketType) : Prop :=
  packetType = .register ∨ packetType = .login ∨ packetType = .tokenVerify

theorem answer_moves {A : World → World → Prop} {m : ServerM Response} (h : Moves A m w) :
    Moves A (answer m) w :=
  moves_bind h fun _ _ _ => moves_pure _ _

theorem answerAuth_moves {A : World → World → Prop} {m : ServerM (Response × Option Bytes)}
    (h : Moves A m w) : Moves A (answerAuth m) w :=
  moves_bind h fun _ _ _ => moves_pure _ _

theorem dispatch_accountActions {packetType : PacketType} (h : Authenticating packetType) :
    Moves (AccountAction env packetType body) (dispatch env self packetType body) w := by
  rcases h with rfl | rfl | rfl
  · exact answerAuth_moves w (handleRegister_moves env self body w)
  · exact answerAuth_moves w (handleLogin_moves env self body w)
  · exact answerAuth_moves w (handleTokenVerify_moves env self body w)

theorem dispatch_accounts {packetType : PacketType} (h : Authenticating packetType) :
    Moves (Account env) (dispatch env self packetType body) w :=
  (dispatch_accountActions env self body w h).mono fun _ _ hstep => hstep.account

theorem dispatch_moves {packetType : PacketType} (h : packetType ≠ .logout) :
    Moves (Action env) (dispatch env self packetType body) w := by
  cases packetType with
  | register => exact moves_accounts (dispatch_accounts env self body w (Or.inl rfl))
  | login => exact moves_accounts (dispatch_accounts env self body w (Or.inr (Or.inl rfl)))
  | tokenVerify =>
    exact moves_accounts (dispatch_accounts env self body w (Or.inr (Or.inr rfl)))
  | message => exact answer_moves w (handleMessage_moves env body w)
  | upload => exact answer_moves w (handleUpload_moves env body w)
  | download => exact answer_moves w (handleDownload_moves env body w)
  | friendRequest =>
    exact answer_moves w
      (handleFriend_moves env body w (FriendRepository.sendRequest_quiet env) .newRequest)
  | friendAccept =>
    exact answer_moves w
      (handleFriend_moves env body w (FriendRepository.acceptRequest_quiet env) .accepted)
  | friendReject =>
    exact answer_moves w
      (handleFriend_moves env body w (FriendRepository.rejectRequest_quiet env) .rejected)
  | friendList => exact answer_moves w (handleFriendList_moves env body w)
  | directMessage => exact answer_moves w (handleDirectMessage_moves env body w)
  | messageHistory => exact answer_moves w (handleMessageHistory_moves env body w)
  | chatList => exact answer_moves w (handleChatList_moves env body w)
  | logout => exact absurd rfl h
  | result => exact moves_pure _ _
  | friendNewRequest => exact moves_pure _ _
  | friendRequestAccepted => exact moves_pure _ _
  | friendRequestRejected => exact moves_pure _ _
  | unnamed value hvalue => exact moves_pure _ _

/-- The login of a session that is alive. -/
def login (w : World) (c : ConnId) : Option Bytes := (w.sessions c).map ClientSession.currentLogin

structure SameLogins (w w' : World) : Prop where
  login : ∀ c, login w' c = login w c
  onlineUsers : w'.onlineUsers = w.onlineUsers
  nextConn : w'.nextConn = w.nextConn

theorem SameLogins.trans {w₀ w₁ w₂ : World} (h : SameLogins w₀ w₁) (h' : SameLogins w₁ w₂) :
    SameLogins w₀ w₂ :=
  ⟨fun c => (h'.login c).trans (h.login c), h'.onlineUsers.trans h.onlineUsers,
    h'.nextConn.trans h.nextConn⟩

theorem isSome_login {w : World} {c : ConnId} : (login w c).isSome = (w.sessions c).isSome :=
  Option.isSome_map

theorem SameLogins.live {w w' : World} (h : SameLogins w w') {c : ConnId}
    (hlive : (w.sessions c).isSome) : (w'.sessions c).isSome := by
  rw [← isSome_login, h.login, isSome_login]
  exact hlive

theorem login_token (w : World) (c d : ConnId) (t : Bytes) :
    login
      { w with
        sessions := Function.update w.sessions c
          ((w.sessions c).map (fun s => { s with currentToken := t })) } d = login w d := by
  by_cases hd : d = c
  · subst hd
    simp only [login, Function.update_self, Option.map_map]
    rfl
  · simp only [login, Function.update_of_ne hd]

theorem Account.sameLogins {env : Env} {w w' : World} (h : Account env w w') :
    SameLogins w w' := by
  cases h with
  | store st _ => exact ⟨fun _ => rfl, rfl, rfl⟩
  | token c t => exact ⟨fun d => login_token w c d t, rfl, rfl⟩

theorem Action.sameLogins {env : Env} {w w' : World} (h : Action env w w') :
    SameLogins w w' := by
  cases h with
  | account h => exact h.sameLogins
  | draw _ => exact ⟨fun _ => rfl, rfl, rfl⟩
  | write _ _ _ => exact ⟨fun _ => rfl, rfl, rfl⟩
  | relay _ _ _ _ _ _ _ _ => exact ⟨fun _ => rfl, rfl, rfl⟩
  | direct _ _ _ _ _ _ _ => exact ⟨fun _ => rfl, rfl, rfl⟩

/-- An authentication works on the accounts and is not seen outside. -/
structure Unseen (env : Env) (w w' : World) : Prop where
  quiet : Quiet env w.store w'.store
  sent : w'.sent = w.sent
  logins : SameLogins w w'

theorem unseen_of_moves {env : Env} {w : World} {α : Type} {m : ServerM α}
    (h : Moves (Account env) m w) : Unseen env w (final (m.run w)) := by
  refine h.preserves ?_ ⟨.refl _, rfl, fun _ => rfl, rfl, rfl⟩
  intro s t hst hs
  refine ⟨hs.quiet.trans ?_, ?_, hs.logins.trans hst.sameLogins⟩
  · cases hst with
    | store st hq => exact hq
    | token c t => exact .refl _
  · cases hst with
    | store st hq => exact hs.sent
    | token c t => exact hs.sent

theorem sameLogins_of_moves {env : Env} {w : World} {α : Type} {m : ServerM α}
    (h : Moves (Action env) m w) : SameLogins w (final (m.run w)) :=
  h.preserves (fun _ _ hst hs => hs.trans hst.sameLogins) ⟨fun _ => rfl, rfl, rfl⟩

end Messenger.HandlerActions
