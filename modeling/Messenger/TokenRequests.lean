import Messenger.HandlePacket

/-!
The requests that carry a token. Their handlers have the lookup in common; what follows
it is an act for the login behind the token. Up to the call that may write, an act only
reads, so its course is a function of the store: it throws, refuses or goes on with ids.
-/
namespace Messenger.TokenRequests

open KeyedTables Outcomes ClientSession UserRepository MessageRepository HandlerActions
  HandlePacket

/-- Look the token up, then act for its login or refuse. -/
def withAccount (env : Env) (token : Bytes) (refuse : ErrorCode → Response)
    (act : Bytes → ServerM Response) : ServerM Response := do
  match ← getLoginByToken env token with
  | .ok login => act login
  | .error e => return refuse e

section

variable {env : Env} {token : Bytes} (refuse : ErrorCode → Response)
  (act : Bytes → ServerM Response) {w : World}

theorem withAccount_some {login : Bytes} (h : tokenLogin env token w.store = some login) :
    (withAccount env token refuse act).run w =
      (act login).run { w with store := ticked w.store } := by
  obtain ⟨r, st', hrun, hlook⟩ := getLoginByToken_lookedUp env token w.store
  have hlogin := tokenLogin_of_lookedUp hlook
  rw [h] at hlogin
  simp only [withAccount, EStateM.run_bind, liftStore_run, liftStore, hrun]
  cases hlook with
  | unknown _ => cases hlogin
  | expired _ _ _ => cases hlogin
  | orphan _ _ _ _ => cases hlogin
  | found check q _ _ _ =>
    cases hlogin
    rfl

theorem withAccount_none (h : tokenLogin env token w.store = none) :
    ∃ e st', LookedUp env token w.store (.error e) st' ∧
      (withAccount env token refuse act).run w = .ok (refuse e) { w with store := st' } := by
  obtain ⟨r, st', hrun, hlook⟩ := getLoginByToken_lookedUp env token w.store
  have hlogin := tokenLogin_of_lookedUp hlook
  rw [h] at hlogin
  cases r with
  | ok login => cases hlogin
  | error e =>
    refine ⟨e, st', hlook, ?_⟩
    simp only [withAccount, EStateM.run_bind, liftStore_run, liftStore, hrun]
    rfl

end

theorem ok_of_lookedUp_error {env : Env} {token : Bytes} {st st' : Store} {e : ErrorCode}
    (h : LookedUp env token st (.error e) st') : e.ok = false := by
  cases h <;> decide

def messageAct (message login : Bytes) : ServerM Response := do
  SessionManager.broadcast login .message (serialize (ChatIncoming.mk login message))
  return .chat ⟨Error.Base.ok⟩

def uploadAct (env : Env) (fileName fileData : Bytes) : ServerM Response := do
  let encrypted ← encryptAES env fileData serverKey
  bytesToFile env fileName encrypted
  return .fileUpload ⟨Error.Base.ok⟩

def downloadAct (env : Env) (fileName : Bytes) : ServerM Response := do
  let bytes ← fileToBytes env fileName
  let decrypted ← decryptAES env bytes serverKey
  return .fileDownload ⟨decrypted, Error.Base.ok⟩

def friendAct (env : Env) (operation : ℤ → ℤ → StoreM ErrorCode) (notice : PacketType)
    (targetLogin senderLogin : Bytes) : ServerM Response := do
  let userExistsErr ← query (userExists targetLogin)
  if !userExistsErr.ok then return .friend ⟨userExistsErr⟩
  else
    let senderId ← query (getIdByLogin senderLogin)
    let targetId ← query (getIdByLogin targetLogin)
    if !(hasValue senderId && hasValue targetId) then
      let senderError ← errorOf env senderId
      let error ← if senderError.ok then errorOf env targetId else errorOf env senderId
      return .friend ⟨error⟩
    else
      let sender ← valueOf senderId
      let target ← valueOf targetId
      let err ← operation sender target
      if !err.ok then return .friend ⟨err⟩
      else
        match ← SessionManager.getSession targetLogin with
        | some sess => sendPacket sess notice [] (.notice targetLogin)
        | none => pure ()
        return .friend ⟨Error.Base.ok⟩

def friendListAct (senderLogin : Bytes) : ServerM Response := do
  let senderId ← query (getIdByLogin senderLogin)
  let id ← valueOf senderId
  let friendList ← query (FriendRepository.getFriends id)
  let friendListLogin ← loginsOf friendList
  let pendingList ← query (FriendRepository.getPendingIncoming id)
  let pendingListLogin ← loginsOf pendingList
  return .friendList ⟨friendListLogin, pendingListLogin, Error.Base.ok⟩

def historyAct (env : Env) (peerLogin senderLogin : Bytes) : ServerM Response := do
  let senderId ← query (getIdByLogin senderLogin)
  let peerId ← query (getIdByLogin peerLogin)
  let sender ← valueOf senderId
  let peer ← valueOf peerId
  let messages ← query (MessageRepository.getHistory env sender peer 100)
  let entries ← historyEntries messages
  return .history ⟨entries, Error.Base.ok⟩

def directMessageAct (env : Env) (recipientLogin message senderLogin : Bytes) :
    ServerM Response := do
  let existsErr ← query (userExists recipientLogin)
  if !existsErr.ok then return .directMessage ⟨existsErr⟩
  else
    let senderId ← query (getIdByLogin senderLogin)
    let recipientId ← query (getIdByLogin recipientLogin)
    let sender ← valueOf senderId
    let recipient ← valueOf recipientId
    let friendsErr ← query (FriendRepository.areFriends sender recipient)
    if !friendsErr.ok then return .directMessage ⟨friendsErr⟩
    else
      let online ← SessionManager.getSession recipientLogin
      let ts ← MessageRepository.saveMessage env sender recipient message
      match online with
      | some sess =>
        sendPacket sess .directMessage
          (serialize (DirectMessageIncoming.mk senderLogin message (Int64.ofInt ts)))
          (.push recipientLogin ts)
      | none => pure ()
      return .directMessage ⟨Error.Base.ok⟩

def chatListAct (env : Env) (login : Bytes) : ServerM Response := do
  match ← query (getIdByLogin login) with
  | .error e =>
    let _ ← errorOf env (.ok login : Except ErrorCode Bytes)
    return .chatList ⟨[], e⟩
  | .ok id =>
    let lastMessages ← query (MessageRepository.getLastMessages env id)
    return .chatList
      ⟨lastMessages.map (fun m => ⟨m.peerLogin, m.message, Int64.ofInt m.timestamp⟩),
        Error.Base.ok⟩

/-- A decoded request: its token, its refusals and its act. -/
structure TokenRequest where
  token : Bytes
  refuse : ErrorCode → Response
  act : Bytes → ServerM Response

/-- One of the three requests about friends. -/
def friendRequestOf (env : Env) (operation : ℤ → ℤ → StoreM ErrorCode) (notice : PacketType)
    (body : Bytes) : Option TokenRequest :=
  (deserialize FriendRequest body).toOption.map fun req =>
    ⟨req.token, fun e => .friend ⟨e⟩, friendAct env operation notice req.targetLogin⟩

def requestOf (env : Env) (packetType : PacketType) (body : Bytes) : Option TokenRequest :=
  match packetType with
  | .message => (deserialize ChatSendRequest body).toOption.map fun req =>
      ⟨req.token, fun e => .chat ⟨e⟩, messageAct req.message⟩
  | .upload => (deserialize FileUploadRequest body).toOption.map fun req =>
      ⟨req.token, fun e => .fileUpload ⟨e⟩, fun _ => uploadAct env req.fileName req.fileData⟩
  | .download => (deserialize FileDownloadRequest body).toOption.map fun req =>
      ⟨req.token, fun e => .fileDownload ⟨[], e⟩, fun _ => downloadAct env req.fileName⟩
  | .friendRequest => friendRequestOf env FriendRepository.sendRequest .friendNewRequest body
  | .friendAccept => friendRequestOf env FriendRepository.acceptRequest .friendRequestAccepted body
  | .friendReject => friendRequestOf env FriendRepository.rejectRequest .friendRequestRejected body
  | .friendList => (deserialize FriendListRequest body).toOption.map fun req =>
      ⟨req.token, fun e => .friendList ⟨[], [], e⟩, friendListAct⟩
  | .messageHistory => (deserialize HistoryRequest body).toOption.map fun req =>
      ⟨req.token, fun e => .history ⟨[], e⟩, historyAct env req.peerLogin⟩
  | .directMessage => (deserialize DirectMessageRequest body).toOption.map fun req =>
      ⟨req.token, fun e => .directMessage ⟨e⟩,
        directMessageAct env req.recipientLogin req.message⟩
  | .chatList => (deserialize ChatListRequest body).toOption.map fun req =>
      ⟨req.token, fun e => .chatList ⟨[], e⟩, chatListAct env⟩
  | _ => none

section

variable {env : Env} {body : Bytes}

theorem toOption_map_some {α β : Type} {x : Except Exn α} {f : α → β} {b : β}
    (h : x.toOption.map f = some b) : ∃ a, x = .ok a ∧ f a = b := by
  cases x with
  | ok a => exact ⟨a, rfl, Option.some.inj h⟩
  | error e => cases h

/-- After decoding, a handler is its lookup and its act. -/
theorem answer_decoded {Derived Args : Type} [Serializable Derived Args] [TupleSerializer Args]
    {req : Derived} (hreq : deserialize Derived body = .ok req) {rest : Derived → ServerM Response}
    {token : Bytes} {refuse : ErrorCode → Response} {act : Bytes → ServerM Response}
    {next : Except ErrorCode Bytes → ServerM Response}
    (hrest : rest req = (liftM (getLoginByToken env token) : ServerM _) >>= next)
    (hok : ∀ login, next (.ok login) = act login)
    (herror : ∀ e, next (.error e) = pure (refuse e)) (w : World) :
    (answer (decode Derived body >>= rest)).run w =
      (answer (withAccount env token refuse act)).run w := by
  have hsame : rest req = withAccount env token refuse act := by
    rw [hrest, withAccount]
    congr 1
    funext r
    cases r with
    | ok login => exact hok login
    | error e => exact herror e
  simp only [answer, EStateM.run_bind, decode_run hreq, hsame]

theorem friend_dispatch {operation : ℤ → ℤ → StoreM ErrorCode} {notice : PacketType}
    {t : TokenRequest} (h : friendRequestOf env operation notice body = some t) (w : World) :
    (answer (handleFriend operation notice env body)).run w =
      (answer (withAccount env t.token t.refuse t.act)).run w := by
  obtain ⟨req, hreq, rfl⟩ := toOption_map_some h
  exact answer_decoded hreq (by rfl) (by intro; rfl) (by intro; rfl) w

/-- What a request with a token does when it decodes. -/
theorem dispatch_request (self : ConnId) {packetType : PacketType} {t : TokenRequest}
    (h : requestOf env packetType body = some t) (w : World) :
    (dispatch env self packetType body).run w =
      (answer (withAccount env t.token t.refuse t.act)).run w := by
  cases packetType with
  | message =>
    obtain ⟨req, hreq, rfl⟩ := toOption_map_some h
    exact answer_decoded hreq (by rfl) (by intro; rfl) (by intro; rfl) w
  | upload =>
    obtain ⟨req, hreq, rfl⟩ := toOption_map_some h
    exact answer_decoded hreq (by rfl) (by intro; rfl) (by intro; rfl) w
  | download =>
    obtain ⟨req, hreq, rfl⟩ := toOption_map_some h
    exact answer_decoded hreq (by rfl) (by intro; rfl) (by intro; rfl) w
  | friendRequest => exact friend_dispatch h w
  | friendAccept => exact friend_dispatch h w
  | friendReject => exact friend_dispatch h w
  | friendList =>
    obtain ⟨req, hreq, rfl⟩ := toOption_map_some h
    exact answer_decoded hreq (by rfl) (by intro; rfl) (by intro; rfl) w
  | messageHistory =>
    obtain ⟨req, hreq, rfl⟩ := toOption_map_some h
    exact answer_decoded hreq (by rfl) (by intro; rfl) (by intro; rfl) w
  | directMessage =>
    obtain ⟨req, hreq, rfl⟩ := toOption_map_some h
    exact answer_decoded hreq (by rfl) (by intro; rfl) (by intro; rfl) w
  | chatList =>
    obtain ⟨req, hreq, rfl⟩ := toOption_map_some h
    exact answer_decoded hreq (by rfl) (by intro; rfl) (by intro; rfl) w
  | _ => cases h

end

/-- `.value()`. -/
def expectValue {α : Type} : Except ErrorCode α → Except Exn α
  | .ok a => .ok a
  | .error _ => .error .badExpectedAccess

/-- A program that has only read. -/
def answeredFrom {α : Type} (x : Except Exn α) (w : World) : EStateM.Result Exn World α :=
  match x with
  | .ok a => .ok a w
  | .error e => .error e w

theorem query_bind {α β : Type} (f : Store → α) (k : α → ServerM β) (w : World) :
    (query f >>= k).run w = (k (f w.store)).run w := rfl

theorem valueOf_run {α : Type} (x : Except ErrorCode α) (w : World) :
    (valueOf x).run w = answeredFrom (expectValue x) w := by
  cases x <;> rfl

theorem valueOf_bind {α β : Type} (a : α) (k : α → ServerM β) (w : World) :
    (valueOf (.ok a : Except ErrorCode α) >>= k).run w = (k a).run w := rfl

/-- Programs that only read, one after the other. -/
theorem reads_bind {α β : Type} {m : ServerM α} {k : α → ServerM β} {x : Except Exn α}
    {f : α → Except Exn β} {w : World} (hm : m.run w = answeredFrom x w)
    (hk : ∀ a, (k a).run w = answeredFrom (f a) w) :
    (m >>= k).run w = answeredFrom (x >>= f) w := by
  rw [EStateM.run_bind, hm]
  cases x with
  | error e => rfl
  | ok a => exact hk a

def loginsIn (ids : List ℤ) (st : Store) : Except Exn (List Bytes) :=
  ids.mapM (fun id => expectValue (getLoginById id st))

def entriesIn (messages : List DirectMessage) (st : Store) : Except Exn (List HistoryEntry) :=
  messages.mapM fun m => do
    let fromLogin ← expectValue (getLoginById m.sender st)
    return ⟨fromLogin, m.message, Int64.ofInt m.timestamp⟩

theorem loginsOf_run (ids : List ℤ) (w : World) :
    (loginsOf ids).run w = answeredFrom (loginsIn ids w.store) w := by
  induction ids with
  | nil => rfl
  | cons id rest ih =>
    unfold loginsIn at *
    rw [loginsOf, query_bind, List.mapM_cons]
    refine reads_bind (valueOf_run _ w) fun login => ?_
    exact reads_bind ih fun logins => rfl

theorem historyEntries_run (messages : List DirectMessage) (w : World) :
    (historyEntries messages).run w = answeredFrom (entriesIn messages w.store) w := by
  induction messages with
  | nil => rfl
  | cons m rest ih =>
    unfold entriesIn at *
    rw [historyEntries, query_bind, List.mapM_cons, bind_assoc]
    refine reads_bind (valueOf_run _ w) fun fromLogin => ?_
    exact reads_bind ih fun entries => rfl

def friendListAnswer (senderLogin : Bytes) (st : Store) : Except Exn Response := do
  let id ← expectValue (getIdByLogin senderLogin st)
  let friends ← loginsIn (FriendRepository.getFriends id st) st
  let pending ← loginsIn (FriendRepository.getPendingIncoming id st) st
  return .friendList ⟨friends, pending, Error.Base.ok⟩

def historyAnswer (env : Env) (peerLogin senderLogin : Bytes) (st : Store) :
    Except Exn Response := do
  let sender ← expectValue (getIdByLogin senderLogin st)
  let peer ← expectValue (getIdByLogin peerLogin st)
  let entries ← entriesIn (getHistory env sender peer 100 st) st
  return .history ⟨entries, Error.Base.ok⟩

def chatListAnswer (env : Env) (login : Bytes) (st : Store) : Except Exn Response :=
  match getIdByLogin login st with
  | .error e =>
    match env.inactive with
    | some _ => .ok (.chatList ⟨[], e⟩)
    | none => .error .undefinedBehaviour
  | .ok id => .ok (.chatList
      ⟨(getLastMessages env id st).map (fun m => ⟨m.peerLogin, m.message, Int64.ofInt m.timestamp⟩),
        Error.Base.ok⟩)

theorem friendListAct_run (senderLogin : Bytes) (w : World) :
    (friendListAct senderLogin).run w = answeredFrom (friendListAnswer senderLogin w.store) w := by
  rw [friendListAct, query_bind]
  refine reads_bind (valueOf_run _ w) fun id => ?_
  rw [query_bind]
  refine reads_bind (loginsOf_run _ w) fun friends => ?_
  rw [query_bind]
  exact reads_bind (loginsOf_run _ w) fun pending => rfl

theorem historyAct_run (env : Env) (peerLogin senderLogin : Bytes) (w : World) :
    (historyAct env peerLogin senderLogin).run w =
      answeredFrom (historyAnswer env peerLogin senderLogin w.store) w := by
  rw [historyAct, query_bind, query_bind]
  refine reads_bind (valueOf_run _ w) fun sender => ?_
  refine reads_bind (valueOf_run _ w) fun peer => ?_
  rw [query_bind]
  exact reads_bind (historyEntries_run _ w) fun entries => rfl

theorem chatListAct_run (env : Env) (login : Bytes) (w : World) :
    (chatListAct env login).run w = answeredFrom (chatListAnswer env login w.store) w := by
  rw [chatListAct, query_bind, chatListAnswer]
  cases getIdByLogin login w.store with
  | ok id => rfl
  | error e =>
    simp only [EStateM.run_bind, errorOf]
    cases env.inactive with
    | some unread => rfl
    | none => rfl

/-- The ids that a request about friends works on, or why there are none. -/
def friendIds (senderLogin targetLogin : Bytes) (st : Store) : Except ErrorCode (ℤ × ℤ) := do
  let target ← getIdByLogin targetLogin st
  let sender ← getIdByLogin senderLogin st
  return (sender, target)

/-- The notice to the session behind a map entry, if it is alive. -/
def withNotice (w : World) (notice : PacketType) (login : Bytes) : World :=
  match w.getSession login with
  | some sess => { w with sent := w.sent ++ [viaEntry w sess notice [] (.notice login)] }
  | none => w

theorem userExists_eq (login : Bytes) (st : Store) :
    (userExists login st = Error.Base.ok ∧ ∃ id, getIdByLogin login st = .ok id) ∨
      (userExists login st = Error.User.notFound ∧
        getIdByLogin login st = .error Error.User.notFound) := by
  rcases getIdByLogin_cases login st with ⟨hknown, hid⟩ | ⟨hunknown, hnone⟩
  · exact Or.inl ⟨if_pos hknown, hid⟩
  · exact Or.inr ⟨if_neg hunknown, hnone⟩

theorem friendAct_refused (env : Env) (operation : ℤ → ℤ → StoreM ErrorCode) (notice : PacketType)
    {targetLogin senderLogin : Bytes} {w : World} {e : ErrorCode}
    (h : friendIds senderLogin targetLogin w.store = .error e) :
    e.ok = false ∧
      (friendAct env operation notice targetLogin senderLogin).run w = .ok (.friend ⟨e⟩) w := by
  simp only [friendAct, EStateM.run_bind, query_run]
  rcases userExists_eq targetLogin w.store with ⟨hexists, target, htarget⟩ | ⟨hexists, hnone⟩
  · rcases userExists_eq senderLogin w.store with ⟨-, sender, hsender⟩ | ⟨-, hsender⟩
    · simp only [friendIds, htarget, hsender] at h
      cases h
    · simp only [friendIds, htarget, hsender] at h
      cases h
      refine ⟨by decide, ?_⟩
      simp only [hexists, base_ok, Bool.not_true, Bool.false_eq_true, if_false, EStateM.run_bind,
        query_run, htarget, hsender]
      rfl
  · simp only [friendIds, hnone] at h
    cases h
    refine ⟨by decide, ?_⟩
    simp only [hexists]
    rfl

theorem friendAct_run (env : Env) (operation : ℤ → ℤ → StoreM ErrorCode) (notice : PacketType)
    {targetLogin senderLogin : Bytes} {w : World} {sender target : ℤ}
    (h : friendIds senderLogin targetLogin w.store = .ok (sender, target)) :
    (friendAct env operation notice targetLogin senderLogin).run w =
      match (operation sender target).run w.store with
      | .error e st => .error e { w with store := st }
      | .ok err st =>
        if err.ok then
          .ok (.friend ⟨Error.Base.ok⟩) (withNotice { w with store := st } notice targetLogin)
        else .ok (.friend ⟨err⟩) { w with store := st } := by
  rcases userExists_eq targetLogin w.store with ⟨hexists, target', htarget⟩ | ⟨-, hnone⟩
  · rcases userExists_eq senderLogin w.store with ⟨-, sender', hsender⟩ | ⟨-, hsender⟩
    · simp only [friendIds, htarget, hsender] at h
      cases h
      rw [friendAct, query_bind, hexists]
      simp only [base_ok, Bool.not_true, Bool.false_eq_true, if_false]
      rw [query_bind, query_bind, hsender, htarget]
      simp only [hasValue, Bool.and_self, Bool.not_true, Bool.false_eq_true, if_false]
      rw [valueOf_bind, valueOf_bind]
      simp only [EStateM.run_bind, liftStore_run, liftStore]
      cases (operation sender target).run w.store with
      | error e st => rfl
      | ok err st =>
        cases herr : err.ok with
        | false =>
          simp only [herr, Bool.not_false, if_true, Bool.false_eq_true, if_false]
          rfl
        | true =>
          simp only [herr, Bool.not_true, Bool.false_eq_true, if_false, if_true,
            EStateM.run_bind, getSession_run, withNotice]
          cases World.getSession { w with store := st } targetLogin <;> rfl
    · simp only [friendIds, htarget, hsender] at h
      cases h
  · simp only [friendIds, hnone] at h
    cases h

/-- How handle_direct_message goes on after the lookup: it throws for want of the sender's
id, refuses, or has two friends. -/
def directMessagePlan (recipientLogin senderLogin : Bytes) (st : Store) :
    Except Exn (Except ErrorCode (ℤ × ℤ)) :=
  match getIdByLogin recipientLogin st with
  | .error e => .ok (.error e)
  | .ok recipient =>
    match getIdByLogin senderLogin st with
    | .error _ => .error .badExpectedAccess
    | .ok sender =>
      if (FriendRepository.areFriends sender recipient st).ok then .ok (.ok (sender, recipient))
      else .ok (.error (FriendRepository.areFriends sender recipient st))

/-- The packet that pushes the next row to the session behind the recipient's entry. -/
def pushed (w : World) (recipientLogin senderLogin message : Bytes) : List Sent :=
  match w.getSession recipientLogin with
  | some sess =>
    [viaEntry w sess .directMessage
      (serialize (DirectMessageIncoming.mk senderLogin message
        (Int64.ofInt (w.store.db.directMessages.seq + 1))))
      (.push recipientLogin (w.store.db.directMessages.seq + 1))]
  | none => []

/-- The message stored and pushed. -/
def withDirectMessage (env : Env) (w : World) (recipientLogin senderLogin message : Bytes)
    (sender recipient : ℤ) : World :=
  { w with
    store := withMessage w.store sender recipient (env.clock w.store.clockReads) message
    sent := w.sent ++ pushed w recipientLogin senderLogin message }

theorem isSome_findUser_of_getIdByLogin {login : Bytes} {id : ℤ} {st : Store}
    (h : getIdByLogin login st = .ok id) : (st.db.findUser id).isSome := by
  unfold getIdByLogin at h
  cases hu : st.db.findLogin login with
  | none =>
    rw [hu] at h
    cases h
  | some u =>
    rw [hu] at h
    cases h
    rw [Database.findUser_of_findLogin hu]
    rfl

theorem directMessageAct_run (env : Env) (recipientLogin message senderLogin : Bytes)
    (w : World) :
    (directMessageAct env recipientLogin message senderLogin).run w =
      match directMessagePlan recipientLogin senderLogin w.store with
      | .error e => .error e w
      | .ok (.error e) => .ok (.directMessage ⟨e⟩) w
      | .ok (.ok (sender, recipient)) =>
        .ok (.directMessage ⟨Error.Base.ok⟩)
          (withDirectMessage env w recipientLogin senderLogin message sender recipient) := by
  simp only [directMessageAct, EStateM.run_bind, query_run, directMessagePlan]
  rcases userExists_eq recipientLogin w.store with
    ⟨hexists, recipient, hrecipient⟩ | ⟨hexists, hnone⟩
  · simp only [hexists, hrecipient, base_ok, Bool.not_true, Bool.false_eq_true, if_false,
      EStateM.run_bind, query_run, valueOf_run]
    cases hsender : getIdByLogin senderLogin w.store with
    | error e => rfl
    | ok sender =>
      simp only [expectValue, answeredFrom]
      cases hfriends : (FriendRepository.areFriends sender recipient w.store).ok with
      | false => rfl
      | true =>
        have husers : ∀ id ∈ [sender, recipient], (w.store.db.findUser id).isSome := by
          simp [isSome_findUser_of_getIdByLogin hsender,
            isSome_findUser_of_getIdByLogin hrecipient]
        simp only [Bool.not_true, Bool.false_eq_true, if_false, if_true, EStateM.run_bind,
          getSession_run, liftStore_run, liftStore, saveMessage_run env message husers]
        unfold withDirectMessage pushed
        cases w.getSession recipientLogin with
        | some sess => rfl
        | none =>
          rw [List.append_nil]
          rfl
  · simp only [hexists, hnone]
    rfl

theorem refusal_of_plan {recipientLogin senderLogin : Bytes} {st : Store} {e : ErrorCode}
    (h : directMessagePlan recipientLogin senderLogin st = .ok (.error e)) : e.ok = false := by
  unfold directMessagePlan at h
  rcases userExists_eq recipientLogin st with ⟨-, recipient, hrecipient⟩ | ⟨-, hnone⟩
  · cases hsender : getIdByLogin senderLogin st with
    | error e =>
      rw [hrecipient, hsender] at h
      cases h
    | ok sender =>
      simp only [hrecipient, hsender] at h
      split at h
      · cases h
      · cases h
        exact Bool.eq_false_iff.mpr (by assumption)
  · rw [hnone] at h
    cases h
    decide

/-- The three ends of a message's handler behind the lookup. -/
inductive Messaging (env : Env) (recipientLogin message senderLogin : Bytes) (w : World) :
    EStateM.Result Exn World Response → Prop where
  | thrown (e : Exn) (hplan : directMessagePlan recipientLogin senderLogin w.store = .error e) :
      Messaging env recipientLogin message senderLogin w (.error e w)
  | refused (e : ErrorCode)
      (hplan : directMessagePlan recipientLogin senderLogin w.store = .ok (.error e))
      (hrefused : e.ok = false) :
      Messaging env recipientLogin message senderLogin w (.ok (.directMessage ⟨e⟩) w)
  | accepted (sender recipient : ℤ)
      (hplan : directMessagePlan recipientLogin senderLogin w.store =
        .ok (.ok (sender, recipient))) :
      Messaging env recipientLogin message senderLogin w
        (.ok (.directMessage ⟨Error.Base.ok⟩)
          (withDirectMessage env w recipientLogin senderLogin message sender recipient))

theorem directMessageAct_messaging (env : Env) (recipientLogin message senderLogin : Bytes)
    (w : World) :
    Messaging env recipientLogin message senderLogin w
      ((directMessageAct env recipientLogin message senderLogin).run w) := by
  rw [directMessageAct_run]
  cases hplan : directMessagePlan recipientLogin senderLogin w.store with
  | error e => exact .thrown e hplan
  | ok plan =>
    cases plan with
    | error e => exact .refused e hplan (refusal_of_plan hplan)
    | ok ids => exact .accepted ids.1 ids.2 hplan

end Messenger.TokenRequests
