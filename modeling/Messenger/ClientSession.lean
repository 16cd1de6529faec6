import Messenger.Server
import Messenger.LabelledRuns

/-!
client_session.hpp, handler by handler, and the server around it. A handler decodes
its request first, then works on the world; `self` is the session it runs on. The
step function reads one event: an accepted connection, a packet, the end of a
session, the token cleaner's timer, or a restart on the tables as they stand. An
exception that leaves handle_packet leaves io_context.run() and main as well.
-/
namespace Messenger

open Outcomes UserRepository

namespace ClientSession

/-- The login is returned when `is_auth_success` is set. -/
def handleRegister (env : Env) (self : ConnId) (body : Bytes) :
    ServerM (Response × Option Bytes) := do
  let req ← decode AuthRequest body
  let err ← registerUser env req.login req.password
  if err.ok then
    let token ← verifyUser env req.login req.password
    let token ← valueOf token
    modifySession self (fun s => { s with currentToken := token })
    return (.auth ⟨token, Error.Base.ok⟩, some req.login)
  else return (.auth ⟨[], err⟩, none)

def handleLogin (env : Env) (self : ConnId) (body : Bytes) :
    ServerM (Response × Option Bytes) := do
  let req ← decode AuthRequest body
  match ← verifyUser env req.login req.password with
  | .ok token =>
    modifySession self (fun s => { s with currentToken := token })
    return (.auth ⟨token, Error.Base.ok⟩, some req.login)
  | .error e => return (.auth ⟨[], e⟩, none)

def handleMessage (env : Env) (body : Bytes) : ServerM Response := do
  let req ← decode ChatSendRequest body
  match ← getLoginByToken env req.token with
  | .ok login =>
    SessionManager.broadcast login .message (serialize (ChatIncoming.mk login req.message))
    return .chat ⟨Error.Base.ok⟩
  | .error e => return .chat ⟨e⟩

def handleUpload (env : Env) (body : Bytes) : ServerM Response := do
  let req ← decode FileUploadRequest body
  match ← getLoginByToken env req.token with
  | .ok _ =>
    let encrypted ← encryptAES env req.fileData serverKey
    bytesToFile env req.fileName encrypted
    return .fileUpload ⟨Error.Base.ok⟩
  | .error e => return .fileUpload ⟨e⟩

def handleDownload (env : Env) (body : Bytes) : ServerM Response := do
  let req ← decode FileDownloadRequest body
  match ← getLoginByToken env req.token with
  | .ok _ =>
    let bytes ← fileToBytes env req.fileName
    let decrypted ← decryptAES env bytes serverKey
    return .fileDownload ⟨decrypted, Error.Base.ok⟩
  | .error e => return .fileDownload ⟨[], e⟩

/-- handle_friend_request, handle_friend_accept and handle_friend_reject differ in the
repository call and in the type of the notice. -/
def handleFriend (operation : ℤ → ℤ → StoreM ErrorCode) (notice : PacketType) (env : Env)
    (body : Bytes) : ServerM Response := do
  let req ← decode FriendRequest body
  match ← getLoginByToken env req.token with
  | .error e => return .friend ⟨e⟩
  | .ok senderLogin =>
    let userExistsErr ← query (userExists req.targetLogin)
    if !userExistsErr.ok then return .friend ⟨userExistsErr⟩
    else
      let senderId ← query (getIdByLogin senderLogin)
      let targetId ← query (getIdByLogin req.targetLogin)
      if !(hasValue senderId && hasValue targetId) then
        let senderError ← errorOf env senderId
        let error ← if senderError.ok then errorOf env targetId else errorOf env senderId
        return .friend ⟨error⟩
      else
        let sender ← valueOf senderId
        let target ← valueOf targetId
        let err ← operation sender target
        if !err.ok then return .friend ⟨err⟩
        else
          match ← SessionManager.getSession req.targetLogin with
          | some sess => sendPacket sess notice [] (.notice req.targetLogin)
          | none => pure ()
          return .friend ⟨Error.Base.ok⟩

def handleFriendRequest : Env → Bytes → ServerM Response :=
  handleFriend FriendRepository.sendRequest .friendNewRequest

def handleFriendAccept : Env → Bytes → ServerM Response :=
  handleFriend FriendRepository.acceptRequest .friendRequestAccepted

def handleFriendReject : Env → Bytes → ServerM Response :=
  handleFriend FriendRepository.rejectRequest .friendRequestRejected

/-- `getLoginById(el).value()` for each id of a list. -/
def loginsOf : List ℤ → ServerM (List Bytes)
  | [] => return []
  | el :: rest => do
    let found ← query (getLoginById el)
    let login ← valueOf found
    let logins ← loginsOf rest
    return login :: logins

def handleFriendList (env : Env) (body : Bytes) : ServerM Response := do
  let req ← decode FriendListRequest body
  match ← getLoginByToken env req.token with
  | .error e => return .friendList ⟨[], [], e⟩
  | .ok senderLogin =>
    let senderId ← query (getIdByLogin senderLogin)
    let id ← valueOf senderId
    let friendList ← query (FriendRepository.getFriends id)
    let friendListLogin ← loginsOf friendList
    let pendingList ← query (FriendRepository.getPendingIncoming id)
    let pendingListLogin ← loginsOf pendingList
    return .friendList ⟨friendListLogin, pendingListLogin, Error.Base.ok⟩

def historyEntries : List DirectMessage → ServerM (List HistoryEntry)
  | [] => return []
  | m :: rest => do
    let found ← query (getLoginById m.sender)
    let fromLogin ← valueOf found
    let entries ← historyEntries rest
    return ⟨fromLogin, m.message, Int64.ofInt m.timestamp⟩ :: entries

def handleMessageHistory (env : Env) (body : Bytes) : ServerM Response := do
  let req ← decode HistoryRequest body
  match ← getLoginByToken env req.token with
  | .error e => return .history ⟨[], e⟩
  | .ok senderLogin =>
    let senderId ← query (getIdByLogin senderLogin)
    let peerId ← query (getIdByLogin req.peerLogin)
    let sender ← valueOf senderId
    let peer ← valueOf peerId
    let messages ← query (MessageRepository.getHistory env sender peer 100)
    let entries ← historyEntries messages
    return .history ⟨entries, Error.Base.ok⟩

/-- The timestamp pushed is what saveMessage returns. -/
def handleDirectMessage (env : Env) (body : Bytes) : ServerM Response := do
  let req ← decode DirectMessageRequest body
  match ← getLoginByToken env req.token with
  | .error e => return .directMessage ⟨e⟩
  | .ok senderLogin =>
    let existsErr ← query (userExists req.recipientLogin)
    if !existsErr.ok then return .directMessage ⟨existsErr⟩
    else
      let senderId ← query (getIdByLogin senderLogin)
      let recipientId ← query (getIdByLogin req.recipientLogin)
      let sender ← valueOf senderId
      let recipient ← valueOf recipientId
      let friendsErr ← query (FriendRepository.areFriends sender recipient)
      if !friendsErr.ok then return .directMessage ⟨friendsErr⟩
      else
        let online ← SessionManager.getSession req.recipientLogin
        let ts ← MessageRepository.saveMessage env sender recipient req.message
        match online with
        | some sess =>
          sendPacket sess .directMessage
            (serialize (DirectMessageIncoming.mk senderLogin req.message (Int64.ofInt ts)))
            (.push req.recipientLogin ts)
        | none => pure ()
        return .directMessage ⟨Error.Base.ok⟩

/-- Without an id, `errorCode` is taken from `sender_login`, which holds a value. The answer
does not depend on it. -/
def handleChatList (env : Env) (body : Bytes) : ServerM Response := do
  let req ← decode ChatListRequest body
  let senderLogin ← getLoginByToken env req.token
  match senderLogin with
  | .error e => return .chatList ⟨[], e⟩
  | .ok login =>
    match ← query (getIdByLogin login) with
    | .error e =>
      let _ ← errorOf env senderLogin
      return .chatList ⟨[], e⟩
    | .ok id =>
      let lastMessages ← query (MessageRepository.getLastMessages env id)
      return .chatList
        ⟨lastMessages.map (fun m => ⟨m.peerLogin, m.message, Int64.ofInt m.timestamp⟩),
          Error.Base.ok⟩

/-- Hand over each message of the backlog and collect its id. -/
def deliverLoop (self : ConnId) : List StoredMessage → ServerM (List ℤ)
  | [] => return []
  | el :: rest => do
    let found ← query (getLoginById el.sender)
    let senderLogin ← valueOf found
    sendPacket self .directMessage
      (serialize (DirectMessageIncoming.mk senderLogin el.message (Int64.ofInt el.timestamp)))
      (.pending el.id)
    let ids ← deliverLoop self rest
    return el.id :: ids

def deliverPending (env : Env) (self : ConnId) : ServerM Unit := do
  let w ← get
  let found ← query (getIdByLogin (w.currentLogin self))
  let id ← valueOf found
  let pending ← query (MessageRepository.getUndelivered env id)
  if pending.isEmpty then return ()
  else
    let ids ← deliverLoop self pending
    MessageRepository.markDelivered ids

def handleTokenVerify (env : Env) (self : ConnId) (body : Bytes) :
    ServerM (Response × Option Bytes) := do
  let req ← decode TokenVerifyRequest body
  match ← getLoginByToken env req.oldToken with
  | .ok login =>
    modifySession self (fun s => { s with currentToken := req.oldToken })
    return (.tokenVerify ⟨Error.Base.ok⟩, some login)
  | .error e => return (.tokenVerify ⟨e⟩, none)

def handleLogout (self : ConnId) (body : Bytes) : ServerM Unit := do
  let req ← decode LogoutRequest body
  UserRepository.logout req.oldToken
  modifySession self (fun _ => ⟨[], []⟩)

/-- An answer without authentication. -/
def answer (m : ServerM Response) : ServerM (Option Response × Option Bytes) := do
  let r ← m
  return (some r, none)

def answerAuth (m : ServerM (Response × Option Bytes)) :
    ServerM (Option Response × Option Bytes) := do
  let r ← m
  return (some r.1, r.2)

/-- The switch: the response, if any, and the login of a successful authentication. -/
def dispatch (env : Env) (self : ConnId) (packetType : PacketType) (body : Bytes) :
    ServerM (Option Response × Option Bytes) :=
  match packetType with
  | .register => answerAuth (handleRegister env self body)
  | .login => answerAuth (handleLogin env self body)
  | .message => answer (handleMessage env body)
  | .upload => answer (handleUpload env body)
  | .download => answer (handleDownload env body)
  | .friendRequest => answer (handleFriendRequest env body)
  | .friendAccept => answer (handleFriendAccept env body)
  | .friendReject => answer (handleFriendReject env body)
  | .friendList => answer (handleFriendList env body)
  | .directMessage => answer (handleDirectMessage env body)
  | .messageHistory => answer (handleMessageHistory env body)
  | .tokenVerify => answerAuth (handleTokenVerify env self body)
  | .chatList => answer (handleChatList env body)
  | .logout => do
    handleLogout self body
    return (none, none)
  | _ => pure (none, none)

/-- `if(is_auth_success)`. -/
def welcome (env : Env) (self : ConnId) : Option Bytes → ServerM Unit
  | some login => do
    modifySession self (fun s => { s with currentLogin := login })
    deliverPending env self
    SessionManager.addUser login self
  | none => pure ()

/-- `if(!response.empty())`. -/
def respond (self : ConnId) (packetType : PacketType) : Option Response → ServerM Unit
  | some response =>
    if response.serialize.isEmpty then pure ()
    else sendPacket self .result response.serialize (.result packetType response)
  | none => pure ()

def handlePacket (env : Env) (self : ConnId) (packetType : PacketType) (body : Bytes) :
    ServerM Unit := do
  let answered ← dispatch env self packetType body
  welcome env self answered.2
  respond self packetType answered.1

end ClientSession

inductive Event where
  | connect
  | packet (conn : ConnId) (packetType : PacketType) (body : Bytes)
  | disconnect (conn : ConnId)
  | cleanTokens
  | restart
deriving DecidableEq, Repr

namespace World

/-- main up to server.run(): nobody is connected and expired tokens are deleted. -/
def boot (env : Env) (w : World) : World :=
  { w with
    store := final ((cleanExpiredTokens env).run w.store)
    onlineUsers := ∅
    sessions := fun _ => none
    status := .running }

/-- The first start, on a new database. -/
def initial (env : Env) (files : ℕ → Option Bytes) : World :=
  boot env
    { store := ⟨Database.created, 0, 0⟩
      files := files
      randomDraws := 0
      onlineUsers := ∅
      sessions := fun _ => none
      nextConn := 0
      sent := []
      status := .running }

/-- The server object is unwound, and every session with it. -/
def terminate (w : World) : World :=
  { w with sessions := fun _ => none, status := .terminated }

/-- `~ClientSession`. -/
def destroy (w : World) (c : ConnId) : World :=
  { w with
    onlineUsers :=
      if (w.currentLogin c).isEmpty then w.onlineUsers
      else w.onlineUsers.erase (w.currentLogin c)
    sessions := Function.update w.sessions c none }

def accept (w : World) : World :=
  { w with
    sessions := Function.update w.sessions w.nextConn (some ⟨[], []⟩)
    nextConn := w.nextConn + 1 }

/-- The packet of a live connection, and what follows when its handler throws. -/
def receive (env : Env) (w : World) (c : ConnId) (packetType : PacketType) (body : Bytes) :
    World :=
  match (ClientSession.handlePacket env c packetType body).run w with
  | .ok _ w' => w'
  | .error _ w' => w'.terminate

def step (env : Env) (w : World) : Event → World
  | .restart => if w.status = .overwritten then w else w.boot env
  | .connect => if w.status = .running then w.accept else w
  | .packet c packetType body =>
    if w.status = .running ∧ (w.sessions c).isSome then w.receive env c packetType body else w
  | .disconnect c => if w.status = .running then w.destroy c else w
  | .cleanTokens =>
    if w.status = .running then
      { w with store := final ((cleanExpiredTokens env).run w.store) }
    else w

/-- A state of a server that was first started on a new database. -/
def Reachable (env : Env) (w : World) : Prop :=
  ∃ files events, LabelledRuns.run (step env) (initial env files) events = w

end World

end Messenger
