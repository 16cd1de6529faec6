import Messenger.NetworkSession
import Messenger.HandlePacket

/-!
The client: ClientAsyncHandler, which takes a RESULT for the answer to the oldest request
still open, and ClientHandlerQml, which turns the calls of the interface into requests.
All of its requests wait for a RESULT but LOGOUT, which is sent past the queue.
-/
namespace Messenger

open Outcomes

/-- The calls of the `on_...` functions. -/
inductive Callback where
  | onTokenResponse (res : TokenVerifyResponse)
  | onAuthResponse (res : AuthResponse)
  | onChatIncoming (msg : ChatIncoming)
  | onDmIncoming (msg : DirectMessageIncoming)
  | onFriendResponse (res : FriendResponse)
  | onFriendListResponse (res : FriendListResponse)
  | onHistoryResponse (res : HistoryResponse)
  | onChatList (res : ChatListResponse)
  | onFriendNewRequest
deriving DecidableEq, Repr

structure ClientAsyncHandler where
  pendingRequests : List PacketType
  messages : List Bytes
  callbacks : List Callback
deriving DecidableEq, Repr

namespace ClientAsyncHandler

abbrev ClientM := EStateM Exn ClientAsyncHandler

def new : ClientAsyncHandler := ⟨[], [], []⟩

/-- The first half of `send_request`, under the mutex. -/
def pushRequest (client : ClientAsyncHandler) (type : PacketType) : ClientAsyncHandler :=
  { client with pendingRequests := client.pendingRequests ++ [type] }

def decodeAs (Derived : Type) {Args : Type} [Serializable Derived Args] [TupleSerializer Args]
    (body : Bytes) : ClientM Derived :=
  match deserialize Derived body with
  | .ok d => pure d
  | .error e => throw e

def call (c : Callback) : ClientM Unit :=
  modify (fun client => { client with callbacks := client.callbacks ++ [c] })

/-- The inner switch, on the request that the RESULT is taken to answer. -/
def handleResult (original : PacketType) (body : Bytes) : ClientM Unit :=
  match original with
  | .tokenVerify => do
    let res ← decodeAs TokenVerifyResponse body
    call (.onTokenResponse res)
  | .register | .login => do
    let res ← decodeAs AuthResponse body
    call (.onAuthResponse res)
  | .friendRequest | .friendAccept | .friendReject => do
    let res ← decodeAs FriendResponse body
    call (.onFriendResponse res)
  | .friendList => do
    let res ← decodeAs FriendListResponse body
    call (.onFriendListResponse res)
  | .messageHistory => do
    let res ← decodeAs HistoryResponse body
    call (.onHistoryResponse res)
  | .chatList => do
    let res ← decodeAs ChatListResponse body
    call (.onChatList res)
  | _ => pure ()

def popRequest : ClientM (Option PacketType) := do
  let client ← get
  match client.pendingRequests with
  | [] => return none
  | original :: rest =>
    set { client with pendingRequests := rest }
    return some original

/-- `line` is pushed as it was declared, empty; the last 200 are kept. -/
def pushLine : ClientM Unit :=
  modify (fun client =>
    let messages := client.messages ++ [[]]
    { client with messages := if messages.length > 200 then messages.tail else messages })

def handleType (packetType : PacketType) (body : Bytes) : ClientM Unit :=
  match packetType with
  | .message => do
    let msg ← decodeAs ChatIncoming body
    call (.onChatIncoming msg)
  | .directMessage => do
    let msg ← decodeAs DirectMessageIncoming body
    call (.onDmIncoming msg)
  | .friendNewRequest | .friendRequestAccepted | .friendRequestRejected =>
    call .onFriendNewRequest
  | .result => do
    match ← popRequest with
    | none => pure ()
    | some original => handleResult original body
  | _ => pure ()

def handlePacket (packetType : PacketType) (body : Bytes) : ClientM Unit := do
  handleType packetType body
  pushLine

/-- The call that a RESULT with this value leads to; those for MESSAGE, DIRECT_MESSAGE and
files are ignored. -/
def callbackOf : Response → Option Callback
  | .tokenVerify r => some (.onTokenResponse r)
  | .auth r => some (.onAuthResponse r)
  | .friend r => some (.onFriendResponse r)
  | .friendList r => some (.onFriendListResponse r)
  | .history r => some (.onHistoryResponse r)
  | .chatList r => some (.onChatList r)
  | _ => none

/-- The calls that are made for a RESULT. -/
def isAnswer : Callback → Bool
  | .onChatIncoming _ | .onDmIncoming _ | .onFriendNewRequest => false
  | _ => true

theorem filter_isAnswer_callbackOf (r : Response) :
    (callbackOf r).toList.filter isAnswer = (callbackOf r).toList := by
  cases r <;> rfl

theorem decodeAs_serialize {Derived Args : Type} [Serializable Derived Args]
    [TupleSerializer Args] [WireTuple Args] {d : Derived} (h : (serialize d).length < 2 ^ 32) :
    decodeAs Derived (serialize d) = pure d := by
  unfold decodeAs
  rw [deserialize_serialize_of_length h]

theorem pushLine_run (client : ClientAsyncHandler) :
    ∃ messages, pushLine.run client = .ok () { client with messages := messages } :=
  ⟨_, rfl⟩

theorem decoded_run {Derived Args : Type} [Serializable Derived Args] [TupleSerializer Args]
    [WireTuple Args] {d : Derived} (h : (serialize d).length < 2 ^ 32)
    (callback : Derived → Callback) (client : ClientAsyncHandler) :
    (do let res ← decodeAs Derived (serialize d); call (callback res) : ClientM Unit).run client =
      .ok () { client with callbacks := client.callbacks ++ [callback d] } := by
  rw [decodeAs_serialize h]
  rfl

theorem ignored_run (client : ClientAsyncHandler) :
    (pure () : ClientM Unit).run client =
      .ok () { client with callbacks := client.callbacks ++ [] } := by
  rw [List.append_nil]
  rfl

/-- A RESULT decoded as the answer to its own request. -/
theorem handleResult_run {request : PacketType} {r : Response}
    (hfits : HandlePacket.answers request r = true) (hlen : r.serialize.length < 2 ^ 32)
    (client : ClientAsyncHandler) :
    (handleResult request r.serialize).run client =
      .ok () { client with callbacks := client.callbacks ++ (callbackOf r).toList } := by
  cases request with
  | register =>
    cases r with
    | auth r => exact decoded_run hlen .onAuthResponse client
    | _ => cases hfits
  | login =>
    cases r with
    | auth r => exact decoded_run hlen .onAuthResponse client
    | _ => cases hfits
  | tokenVerify =>
    cases r with
    | tokenVerify r => exact decoded_run hlen .onTokenResponse client
    | _ => cases hfits
  | friendRequest =>
    cases r with
    | friend r => exact decoded_run hlen .onFriendResponse client
    | _ => cases hfits
  | friendAccept =>
    cases r with
    | friend r => exact decoded_run hlen .onFriendResponse client
    | _ => cases hfits
  | friendReject =>
    cases r with
    | friend r => exact decoded_run hlen .onFriendResponse client
    | _ => cases hfits
  | friendList =>
    cases r with
    | friendList r => exact decoded_run hlen .onFriendListResponse client
    | _ => cases hfits
  | messageHistory =>
    cases r with
    | history r => exact decoded_run hlen .onHistoryResponse client
    | _ => cases hfits
  | chatList =>
    cases r with
    | chatList r => exact decoded_run hlen .onChatList client
    | _ => cases hfits
  | message =>
    cases r with
    | chat r => exact ignored_run client
    | _ => cases hfits
  | directMessage =>
    cases r with
    | directMessage r => exact ignored_run client
    | _ => cases hfits
  | upload =>
    cases r with
    | fileUpload r => exact ignored_run client
    | _ => cases hfits
  | download =>
    cases r with
    | fileDownload r => exact ignored_run client
    | _ => cases hfits
  | _ => cases hfits

theorem handlePacket_result {client : ClientAsyncHandler} {request : PacketType}
    {pending : List PacketType} {r : Response}
    (hpending : client.pendingRequests = request :: pending)
    (hfits : HandlePacket.answers request r = true) (hlen : r.serialize.length < 2 ^ 32) :
    ∃ messages, (handlePacket .result r.serialize).run client =
      .ok () ⟨pending, messages, client.callbacks ++ (callbackOf r).toList⟩ := by
  have hpop : popRequest.run client =
      .ok (some request) { client with pendingRequests := pending } := by
    simp only [popRequest, EStateM.run_bind, EStateM.run_get, hpending]
    rfl
  have hresult := handleResult_run hfits hlen { client with pendingRequests := pending }
  simp only [handlePacket, handleType, EStateM.run_bind, hpop, hresult]
  exact pushLine_run _

/-- A push is decoded, and leaves the open requests alone. -/
theorem handlePacket_push {packetType : PacketType} {body : Bytes}
    (hpush : HandlerActions.Relays packetType body ∨
      (packetType = .directMessage ∧ ∃ msg : DirectMessageIncoming, body = serialize msg))
    (hlen : body.length < 2 ^ 32) (client : ClientAsyncHandler) :
    ∃ messages callback, isAnswer callback = false ∧
      (handlePacket packetType body).run client =
        .ok () ⟨client.pendingRequests, messages, client.callbacks ++ [callback]⟩ := by
  have hcall : ∀ callback, ∃ messages, (do call callback; pushLine : ClientM Unit).run client =
      .ok () ⟨client.pendingRequests, messages, client.callbacks ++ [callback]⟩ :=
    fun callback => pushLine_run { client with callbacks := client.callbacks ++ [callback] }
  rcases hpush with hrelays | ⟨rfl, msg, rfl⟩
  · cases hrelays with
    | message msg =>
      obtain ⟨messages, hrun⟩ := hcall (.onChatIncoming msg)
      refine ⟨messages, .onChatIncoming msg, rfl, ?_⟩
      simp only [handlePacket, handleType, decodeAs_serialize hlen, pure_bind]
      exact hrun
    | newRequest =>
      obtain ⟨messages, hrun⟩ := hcall .onFriendNewRequest
      exact ⟨messages, .onFriendNewRequest, rfl, hrun⟩
    | accepted =>
      obtain ⟨messages, hrun⟩ := hcall .onFriendNewRequest
      exact ⟨messages, .onFriendNewRequest, rfl, hrun⟩
    | rejected =>
      obtain ⟨messages, hrun⟩ := hcall .onFriendNewRequest
      exact ⟨messages, .onFriendNewRequest, rfl, hrun⟩
  · obtain ⟨messages, hrun⟩ := hcall (.onDmIncoming msg)
    refine ⟨messages, .onDmIncoming msg, rfl, ?_⟩
    simp only [handlePacket, handleType, decodeAs_serialize hlen, pure_bind]
    exact hrun

end ClientAsyncHandler

/-- The functions that the interface calls. -/
inductive ClientCall where
  | checkSavedToken (saved : Bytes)
  | logout
  | registerUser (login password : Bytes)
  | loginUser (login password : Bytes)
  | sendMessageGeneralChat (message : Bytes)
  | sendFriendRequest (targetLogin : Bytes)
  | acceptFriendRequest (targetLogin : Bytes)
  | rejectFriendRequest (targetLogin : Bytes)
  | getFriendList
  | sendDirectMessage (recipientLogin message : Bytes)
  | getHistoryDirectMessage (peerLogin : Bytes)
  | getLastMessages
deriving DecidableEq, Repr

namespace ClientHandlerQml

/-- The packet that a call sends, with the token the client holds; an empty token is
neither verified nor logged out. -/
def packetOf (env : Env) (token : Bytes) : ClientCall → Option Packet
  | .checkSavedToken saved =>
    if saved.isEmpty then none
    else some (.tokenVerify, serialize (TokenVerifyRequest.mk saved))
  | .logout =>
    if token.isEmpty then none else some (.logout, serialize (LogoutRequest.mk token))
  | .registerUser login password =>
    some (.register, serialize (AuthRequest.mk login (sha256 env password)))
  | .loginUser login password =>
    some (.login, serialize (AuthRequest.mk login (sha256 env password)))
  | .sendMessageGeneralChat message =>
    some (.message, serialize (ChatSendRequest.mk token message))
  | .sendFriendRequest targetLogin =>
    some (.friendRequest, serialize (FriendRequest.mk token targetLogin))
  | .acceptFriendRequest targetLogin =>
    some (.friendAccept, serialize (FriendRequest.mk token targetLogin))
  | .rejectFriendRequest targetLogin =>
    some (.friendReject, serialize (FriendRequest.mk token targetLogin))
  | .getFriendList => some (.friendList, serialize (FriendListRequest.mk token))
  | .sendDirectMessage recipientLogin message =>
    some (.directMessage, serialize (DirectMessageRequest.mk token recipientLogin message))
  | .getHistoryDirectMessage peerLogin =>
    some (.messageHistory, serialize (HistoryRequest.mk token peerLogin))
  | .getLastMessages => some (.chatList, serialize (ChatListRequest.mk token))

/-- `logout` forgets the token. -/
def tokenAfter (token : Bytes) : ClientCall → Bytes
  | .logout => []
  | _ => token

theorem packetOf_checkSavedToken {env : Env} {token saved : Bytes} {packet : Packet}
    (h : packetOf env token (.checkSavedToken saved) = some packet) :
    (.tokenVerify, serialize (TokenVerifyRequest.mk saved)) = packet := by
  rw [packetOf] at h
  split at h
  · cases h
  · exact Option.some.inj h

theorem packetOf_logout {env : Env} {token : Bytes} {packet : Packet}
    (h : packetOf env token .logout = some packet) :
    (.logout, serialize (LogoutRequest.mk token)) = packet := by
  rw [packetOf] at h
  split at h
  · cases h
  · exact Option.some.inj h

/-- Only LOGOUT is sent without waiting for a RESULT. -/
theorem packetOf_type {env : Env} {token : Bytes} {c : ClientCall} {packet : Packet}
    (h : packetOf env token c = some packet) :
    packet.1 = .logout ∨ HandlePacket.awaitsResult packet.1 = true := by
  cases c with
  | checkSavedToken saved =>
    obtain rfl := packetOf_checkSavedToken h
    exact Or.inr rfl
  | logout =>
    obtain rfl := packetOf_logout h
    exact Or.inl rfl
  | _ =>
    cases h
    exact Or.inr rfl

end ClientHandlerQml

end Messenger
