import Messenger.Messages
import Messenger.MessageRepository
import Messenger.FriendRepository
import Mathlib.Data.List.AList

/-!
The state the handlers share: the store, the files, the sessions that are alive and
SessionManager's map from logins to sessions. `sent` records every call of
send_packet with its reason and with the login its target had at that moment; the
wire carries only the type and the body. A program over the world that throws leaves
what it had done so far. An upload to one of the files that SQLite keeps the tables in is
where the model ends.
-/
namespace Messenger

open Outcomes

abbrev ConnId := ℕ

/-- The value that a handler serializes into its RESULT. -/
inductive Response where
  | auth (r : AuthResponse)
  | chat (r : ChatResponse)
  | fileUpload (r : FileUploadResponse)
  | fileDownload (r : FileDownloadResponse)
  | friend (r : FriendResponse)
  | friendList (r : FriendListResponse)
  | directMessage (r : DirectMessageResponse)
  | chatList (r : ChatListResponse)
  | history (r : HistoryResponse)
  | tokenVerify (r : TokenVerifyResponse)
deriving DecidableEq, Repr

namespace Response

def serialize : Response → Bytes
  | auth r => Messenger.serialize r
  | chat r => Messenger.serialize r
  | fileUpload r => Messenger.serialize r
  | fileDownload r => Messenger.serialize r
  | friend r => Messenger.serialize r
  | friendList r => Messenger.serialize r
  | directMessage r => Messenger.serialize r
  | chatList r => Messenger.serialize r
  | history r => Messenger.serialize r
  | tokenVerify r => Messenger.serialize r

def error : Response → ErrorCode
  | auth r => r.error
  | chat r => r.error
  | fileUpload r => r.error
  | fileDownload r => r.error
  | friend r => r.error
  | friendList r => r.error
  | directMessage r => r.error
  | chatList r => r.error
  | history r => r.error
  | tokenVerify r => r.error

end Response

/-- Why a packet was handed to send_packet: as the answer to a request, through the
map entry of a login, or out of the backlog of the session's own user. -/
inductive Cause where
  | result (request : PacketType) (response : Response)
  | broadcast (login : Bytes)
  | notice (login : Bytes)
  | push (login : Bytes) (row : ℤ)
  | pending (row : ℤ)
deriving DecidableEq, Repr

structure Sent where
  conn : ConnId
  packetType : PacketType
  body : Bytes
  cause : Cause
  asLogin : Bytes
deriving DecidableEq, Repr

structure ClientSession where
  currentLogin : Bytes
  currentToken : Bytes
deriving DecidableEq, Repr

/-- `terminated`: an exception has left main's io_context.run(). `overwritten`: an
upload has replaced a file SQLite keeps the tables in; nothing is modelled after it. -/
inductive ServerStatus where
  | running
  | terminated
  | overwritten
deriving DecidableEq, Repr

structure World where
  store : Store
  files : ℕ → Option Bytes
  randomDraws : ℕ
  onlineUsers : AList (fun _ : Bytes => ConnId)
  sessions : ConnId → Option ClientSession
  nextConn : ConnId
  sent : List Sent
  status : ServerStatus

abbrev ServerM := EStateM Exn World

def liftStore {α : Type} (m : StoreM α) : ServerM α := fun w =>
  match m.run w.store with
  | .ok a store => .ok a { w with store := store }
  | .error e store => .error e { w with store := store }

instance : MonadLift StoreM ServerM := ⟨liftStore⟩

def query {α : Type} (f : Store → α) : ServerM α := do
  let w ← get
  return f w.store

/-- `T::deserialize(body)` inside a handler. -/
def decode (Derived : Type) {Args : Type} [Serializable Derived Args] [TupleSerializer Args]
    (body : Bytes) : ServerM Derived :=
  match deserialize Derived body with
  | .ok d => pure d
  | .error e => throw e

def hasValue {α : Type} : Except ErrorCode α → Bool
  | .ok _ => true
  | .error _ => false

def valueOf {α : Type} : Except ErrorCode α → ServerM α
  | .ok a => pure a
  | .error _ => throw .badExpectedAccess

/-- `.error()` on an expected that holds a value reads the inactive member. That is undefined:
the program goes on with whatever it finds there, or stops. -/
def errorOf {α : Type} (env : Env) : Except ErrorCode α → ServerM ErrorCode
  | .ok _ =>
    match env.inactive with
    | some e => pure e
    | none => throw .undefinedBehaviour
  | .error e => pure e

namespace World

def currentLogin (w : World) (c : ConnId) : Bytes :=
  match w.sessions c with
  | some s => s.currentLogin
  | none => []

/-- `weak_ptr::lock`. -/
def lock (w : World) (c : ConnId) : Option ConnId :=
  if (w.sessions c).isSome then some c else none

def getSession (w : World) (login : Bytes) : Option ConnId :=
  (w.onlineUsers.lookup login).bind w.lock

end World

def modifySession (self : ConnId) (f : ClientSession → ClientSession) : ServerM Unit :=
  modify (fun w =>
    { w with sessions := Function.update w.sessions self ((w.sessions self).map f) })

def sendPacket (conn : ConnId) (packetType : PacketType) (body : Bytes) (cause : Cause) :
    ServerM Unit :=
  modify (fun w =>
    { w with sent := w.sent ++ [⟨conn, packetType, body, cause, w.currentLogin conn⟩] })

namespace SessionManager

def addUser (login : Bytes) (session : ConnId) : ServerM Unit :=
  modify (fun w => { w with onlineUsers := w.onlineUsers.insert login session })

def getSession (login : Bytes) : ServerM (Option ConnId) := do
  let w ← get
  return w.getSession login

/-- One entry after the other; a dead weak pointer is passed over. -/
def broadcastLoop (senderLogin : Bytes) (packetType : PacketType) (body : Bytes) :
    List (Bytes × ConnId) → ServerM Unit
  | [] => pure ()
  | (login, weakSess) :: rest => do
    let w ← get
    if login != senderLogin then
      match w.lock weakSess with
      | some sess => sendPacket sess packetType body (.broadcast login)
      | none => pure ()
    broadcastLoop senderLogin packetType body rest

def broadcast (senderLogin : Bytes) (packetType : PacketType) (body : Bytes) : ServerM Unit := do
  let w ← get
  broadcastLoop senderLogin packetType body
    (w.onlineUsers.entries.map (fun e => (e.1, e.2)))

end SessionManager

/-- messenger.db in the working directory, with the journals SQLite keeps beside it. -/
def databaseNames : List Bytes :=
  let name : Bytes := [109, 101, 115, 115, 101, 110, 103, 101, 114, 46, 100, 98]
  [name, name ++ [45, 119, 97, 108], name ++ [45, 115, 104, 109],
    name ++ [45, 106, 111, 117, 114, 110, 97, 108]]

def databaseFiles (env : Env) : List ℕ := databaseNames.filterMap env.resolve

/-- What is written to a stream that did not open, or finds no room, is lost without a word. -/
def bytesToFile (env : Env) (fileName bytes : Bytes) : ServerM Unit :=
  match env.resolve (cStr fileName) with
  | none => pure ()
  | some file =>
    if env.writable file then
      modify (fun w => {
        w with
        files := Function.update w.files file (some (bytes.take (env.room file)))
        status := if (databaseFiles env).contains file then .overwritten else w.status })
    else pure ()

/-- `file_size` throws where there is no regular file; an unreadable one leaves the buffer
zero. -/
def fileToBytes (env : Env) (fileName : Bytes) : ServerM Bytes := do
  let w ← get
  match env.resolve (cStr fileName) with
  | none => throw (.filesystemError "cannot get file size")
  | some file =>
    match w.files file with
    | none => throw (.filesystemError "cannot get file size")
    | some content =>
      if !env.regular file then throw (.filesystemError "cannot get file size")
      else if env.readable file then return content
      else return List.replicate content.length 0

def serverKey : Bytes := List.replicate 32 0x42

def encryptAES (env : Env) (plaintext key : Bytes) : ServerM Bytes := do
  if key.length ≠ 32 then throw (.invalidArgument "Key must be 32 bytes for AES-256")
  else
    let w ← get
    modify (fun w => { w with randomDraws := w.randomDraws + 1 })
    match env.randBytes w.randomDraws with
    | none => throw (.runtimeError "Failed to generate IV using RAND_bytes")
    | some iv =>
      match env.evpEncrypt key iv plaintext with
      | .error .context => throw (.runtimeError "Failed to create cipher context")
      | .error .init => throw (.runtimeError "Failed to initialize encryption")
      | .error .update => throw (.runtimeError "Encryption failed")
      | .error .final => throw (.runtimeError "Finalization failed")
      | .ok (out, last) =>
        -- `total_len` is an int; one that has wrapped is no size for `resize`
        if out.length + last.length < 2 ^ 31 then return iv ++ (out ++ last)
        else throw (.lengthError "vector::_M_default_append")

def decryptAES (env : Env) (ciphertextWithIv key : Bytes) : ServerM Bytes :=
  if key.length ≠ 32 then throw (.invalidArgument "Key must be 32 bytes for AES-256")
  else if ciphertextWithIv.length < 16 then
    throw (.invalidArgument "Ciphertext too short: less than 16 bytes for IV")
  else
    match env.evpDecrypt key (ciphertextWithIv.take 16) (ciphertextWithIv.drop 16) with
    | .error .context => throw (.runtimeError "Failed to create cipher context")
    | .error .init => throw (.runtimeError "Failed to initialize decryption")
    | .error .update => throw (.runtimeError "Decryption failed")
    | .error .final =>
      throw (.runtimeError "Decryption finalization failed - wrong key or corrupted data")
    | .ok (out, last) =>
      if out.length + last.length < 2 ^ 31 then pure (out ++ last)
      else throw (.lengthError "vector::_M_default_append")

end Messenger
