import Messenger.Codes
import Messenger.BigEndian
import Messenger.OffsetDecoders

/-!
The wire format of messages.hpp. The templates become classes: `Serializer` holds
the branch that the source picks for a field type, `TupleSerializer` folds it over
the tuple of `fields()`, and `Serializable` is the base class of every message.
Encoders append to a body; decoders take the body and an offset, and fail with the
text the source throws. A read that no check guards is `outOfBoundsRead`.
-/
namespace Messenger

open OffsetDecoders

def htonl (value : UInt32) : Bytes := BigEndian.toBytes 4 value.toNat

def ntohl (word : Bytes) : UInt32 := UInt32.ofNat (BigEndian.ofBytes word)

/-- `data.size()` is narrowed to 32 bits before it is written. -/
def pack (body data : Bytes) : Bytes :=
  body ++ htonl (UInt32.ofNat data.length) ++ data

def unpack : Decoder Exn Bytes := fun offset body =>
  if offset + 4 > body.length then .error (.runtimeError "unpack: out of bounds")
  else
    let length := ntohl ((body.drop offset).take 4)
    let offset := offset + 4
    if offset + length.toNat > body.length then
      .error (.runtimeError "unpack: out of bounds reading value")
    else
      let value := (body.drop offset).take length.toNat
      .ok (value, offset + value.length)

/-- The same checks and texts as `unpack`, with a byte vector for the string. -/
def unpackBytes : Decoder Exn Bytes := unpack

def packUi32 (body : Bytes) (value : UInt32) : Bytes := body ++ htonl value

def unpackUi32 : Decoder Exn UInt32 := fun offset body =>
  if offset + 4 > body.length then .error (.runtimeError "unpack: out of bounds")
  else .ok (ntohl ((body.drop offset).take 4), offset + 4)

/-- `static_cast<uint8_t>((value >> (8 * i)) & 0xFF)`; the shift keeps the sign. -/
def byteOfI64 (value : Int64) (i : ℕ) : UInt8 :=
  ((value >>> Int64.ofNat (8 * i)) &&& 0xFF).toUInt64.toUInt8

def packI64 (body : Bytes) (value : Int64) : Bytes :=
  [7, 6, 5, 4, 3, 2, 1, 0].foldl (fun body i => body ++ [byteOfI64 value i]) body

def unpackI64 : Decoder Exn Int64 := fun offset body =>
  if offset + 8 > body.length then .error (.runtimeError "unpack: out of bounds")
  else
    let value := ((body.drop offset).take 8).foldl
      (fun (value : Int64) byte => (value <<< 8) ||| byte.toUInt64.toInt64) 0
    .ok (value, offset + 8)

class Serializer (T : Type) where
  serialize : Bytes → T → Bytes
  deserialize : Decoder Exn T

/-- `serialize_tuple` and `deserialize_tuple`, by recursion over the tuple. -/
class TupleSerializer (Args : Type) where
  serializeTuple : Bytes → Args → Bytes
  deserializeTuple : Decoder Exn Args

/-- `fields()` ties the members of a message; writing through the tie is `ofFields`. -/
class Serializable (Derived : Type) (Args : outParam Type) where
  fields : Derived → Args
  ofFields : Args → Derived
  ofFields_fields : ∀ d, ofFields (fields d) = d

instance : TupleSerializer Unit where
  serializeTuple body _ := body
  deserializeTuple := Decoder.pure ()

instance {T Args : Type} [Serializer T] [TupleSerializer Args] : TupleSerializer (T × Args) where
  serializeTuple body args :=
    TupleSerializer.serializeTuple (Serializer.serialize body args.1) args.2
  deserializeTuple := Serializer.deserialize.pair TupleSerializer.deserializeTuple

section Serializable
variable {Derived Args : Type} [Serializable Derived Args] [TupleSerializer Args]

def serialize (d : Derived) : Bytes :=
  TupleSerializer.serializeTuple [] (Serializable.fields d)

def deserialize (Derived : Type) {Args : Type} [Serializable Derived Args]
    [TupleSerializer Args] (body : Bytes) : Except Exn Derived :=
  (Decoder.map (Serializable.ofFields : Args → Derived)
    TupleSerializer.deserializeTuple).run body

/-- `unpackBytes` cuts the nested record out, then decodes it as a body of its own. -/
def deserializeNested : Decoder Exn Derived := fun offset body =>
  match unpackBytes offset body with
  | .error e => .error e
  | .ok (nested, offset) =>
    match deserialize Derived nested with
    | .error e => .error e
    | .ok value => .ok (value, offset)

instance : Serializer Derived where
  serialize body d := pack body (serialize d)
  deserialize := deserializeNested

end Serializable

/-- `std::string` and `Bytes` fields. -/
instance : Serializer Bytes where
  serialize := pack
  deserialize := unpack

instance : Serializer Int64 where
  serialize := packI64
  deserialize := unpackI64

instance : Serializer ErrorCode where
  serialize body e := packUi32 body e.value
  deserialize := unpackUi32.map ErrorCode.mk

/-- The count is copied out with no check that four bytes are left. -/
def deserializeVector {T : Type} [Serializer T] : Decoder Exn (List T) := fun offset body =>
  if offset + 4 > body.length then .error .outOfBoundsRead
  else
    let size := ntohl ((body.drop offset).take 4)
    (Serializer.deserialize : Decoder Exn T).many size.toNat (offset + 4) body

instance {T : Type} [Serializer T] : Serializer (List T) where
  serialize body vec :=
    vec.foldl Serializer.serialize (body ++ htonl (UInt32.ofNat vec.length))
  deserialize := deserializeVector

structure AuthRequest where
  login : Bytes
  password : Bytes
deriving DecidableEq, Repr

instance : Serializable AuthRequest (Bytes × Bytes × Unit) :=
  ⟨fun d => (d.login, d.password, ()), fun a => ⟨a.1, a.2.1⟩, fun _ => rfl⟩

structure LogoutRequest where
  oldToken : Bytes
deriving DecidableEq, Repr

instance : Serializable LogoutRequest (Bytes × Unit) :=
  ⟨fun d => (d.oldToken, ()), fun a => ⟨a.1⟩, fun _ => rfl⟩

structure AuthResponse where
  token : Bytes
  error : ErrorCode
deriving DecidableEq, Repr

instance : Serializable AuthResponse (Bytes × ErrorCode × Unit) :=
  ⟨fun d => (d.token, d.error, ()), fun a => ⟨a.1, a.2.1⟩, fun _ => rfl⟩

structure TokenVerifyRequest where
  oldToken : Bytes
deriving DecidableEq, Repr

instance : Serializable TokenVerifyRequest (Bytes × Unit) :=
  ⟨fun d => (d.oldToken, ()), fun a => ⟨a.1⟩, fun _ => rfl⟩

structure TokenVerifyResponse where
  error : ErrorCode
deriving DecidableEq, Repr

instance : Serializable TokenVerifyResponse (ErrorCode × Unit) :=
  ⟨fun d => (d.error, ()), fun a => ⟨a.1⟩, fun _ => rfl⟩

structure ChatSendRequest where
  token : Bytes
  message : Bytes
deriving DecidableEq, Repr

instance : Serializable ChatSendRequest (Bytes × Bytes × Unit) :=
  ⟨fun d => (d.token, d.message, ()), fun a => ⟨a.1, a.2.1⟩, fun _ => rfl⟩

structure ChatIncoming where
  senderLogin : Bytes
  message : Bytes
deriving DecidableEq, Repr

instance : Serializable ChatIncoming (Bytes × Bytes × Unit) :=
  ⟨fun d => (d.senderLogin, d.message, ()), fun a => ⟨a.1, a.2.1⟩, fun _ => rfl⟩

structure ChatResponse where
  error : ErrorCode
deriving DecidableEq, Repr

instance : Serializable ChatResponse (ErrorCode × Unit) :=
  ⟨fun d => (d.error, ()), fun a => ⟨a.1⟩, fun _ => rfl⟩

structure FileUploadRequest where
  token : Bytes
  fileName : Bytes
  fileData : Bytes
deriving DecidableEq, Repr

instance : Serializable FileUploadRequest (Bytes × Bytes × Bytes × Unit) :=
  ⟨fun d => (d.token, d.fileName, d.fileData, ()), fun a => ⟨a.1, a.2.1, a.2.2.1⟩, fun _ => rfl⟩

structure FileUploadResponse where
  error : ErrorCode
deriving DecidableEq, Repr

instance : Serializable FileUploadResponse (ErrorCode × Unit) :=
  ⟨fun d => (d.error, ()), fun a => ⟨a.1⟩, fun _ => rfl⟩

structure FileDownloadRequest where
  token : Bytes
  fileName : Bytes
deriving DecidableEq, Repr

instance : Serializable FileDownloadRequest (Bytes × Bytes × Unit) :=
  ⟨fun d => (d.token, d.fileName, ()), fun a => ⟨a.1, a.2.1⟩, fun _ => rfl⟩

structure FileDownloadResponse where
  fileData : Bytes
  error : ErrorCode
deriving DecidableEq, Repr

instance : Serializable FileDownloadResponse (Bytes × ErrorCode × Unit) :=
  ⟨fun d => (d.fileData, d.error, ()), fun a => ⟨a.1, a.2.1⟩, fun _ => rfl⟩

/-- For FRIEND_REQUEST, FRIEND_ACCEPT and FRIEND_REJECT. -/
structure FriendRequest where
  token : Bytes
  targetLogin : Bytes
deriving DecidableEq, Repr

instance : Serializable FriendRequest (Bytes × Bytes × Unit) :=
  ⟨fun d => (d.token, d.targetLogin, ()), fun a => ⟨a.1, a.2.1⟩, fun _ => rfl⟩

structure FriendResponse where
  error : ErrorCode
deriving DecidableEq, Repr

instance : Serializable FriendResponse (ErrorCode × Unit) :=
  ⟨fun d => (d.error, ()), fun a => ⟨a.1⟩, fun _ => rfl⟩

structure FriendListRequest where
  token : Bytes
deriving DecidableEq, Repr

instance : Serializable FriendListRequest (Bytes × Unit) :=
  ⟨fun d => (d.token, ()), fun a => ⟨a.1⟩, fun _ => rfl⟩

structure FriendListResponse where
  friends : List Bytes
  pendingIncoming : List Bytes
  error : ErrorCode
deriving DecidableEq, Repr

instance : Serializable FriendListResponse (List Bytes × List Bytes × ErrorCode × Unit) :=
  ⟨fun d => (d.friends, d.pendingIncoming, d.error, ()), fun a => ⟨a.1, a.2.1, a.2.2.1⟩,
    fun _ => rfl⟩

structure DirectMessageRequest where
  token : Bytes
  recipientLogin : Bytes
  message : Bytes
deriving DecidableEq, Repr

instance : Serializable DirectMessageRequest (Bytes × Bytes × Bytes × Unit) :=
  ⟨fun d => (d.token, d.recipientLogin, d.message, ()), fun a => ⟨a.1, a.2.1, a.2.2.1⟩,
    fun _ => rfl⟩

structure DirectMessageIncoming where
  senderLogin : Bytes
  message : Bytes
  timestamp : Int64
deriving DecidableEq, Repr

instance : Serializable DirectMessageIncoming (Bytes × Bytes × Int64 × Unit) :=
  ⟨fun d => (d.senderLogin, d.message, d.timestamp, ()), fun a => ⟨a.1, a.2.1, a.2.2.1⟩,
    fun _ => rfl⟩

structure DirectMessageResponse where
  error : ErrorCode
deriving DecidableEq, Repr

instance : Serializable DirectMessageResponse (ErrorCode × Unit) :=
  ⟨fun d => (d.error, ()), fun a => ⟨a.1⟩, fun _ => rfl⟩

structure ChatListRequest where
  token : Bytes
deriving DecidableEq, Repr

instance : Serializable ChatListRequest (Bytes × Unit) :=
  ⟨fun d => (d.token, ()), fun a => ⟨a.1⟩, fun _ => rfl⟩

structure ChatListEntry where
  peerLogin : Bytes
  message : Bytes
  timestamp : Int64
deriving DecidableEq, Repr

instance : Serializable ChatListEntry (Bytes × Bytes × Int64 × Unit) :=
  ⟨fun d => (d.peerLogin, d.message, d.timestamp, ()), fun a => ⟨a.1, a.2.1, a.2.2.1⟩,
    fun _ => rfl⟩

structure ChatListResponse where
  chats : List ChatListEntry
  error : ErrorCode
deriving DecidableEq, Repr

instance : Serializable ChatListResponse (List ChatListEntry × ErrorCode × Unit) :=
  ⟨fun d => (d.chats, d.error, ()), fun a => ⟨a.1, a.2.1⟩, fun _ => rfl⟩

structure HistoryRequest where
  token : Bytes
  peerLogin : Bytes
deriving DecidableEq, Repr

instance : Serializable HistoryRequest (Bytes × Bytes × Unit) :=
  ⟨fun d => (d.token, d.peerLogin, ()), fun a => ⟨a.1, a.2.1⟩, fun _ => rfl⟩

/-- `HistoryResponse::Entry`. -/
structure HistoryEntry where
  fromLogin : Bytes
  message : Bytes
  timestamp : Int64
deriving DecidableEq, Repr

instance : Serializable HistoryEntry (Bytes × Bytes × Int64 × Unit) :=
  ⟨fun d => (d.fromLogin, d.message, d.timestamp, ()), fun a => ⟨a.1, a.2.1, a.2.2.1⟩,
    fun _ => rfl⟩

structure HistoryResponse where
  messages : List HistoryEntry
  error : ErrorCode
deriving DecidableEq, Repr

instance : Serializable HistoryResponse (List HistoryEntry × ErrorCode × Unit) :=
  ⟨fun d => (d.messages, d.error, ()), fun a => ⟨a.1, a.2.1⟩, fun _ => rfl⟩

/-- The structs of messages.hpp, in its order. -/
inductive MessageType where
  | authRequest
  | logoutRequest
  | authResponse
  | tokenVerifyRequest
  | tokenVerifyResponse
  | chatSendRequest
  | chatIncoming
  | chatResponse
  | fileUploadRequest
  | fileUploadResponse
  | fileDownloadRequest
  | fileDownloadResponse
  | friendRequest
  | friendResponse
  | friendListRequest
  | friendListResponse
  | directMessageRequest
  | directMessageIncoming
  | directMessageResponse
  | chatListRequest
  | chatListEntry
  | chatListResponse
  | historyRequest
  | historyEntry
  | historyResponse
deriving DecidableEq, Repr

/-- A message struct with its base class and the tuple its fields are tied in. -/
structure MessageStruct where
  Derived : Type
  Args : Type
  [serializable : Serializable Derived Args]
  [tuple : TupleSerializer Args]

attribute [instance] MessageStruct.serializable MessageStruct.tuple

namespace MessageType

def struct : MessageType → MessageStruct
  | authRequest => ⟨AuthRequest, _⟩
  | logoutRequest => ⟨LogoutRequest, _⟩
  | authResponse => ⟨AuthResponse, _⟩
  | tokenVerifyRequest => ⟨TokenVerifyRequest, _⟩
  | tokenVerifyResponse => ⟨TokenVerifyResponse, _⟩
  | chatSendRequest => ⟨ChatSendRequest, _⟩
  | chatIncoming => ⟨ChatIncoming, _⟩
  | chatResponse => ⟨ChatResponse, _⟩
  | fileUploadRequest => ⟨FileUploadRequest, _⟩
  | fileUploadResponse => ⟨FileUploadResponse, _⟩
  | fileDownloadRequest => ⟨FileDownloadRequest, _⟩
  | fileDownloadResponse => ⟨FileDownloadResponse, _⟩
  | friendRequest => ⟨FriendRequest, _⟩
  | friendResponse => ⟨FriendResponse, _⟩
  | friendListRequest => ⟨FriendListRequest, _⟩
  | friendListResponse => ⟨FriendListResponse, _⟩
  | directMessageRequest => ⟨DirectMessageRequest, _⟩
  | directMessageIncoming => ⟨DirectMessageIncoming, _⟩
  | directMessageResponse => ⟨DirectMessageResponse, _⟩
  | chatListRequest => ⟨ChatListRequest, _⟩
  | chatListEntry => ⟨ChatListEntry, _⟩
  | chatListResponse => ⟨ChatListResponse, _⟩
  | historyRequest => ⟨HistoryRequest, _⟩
  | historyEntry => ⟨HistoryEntry, _⟩
  | historyResponse => ⟨HistoryResponse, _⟩

abbrev Value (T : MessageType) : Type := T.struct.Derived

def serialize (T : MessageType) (x : T.Value) : Bytes := Messenger.serialize x

def deserialize (T : MessageType) (body : Bytes) : Except Exn T.Value :=
  Messenger.deserialize T.Value body

end MessageType

end Messenger
