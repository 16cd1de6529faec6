import Messenger.SyncReceiver
import Messenger.Reports

/-!
How long encodings are. A text costs its bytes and four more, a list its count word and its
elements, a nested record its own encoding behind a length word. So the length of a body is
a sum over the texts in it, and no length word in it wraps if the sum stays below 2^32.
-/
namespace Messenger.EncodedSizes

open BigEndian NetworkSession SyncReceiver

section Fields
variable {T Args : Type} [Serializer T] [TupleSerializer Args]

theorem length_serializeTuple [WireTuple Args] (a : T) (rest : Args) :
    (TupleSerializer.serializeTuple [] (a, rest)).length =
      (Serializer.serialize [] a : Bytes).length +
        (TupleSerializer.serializeTuple [] rest).length := by
  change (TupleSerializer.serializeTuple (Serializer.serialize [] a) rest).length = _
  rw [WireTuple.serialize_append, List.length_append]

theorem length_unit : (TupleSerializer.serializeTuple [] ()).length = 0 := rfl

theorem length_bytes (text : Bytes) : (Serializer.serialize [] text : Bytes).length =
    4 + text.length :=
  pack_length text

theorem length_int64 (value : Int64) : (Serializer.serialize [] value : Bytes).length = 8 := by
  change (packI64 [] value).length = 8
  rw [packI64_eq, List.nil_append, toBytes_length]

theorem length_errorCode (e : ErrorCode) : (Serializer.serialize [] e : Bytes).length = 4 := by
  change (packUi32 [] e.value).length = 4
  rw [packUi32, List.nil_append, htonl_length]

theorem length_vector [Wire T] (vec : List T) :
    (Serializer.serialize [] vec : Bytes).length =
      4 + (vec.map fun el => (Serializer.serialize [] el : Bytes).length).sum := by
  rw [serialize_vector, List.length_append, htonl_length, List.length_flatMap]

theorem length_nested {Derived : Type} [Serializable Derived Args] (d : Derived) :
    (Serializer.serialize [] d : Bytes).length = 4 + (serialize d).length :=
  pack_length (serialize d)

end Fields

/-- A login, a text and a time: a pushed message, or an entry of a list. -/
def messageSize (login message : Bytes) : ℕ := 16 + login.length + message.length

/-- Texts in a list. -/
def textsSize (texts : List Bytes) : ℕ := (texts.map fun text => 4 + text.length).sum

theorem length_chatIncoming (login message : Bytes) :
    (serialize (ChatIncoming.mk login message)).length = 8 + login.length + message.length := by
  simp only [serialize, Serializable.fields, length_serializeTuple, length_bytes, length_unit]
  omega

theorem length_directMessageIncoming (login message : Bytes) (time : Int64) :
    (serialize (DirectMessageIncoming.mk login message time)).length =
      messageSize login message := by
  simp only [serialize, Serializable.fields, length_serializeTuple, length_bytes, length_int64,
    length_unit, messageSize]
  omega

theorem length_authResponse (token : Bytes) (e : ErrorCode) :
    (serialize (AuthResponse.mk token e)).length = 8 + token.length := by
  simp only [serialize, Serializable.fields, length_serializeTuple, length_bytes,
    length_errorCode, length_unit]
  omega

theorem length_fileDownloadResponse (data : Bytes) (e : ErrorCode) :
    (serialize (FileDownloadResponse.mk data e)).length = 8 + data.length := by
  simp only [serialize, Serializable.fields, length_serializeTuple, length_bytes,
    length_errorCode, length_unit]
  omega

theorem length_friendListResponse (friends pending : List Bytes) (e : ErrorCode) :
    (serialize (FriendListResponse.mk friends pending e)).length =
      12 + textsSize friends + textsSize pending := by
  simp only [serialize, Serializable.fields, length_serializeTuple, length_vector, length_bytes,
    length_errorCode, length_unit, textsSize]
  omega

theorem length_historyEntry (entry : HistoryEntry) :
    (Serializer.serialize [] entry : Bytes).length =
      4 + messageSize entry.fromLogin entry.message := by
  simp only [length_nested, serialize, Serializable.fields, length_serializeTuple, length_bytes,
    length_int64, length_unit, messageSize]
  omega

theorem length_historyResponse (messages : List HistoryEntry) (e : ErrorCode) :
    (serialize (HistoryResponse.mk messages e)).length =
      8 + (messages.map fun m => 4 + messageSize m.fromLogin m.message).sum := by
  simp only [serialize, Serializable.fields, length_serializeTuple, length_vector,
    length_historyEntry, length_errorCode, length_unit]
  omega

theorem length_chatListEntry (entry : ChatListEntry) :
    (Serializer.serialize [] entry : Bytes).length =
      4 + messageSize entry.peerLogin entry.message := by
  simp only [length_nested, serialize, Serializable.fields, length_serializeTuple, length_bytes,
    length_int64, length_unit, messageSize]
  omega

theorem length_chatListResponse (chats : List ChatListEntry) (e : ErrorCode) :
    (serialize (ChatListResponse.mk chats e)).length =
      8 + (chats.map fun m => 4 + messageSize m.peerLogin m.message).sum := by
  simp only [serialize, Serializable.fields, length_serializeTuple, length_vector,
    length_chatListEntry, length_errorCode, length_unit]
  omega

/-- A RESULT that holds nothing but an error code. -/
theorem length_errorOnly {Derived : Type} [Serializable Derived (ErrorCode × Unit)]
    (d : Derived) : (serialize d).length = 4 := by
  have hlength := length_serializeTuple (Serializable.fields d).1 (Serializable.fields d).2
  rw [length_errorCode, length_unit] at hlength
  exact hlength

theorem short_errorOnly {Derived : Type} [Serializable Derived (ErrorCode × Unit)]
    (d : Derived) : (serialize d).length < 2 ^ 32 := by
  rw [length_errorOnly]
  decide

/-- The body of a notice, or that of a message. -/
def Encodes (body : Bytes) : Prop :=
  body = [] ∨ ∃ (T : MessageType) (x : T.Value), body = T.serialize x

theorem encodes_response (r : Response) : Encodes r.serialize := by
  cases r with
  | auth r => exact Or.inr ⟨.authResponse, r, rfl⟩
  | chat r => exact Or.inr ⟨.chatResponse, r, rfl⟩
  | fileUpload r => exact Or.inr ⟨.fileUploadResponse, r, rfl⟩
  | fileDownload r => exact Or.inr ⟨.fileDownloadResponse, r, rfl⟩
  | friend r => exact Or.inr ⟨.friendResponse, r, rfl⟩
  | friendList r => exact Or.inr ⟨.friendListResponse, r, rfl⟩
  | directMessage r => exact Or.inr ⟨.directMessageResponse, r, rfl⟩
  | chatList r => exact Or.inr ⟨.chatListResponse, r, rfl⟩
  | history r => exact Or.inr ⟨.historyResponse, r, rfl⟩
  | tokenVerify r => exact Or.inr ⟨.tokenVerifyResponse, r, rfl⟩

/-- The header can tell how long the body is, and no length or count has been narrowed to
another number while the body was built. -/
structure Sized (p : Sent) : Prop where
  short : p.body.length < 2 ^ 32
  encodes : Encodes p.body
  narrows : ∀ (T : MessageType) (x : T.Value), p.body = T.serialize x → T.Fits x

theorem fits_of_short {T : MessageType} {x : T.Value} (h : (T.serialize x).length < 2 ^ 32) :
    T.Fits x := by
  let := T.wire
  exact lengthsFit_of_length h

theorem sized_of_short {p : Sent} (hencodes : Encodes p.body) (h : p.body.length < 2 ^ 32) :
    Sized p where
  short := h
  encodes := hencodes
  narrows _ _ hbody := fits_of_short (hbody ▸ h)

/-- What is sent to a connection, as its client should read it. -/
def packetsTo (c : ConnId) (w : World) : List Packet :=
  (w.sent.filter (fun p => p.conn == c)).map (fun p => (p.packetType, p.body))

/-- The read loop at the other end delivers the packets that were sent. -/
def InStep (c : ConnId) (w : World) : Prop :=
  handled ((packetsTo c w).flatMap fullPacket) = packetsTo c w

theorem inStep_of_sized {w : World} (h : ∀ p ∈ w.sent, Sized p) (c : ConnId) : InStep c w := by
  have hsound : ∀ packet ∈ packetsTo c w, framing.Sound packet := by
    intro packet hpacket
    obtain ⟨p, hp, rfl⟩ := List.mem_map.mp hpacket
    exact sound_of_fits (h p (List.mem_of_mem_filter hp)).short
  have hnothing : ¬ framing.Begins [] := by
    intro hbegins
    exact absurd (le_trans (Nat.le_add_right 8 _) hbegins) (by decide)
  have hhandled := handled_frames hsound hnothing
  rwa [List.append_nil] at hhandled

end Messenger.EncodedSizes
