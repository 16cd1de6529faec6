import Messenger.RoundTrip

/-!
The converse of the round trip: a decoder of messages.hpp yields a value from no bytes
but its encoding, and stops right behind them. It holds of every field but a nested
record, whose buffer is cut out by its length and may hold bytes behind the record. So
two messages are never told from one body, and no truncated body is taken for a whole.
-/
namespace Messenger

open OffsetDecoders BigEndian

theorem htonl_ntohl {word : Bytes} (h : word.length = 4) : htonl (ntohl word) = word := by
  have hlt : ofBytes word < 2 ^ 32 := (h ▸ ofBytes_lt word : ofBytes word < 256 ^ 4)
  have hword := toBytes_ofBytes word
  rw [h] at hword
  unfold htonl ntohl
  rwa [UInt32.toNat_ofNat', Nat.mod_eq_of_lt hlt]

theorem slice_length {offset count : ℕ} {body : Bytes} (h : offset + count ≤ body.length) :
    ((body.drop offset).take count).length = count := by
  rw [List.length_take, List.length_drop]
  omega

/-- What `unpack` copied out is what its length word announced. -/
theorem unpack_inverts : Inverts (fun data => data.length < 2 ^ 32) (pack []) unpack := by
  intro offset body data stop h
  unfold unpack at h
  split at h
  · cases h
  · rename_i hword
    simp only at h
    split at h
    · cases h
    · rename_i hvalue
      cases h
      have hlt := (ntohl ((body.drop offset).take 4)).toNat_lt
      have hwordLength : ((body.drop offset).take 4).length = 4 := slice_length (by omega)
      have hlength : ((body.drop (offset + 4)).take
          (ntohl ((body.drop offset).take 4)).toNat).length =
            (ntohl ((body.drop offset).take 4)).toNat := slice_length (by omega)
      have hpacked : pack [] ((body.drop (offset + 4)).take
          (ntohl ((body.drop offset).take 4)).toNat) =
            (body.drop offset).take 4 ++ (body.drop (offset + 4)).take
              (ntohl ((body.drop offset).take 4)).toNat := by
        rw [pack, hlength, UInt32.ofNat_toNat, htonl_ntohl hwordLength, List.nil_append]
      refine ⟨hlength.trans_lt hlt, ?_, by rw [pack_length]; omega⟩
      rw [hpacked]
      refine append_prefix_drop (List.take_prefix 4 _) ?_
      rw [hwordLength]
      exact List.take_prefix _ _

theorem unpackUi32_inverts : Inverts (fun _ => True) (packUi32 []) unpackUi32 := by
  intro offset body value stop h
  unfold unpackUi32 at h
  split at h
  · cases h
  · cases h
    have hlength : ((body.drop offset).take 4).length = 4 := slice_length (by omega)
    refine ⟨trivial, ?_, by rw [packUi32, List.nil_append, htonl_length]⟩
    rw [packUi32, List.nil_append, htonl_ntohl hlength]
    exact List.take_prefix 4 _

theorem packI64_foldl {word : Bytes} (h : word.length = 8) :
    packI64 [] (word.foldl
      (fun (value : Int64) byte => (value <<< 8) ||| byte.toUInt64.toInt64) 0) = word := by
  have hlt : ofBytes word < 2 ^ 64 := by
    have hbound := ofBytes_lt word
    rw [h] at hbound
    exact hbound.trans_eq (by decide)
  have hword := toBytes_ofBytes word
  rw [h] at hword
  rw [packI64_eq, foldl_shift_or, Nat.mod_eq_of_lt hlt, List.nil_append, hword]

theorem unpackI64_inverts : Inverts (fun _ => True) (packI64 []) unpackI64 := by
  intro offset body value stop h
  unfold unpackI64 at h
  split at h
  · cases h
  · cases h
    have hlength : ((body.drop offset).take 8).length = 8 := slice_length (by omega)
    refine ⟨trivial, ?_, by rw [packI64_eq, List.nil_append, toBytes_length]⟩
    rw [packI64_foldl hlength]
    exact List.take_prefix 8 _

/-- A field that is decoded from no bytes but its encoding. -/
class Canonical (T : Type) [Serializer T] [Wire T] : Prop where
  inverts : Inverts Wire.Fits (Serializer.serialize [])
    (Serializer.deserialize : Decoder Exn T)

class CanonicalTuple (Args : Type) [TupleSerializer Args] [WireTuple Args] : Prop where
  inverts : Inverts WireTuple.Fits (TupleSerializer.serializeTuple [])
    (TupleSerializer.deserializeTuple : Decoder Exn Args)

instance : Canonical Bytes := ⟨unpack_inverts⟩

instance : Canonical Int64 := ⟨unpackI64_inverts⟩

instance : Canonical ErrorCode :=
  ⟨unpackUi32_inverts.map (fun _ => rfl) (fun _ _ => trivial)⟩

/-- The elements stand one behind the other behind the count of them. -/
theorem deserializeVector_inverts {T : Type} [Serializer T] [Wire T] [Canonical T] :
    Inverts Wire.Fits (Serializer.serialize [])
      (deserializeVector : Decoder Exn (List T)) := by
  intro offset body vec stop h
  unfold deserializeVector at h
  split at h
  · cases h
  · simp only at h
    obtain ⟨⟨hcount, hfits⟩, helements, rfl⟩ := Canonical.inverts.many _ _ _ _ _ h
    have hlt := (ntohl ((body.drop offset).take 4)).toNat_lt
    have hlength : ((body.drop offset).take 4).length = 4 := slice_length (by omega)
    have hword : htonl (UInt32.ofNat vec.length) = (body.drop offset).take 4 := by
      rw [hcount, UInt32.ofNat_toNat, htonl_ntohl hlength]
    refine ⟨⟨by rw [hcount]; exact hlt, hfits⟩, ?_, ?_⟩
    · rw [serialize_vector, hword]
      refine append_prefix_drop (List.take_prefix 4 _) ?_
      rwa [hlength]
    · rw [serialize_vector, List.length_append, htonl_length, Nat.add_assoc]

instance {T : Type} [Serializer T] [Wire T] [Canonical T] : Canonical (List T) :=
  ⟨deserializeVector_inverts⟩

instance : CanonicalTuple Unit :=
  ⟨fun offset body args stop h =>
    ⟨trivial, (inverts_pure () offset body args stop h).2⟩⟩

instance {T Args : Type} [Serializer T] [TupleSerializer Args] [Wire T] [WireTuple Args]
    [Canonical T] [CanonicalTuple Args] : CanonicalTuple (T × Args) where
  inverts := by
    intro offset body args stop h
    obtain ⟨hfits, hpre, hstop⟩ :=
      (Canonical.inverts.pair CanonicalTuple.inverts) offset body args stop h
    have hbytes : TupleSerializer.serializeTuple [] args =
        Serializer.serialize [] args.1 ++ TupleSerializer.serializeTuple [] args.2 :=
      WireTuple.serialize_append _ args.2
    rw [hbytes]
    exact ⟨hfits, hpre, hstop⟩

namespace MessageType

/-- The decoder behind `T::deserialize`, with the offset at which it stops. -/
def decoder (T : MessageType) : Decoder Exn T.Value :=
  Decoder.map (Serializable.ofFields : T.struct.Args → T.Value) TupleSerializer.deserializeTuple

theorem deserialize_ok_iff {T : MessageType} {body : Bytes} {x : T.Value} :
    T.deserialize body = .ok x ↔ ∃ consumed, T.decoder 0 body = .ok (x, consumed) := by
  change Decoder.run T.decoder body = .ok x ↔ _
  unfold Decoder.run
  cases T.decoder 0 body with
  | error e => simp
  | ok p => simp [Prod.ext_iff]

/-- The tie names every field, so that reading through it gives back what was written. -/
theorem fields_ofFields (T : MessageType) (args : T.struct.Args) :
    Serializable.fields (Serializable.ofFields args : T.Value) = args := by
  cases T <;> rfl

theorem canonicalTuple (T : MessageType) (hchats : T ≠ chatListResponse)
    (hhistory : T ≠ historyResponse) : @CanonicalTuple T.struct.Args _ T.wire := by
  cases T with
  | authRequest => exact inferInstanceAs (CanonicalTuple (Bytes × Bytes × Unit))
  | logoutRequest => exact inferInstanceAs (CanonicalTuple (Bytes × Unit))
  | authResponse => exact inferInstanceAs (CanonicalTuple (Bytes × ErrorCode × Unit))
  | tokenVerifyRequest => exact inferInstanceAs (CanonicalTuple (Bytes × Unit))
  | tokenVerifyResponse => exact inferInstanceAs (CanonicalTuple (ErrorCode × Unit))
  | chatSendRequest => exact inferInstanceAs (CanonicalTuple (Bytes × Bytes × Unit))
  | chatIncoming => exact inferInstanceAs (CanonicalTuple (Bytes × Bytes × Unit))
  | chatResponse => exact inferInstanceAs (CanonicalTuple (ErrorCode × Unit))
  | fileUploadRequest => exact inferInstanceAs (CanonicalTuple (Bytes × Bytes × Bytes × Unit))
  | fileUploadResponse => exact inferInstanceAs (CanonicalTuple (ErrorCode × Unit))
  | fileDownloadRequest => exact inferInstanceAs (CanonicalTuple (Bytes × Bytes × Unit))
  | fileDownloadResponse => exact inferInstanceAs (CanonicalTuple (Bytes × ErrorCode × Unit))
  | friendRequest => exact inferInstanceAs (CanonicalTuple (Bytes × Bytes × Unit))
  | friendResponse => exact inferInstanceAs (CanonicalTuple (ErrorCode × Unit))
  | friendListRequest => exact inferInstanceAs (CanonicalTuple (Bytes × Unit))
  | friendListResponse =>
    exact inferInstanceAs (CanonicalTuple (List Bytes × List Bytes × ErrorCode × Unit))
  | directMessageRequest => exact inferInstanceAs (CanonicalTuple (Bytes × Bytes × Bytes × Unit))
  | directMessageIncoming => exact inferInstanceAs (CanonicalTuple (Bytes × Bytes × Int64 × Unit))
  | directMessageResponse => exact inferInstanceAs (CanonicalTuple (ErrorCode × Unit))
  | chatListRequest => exact inferInstanceAs (CanonicalTuple (Bytes × Unit))
  | chatListEntry => exact inferInstanceAs (CanonicalTuple (Bytes × Bytes × Int64 × Unit))
  | chatListResponse => exact absurd rfl hchats
  | historyRequest => exact inferInstanceAs (CanonicalTuple (Bytes × Bytes × Unit))
  | historyEntry => exact inferInstanceAs (CanonicalTuple (Bytes × Bytes × Int64 × Unit))
  | historyResponse => exact absurd rfl hhistory

theorem decoder_inverts (T : MessageType) (hchats : T ≠ chatListResponse)
    (hhistory : T ≠ historyResponse) : Inverts T.Fits T.serialize T.decoder := by
  let := T.wire
  have := canonicalTuple T hchats hhistory
  refine CanonicalTuple.inverts.map (fun args => ?_) (fun args hfits => ?_)
  · exact congrArg (TupleSerializer.serializeTuple []) (fields_ofFields T args)
  · change WireTuple.Fits (Serializable.fields (Serializable.ofFields args : T.Value))
    rwa [fields_ofFields]

/-- A body shorter than an encoding that it begins decodes to nothing: what it decoded
to would be a second value told from the longer body. -/
theorem truncated_rejected {T : MessageType} (hchats : T ≠ chatListResponse)
    (hhistory : T ≠ historyResponse) {x : T.Value} (hfits : T.Fits x) {truncated : Bytes}
    (hpre : truncated <+: T.serialize x) (hproper : truncated ≠ T.serialize x) :
    ∃ e, T.deserialize truncated = .error e := by
  cases hdecoded : T.deserialize truncated with
  | error e => exact ⟨e, rfl⟩
  | ok y =>
    obtain ⟨consumed, hrun⟩ := deserialize_ok_iff.mp hdecoded
    obtain ⟨hy, hstands, -⟩ := decoder_inverts T hchats hhistory _ _ _ _ hrun
    rw [List.drop_zero] at hstands
    obtain ⟨rest, hrest⟩ := hstands.trans hpre
    have hlonger := deserialize_serialize T x hfits []
    rw [List.append_nil, ← hrest, deserialize_serialize T y hy rest] at hlonger
    cases hlonger
    exact absurd (hpre.eq_of_length_le hstands.length_le) hproper

/-- What is decoded stands at the start of the body as it would be encoded, in as many
bytes as were consumed; and no encoding can be cut short and still decode. -/
theorem decoded_bytes_are_encoding (T : MessageType) (hchats : T ≠ chatListResponse)
    (hhistory : T ≠ historyResponse) :
    (∀ body x, T.deserialize body = .ok x →
      ∃ consumed, T.decoder 0 body = .ok (x, consumed) ∧
        T.serialize x <+: body ∧ (T.serialize x).length = consumed) ∧
    (∀ x, T.Fits x → ∀ truncated, truncated <+: T.serialize x → truncated ≠ T.serialize x →
      ∃ e, T.deserialize truncated = .error e) := by
  refine ⟨fun body x hdecoded => ?_,
    fun x hfits truncated => truncated_rejected hchats hhistory hfits⟩
  obtain ⟨consumed, hrun⟩ := deserialize_ok_iff.mp hdecoded
  obtain ⟨-, hstands, hconsumed⟩ := decoder_inverts T hchats hhistory _ _ _ _ hrun
  rw [List.drop_zero] at hstands
  exact ⟨consumed, hrun, hstands, by omega⟩

theorem decoded_bytes_are_encoding_friend_list :
    (∃ consumed, friendListResponse.decoder 0
        [0, 0, 0, 1, 0, 0, 0, 1, 97, 0, 0, 0, 0, 0, 0, 0, 1, 9] =
          .ok (⟨[[97]], [], Error.Base.ok⟩, consumed) ∧
      friendListResponse.serialize ⟨[[97]], [], Error.Base.ok⟩ <+:
        [0, 0, 0, 1, 0, 0, 0, 1, 97, 0, 0, 0, 0, 0, 0, 0, 1, 9] ∧
      (friendListResponse.serialize ⟨[[97]], [], Error.Base.ok⟩).length = consumed) ∧
    ∃ e, logoutRequest.deserialize [0, 0, 0, 2, 97] = .error e := by
  refine ⟨(decoded_bytes_are_encoding friendListResponse (by decide) (by decide)).1 _ _ rfl,
    (decoded_bytes_are_encoding logoutRequest (by decide) (by decide)).2 ⟨[97, 98]⟩
      ⟨fits_bytes.mpr (by decide), trivial⟩ _ ⟨[98], rfl⟩ (by decide)⟩

/-- A record inside a list may be followed by bytes that belong to nothing. -/
example : historyResponse.deserialize
      ([0, 0, 0, 1, 0, 0, 0, 17] ++ List.replicate 17 0 ++ [0, 0, 0, 1]) =
    historyResponse.deserialize
      ([0, 0, 0, 1, 0, 0, 0, 16] ++ List.replicate 16 0 ++ [0, 0, 0, 1]) := rfl

end MessageType

end Messenger
