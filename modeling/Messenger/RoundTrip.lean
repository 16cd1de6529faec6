import Messenger.Messages
import Mathlib.Tactic.IntervalCases

/-!
Every message decodes to itself, whatever bytes follow it. `Wire` is the contract
of one field type and `WireTuple` that of a tuple of fields: encoding only appends,
and the decoder reads back what was appended at any offset. The contracts compose
through lists and nested records, so a message needs no argument of its own.
-/
namespace Messenger

open OffsetDecoders BigEndian

@[simp] theorem htonl_length (value : UInt32) : (htonl value).length = 4 :=
  toBytes_length 4 _

@[simp] theorem ntohl_htonl (value : UInt32) : ntohl (htonl value) = value := by
  have hlt : value.toNat < 2 ^ 32 := value.toNat_lt
  unfold ntohl htonl
  rw [ofBytes_toBytes, Nat.mod_eq_of_lt (by omega)]
  exact UInt32.ofNat_toNat

/-- What stands behind a prefix is what a slice at its length cuts out. -/
theorem slice_at (pre word post : Bytes) :
    ((pre ++ (word ++ post)).drop pre.length).take word.length = word := by
  rw [List.drop_left, List.take_left]

theorem length_word_toNat {n : ℕ} (h : n < 2 ^ 32) : (UInt32.ofNat n).toNat = n := by
  rw [UInt32.toNat_ofNat']
  exact Nat.mod_eq_of_lt h

theorem unpack_readsBack (data : Bytes) (h : data.length < 2 ^ 32) :
    ReadsBack unpack (pack [] data) data := by
  intro pre post
  have hword : ((pre ++ (htonl (UInt32.ofNat data.length) ++ (data ++ post))).drop
      pre.length).take 4 = htonl (UInt32.ofNat data.length) := by
    simpa only [htonl_length] using
      slice_at pre (htonl (UInt32.ofNat data.length)) (data ++ post)
  have hdata := slice_at (pre ++ htonl (UInt32.ofNat data.length)) data post
  simp only [List.append_assoc, List.length_append, htonl_length] at hdata
  simp only [unpack, pack, List.nil_append, List.append_assoc, hword, ntohl_htonl,
    length_word_toNat h, hdata, List.length_append, htonl_length]
  rw [if_neg (by omega), if_neg (by omega)]
  simp only [Nat.add_assoc]

theorem unpackUi32_readsBack (value : UInt32) :
    ReadsBack unpackUi32 (packUi32 [] value) value := by
  intro pre post
  have hword := slice_at pre (htonl value) post
  simp only [htonl_length] at hword
  simp only [unpackUi32, packUi32, List.nil_append, List.append_assoc, hword, ntohl_htonl,
    List.length_append, htonl_length]
  rw [if_neg (by omega)]

theorem shiftRight_toBitVec (value : Int64) (i : ℕ) (hi : i < 8) :
    (value >>> Int64.ofNat (8 * i)).toBitVec = value.toBitVec.sshiftRight (8 * i) := by
  have hshift : ((Int64.ofNat (8 * i)).toBitVec.smod 64).toNat = 8 * i := by
    interval_cases i <;> decide
  rw [Int64.toBitVec_shiftRight, BitVec.sshiftRight', hshift]

/-- The sign bits that the arithmetic shift brings in are masked off again. -/
theorem byteOfI64_eq (value : Int64) (i : ℕ) (hi : i < 8) :
    byteOfI64 value i = UInt8.ofNat (value.toUInt64.toNat / 256 ^ i) := by
  apply UInt8.toBitVec_inj.mp
  apply BitVec.eq_of_getLsbD_eq
  intro j hj
  change (((value >>> Int64.ofNat (8 * i)).toBitVec &&& 255#64).setWidth 8).getLsbD j =
    (BitVec.ofNat 8 (value.toUInt64.toNat / 256 ^ i)).getLsbD j
  have hmask : (255#64).getLsbD j = true := by interval_cases j <;> rfl
  have hpow : 256 ^ i = 2 ^ (8 * i) := by rw [Nat.pow_mul]
  rw [shiftRight_toBitVec value i hi, BitVec.getLsbD_setWidth, BitVec.getLsbD_and, hmask,
    BitVec.getLsbD_sshiftRight, BitVec.getLsbD_ofNat, hpow, ← Nat.shiftRight_eq_div_pow,
    Nat.testBit_shiftRight]
  have hin : 8 * i + j < 64 := by omega
  have hj64 : ¬ 64 ≤ j := by omega
  simp only [hj, hin, hj64, decide_true, decide_false, Bool.not_false, Bool.true_and,
    Bool.and_true, if_true]
  rfl

theorem packI64_eq (body : Bytes) (value : Int64) :
    packI64 body value = body ++ toBytes 8 value.toUInt64.toNat := by
  have hmap : toBytes 8 value.toUInt64.toNat =
      (List.range 8).reverse.map (byteOfI64 value) := by
    rw [toBytes_eq_map]
    apply List.map_congr_left
    intro i hi
    have hlt : i < 8 := by simpa using hi
    exact (byteOfI64_eq value i hlt).symm
  have happend : ∀ (is : List ℕ) (acc : Bytes),
      is.foldl (fun body i => body ++ [byteOfI64 value i]) acc =
        acc ++ is.map (byteOfI64 value) := by
    intro is
    induction is with
    | nil => simp
    | cons i rest ih => intro acc; simp [ih]
  rw [hmap]
  exact happend _ body

/-- One round of the decoding loop, as a digit appended to an unsigned word. -/
theorem shift_or_toUInt64 (value : Int64) (byte : UInt8) :
    ((value <<< 8) ||| byte.toUInt64.toInt64).toUInt64.toNat =
      (value.toUInt64.toNat * 256 + byte.toNat) % 2 ^ 64 := by
  have hword : ((value <<< 8) ||| byte.toUInt64.toInt64).toUInt64 =
      (value.toUInt64 <<< 8) ||| byte.toUInt64 := by
    apply UInt64.toBitVec_inj.mp
    simp
  have hbyte : byte.toNat < 2 ^ 64 := by
    have := byte.toNat_lt
    omega
  rw [hword, UInt64.toNat_or, UInt64.toNat_shiftLeft, UInt8.toNat_toUInt64, ← shiftLeft_or_byte,
    Nat.or_mod_two_pow, Nat.mod_eq_of_lt hbyte]
  rfl

theorem foldl_shift_or (bytes : Bytes) :
    (bytes.foldl (fun (value : Int64) byte => (value <<< 8) ||| byte.toUInt64.toInt64)
      0).toUInt64.toNat = ofBytes bytes % 2 ^ 64 := by
  induction bytes using List.reverseRecOn with
  | nil => rfl
  | append_singleton bytes byte ih =>
    rw [List.foldl_append, List.foldl_cons, List.foldl_nil, shift_or_toUInt64, ih,
      ofBytes_concat]
    omega

theorem unpackI64_readsBack (value : Int64) :
    ReadsBack unpackI64 (packI64 [] value) value := by
  intro pre post
  have hlt : value.toUInt64.toNat < 2 ^ 64 := value.toUInt64.toNat_lt
  have hslice := slice_at pre (toBytes 8 value.toUInt64.toNat) post
  simp only [toBytes_length] at hslice
  have hvalue : (toBytes 8 value.toUInt64.toNat).foldl
      (fun (value : Int64) byte => (value <<< 8) ||| byte.toUInt64.toInt64) 0 = value := by
    have hword : ((toBytes 8 value.toUInt64.toNat).foldl
        (fun (value : Int64) byte => (value <<< 8) ||| byte.toUInt64.toInt64) 0).toUInt64 =
        value.toUInt64 := by
      apply UInt64.toNat_inj.mp
      rw [foldl_shift_or, ofBytes_toBytes]
      omega
    exact congrArg UInt64.toInt64 hword
  simp only [unpackI64, packI64_eq, List.nil_append, List.append_assoc, hslice, hvalue,
    List.length_append, toBytes_length]
  rw [if_neg (by omega)]

/-- `Fits` says that every length written into the encoding is below 2^32; it is so when
the encoding as a whole is shorter than that. -/
class Wire (T : Type) [Serializer T] where
  Fits : T → Prop
  length_pos : ∀ x : T, 0 < (Serializer.serialize [] x).length
  fits_of_length : ∀ x : T, (Serializer.serialize [] x).length < 2 ^ 32 → Fits x
  serialize_append : ∀ (body : Bytes) (x : T),
    Serializer.serialize body x = body ++ Serializer.serialize [] x
  readsBack : ∀ x : T, Fits x →
    ReadsBack Serializer.deserialize (Serializer.serialize [] x) x

class WireTuple (Args : Type) [TupleSerializer Args] where
  Fits : Args → Prop
  fits_of_length : ∀ args : Args,
    (TupleSerializer.serializeTuple [] args).length < 2 ^ 32 → Fits args
  serialize_append : ∀ (body : Bytes) (args : Args),
    TupleSerializer.serializeTuple body args = body ++ TupleSerializer.serializeTuple [] args
  readsBack : ∀ args : Args, Fits args →
    ReadsBack TupleSerializer.deserializeTuple (TupleSerializer.serializeTuple [] args) args

theorem pack_append (body data : Bytes) : pack body data = body ++ pack [] data := by
  simp [pack]

theorem pack_length (data : Bytes) : (pack [] data).length = 4 + data.length := by
  simp [pack]

instance : Wire Bytes where
  Fits data := data.length < 2 ^ 32
  length_pos data := by
    change 0 < (pack [] data).length
    rw [pack_length]
    omega
  fits_of_length data h := by
    change (pack [] data).length < 2 ^ 32 at h
    rw [pack_length] at h
    omega
  serialize_append := pack_append
  readsBack := unpack_readsBack

theorem fits_bytes {data : Bytes} : Wire.Fits data ↔ data.length < 2 ^ 32 := Iff.rfl

instance : Wire Int64 where
  Fits _ := True
  length_pos value := by
    change 0 < (packI64 [] value).length
    rw [packI64_eq, List.nil_append, toBytes_length]
    omega
  fits_of_length _ _ := trivial
  serialize_append body value := by
    change packI64 body value = body ++ packI64 [] value
    simp only [packI64_eq, List.nil_append]
  readsBack value _ := unpackI64_readsBack value

instance : Wire ErrorCode where
  Fits _ := True
  length_pos e := by
    change 0 < (packUi32 [] e.value).length
    rw [packUi32, List.nil_append, htonl_length]
    omega
  fits_of_length _ _ := trivial
  serialize_append body e := by
    change packUi32 body e.value = body ++ packUi32 [] e.value
    simp only [packUi32, List.nil_append]
  readsBack e _ := (unpackUi32_readsBack e.value).map ErrorCode.mk

instance : WireTuple Unit where
  Fits _ := True
  fits_of_length _ _ := trivial
  serialize_append body _ := (List.append_nil body).symm
  readsBack _ _ := readsBack_pure ()

instance {T Args : Type} [Serializer T] [TupleSerializer Args] [Wire T] [WireTuple Args] :
    WireTuple (T × Args) where
  Fits args := Wire.Fits args.1 ∧ WireTuple.Fits args.2
  fits_of_length args h := by
    change (TupleSerializer.serializeTuple (Serializer.serialize [] args.1) args.2).length <
      2 ^ 32 at h
    rw [WireTuple.serialize_append, List.length_append] at h
    exact ⟨Wire.fits_of_length args.1 (by omega), WireTuple.fits_of_length args.2 (by omega)⟩
  serialize_append body args := by
    change TupleSerializer.serializeTuple (Serializer.serialize body args.1) args.2 =
      body ++ TupleSerializer.serializeTuple (Serializer.serialize [] args.1) args.2
    rw [WireTuple.serialize_append, Wire.serialize_append body,
      WireTuple.serialize_append (Serializer.serialize [] args.1), List.append_assoc]
  readsBack args h := by
    have hpair := (Wire.readsBack args.1 h.1).pair (WireTuple.readsBack args.2 h.2)
    rw [← WireTuple.serialize_append] at hpair
    exact hpair

section Vector
variable {T : Type} [Serializer T] [Wire T]

theorem foldl_serialize (vec : List T) (body : Bytes) :
    vec.foldl Serializer.serialize body = body ++ vec.flatMap (Serializer.serialize []) := by
  induction vec generalizing body with
  | nil => simp
  | cons el rest ih =>
    rw [List.foldl_cons, ih, Wire.serialize_append body el, List.flatMap_cons, List.append_assoc]

theorem serialize_vector (vec : List T) :
    (Serializer.serialize [] vec : Bytes) =
      htonl (UInt32.ofNat vec.length) ++ vec.flatMap (Serializer.serialize []) :=
  foldl_serialize vec _

/-- Each element takes a byte at least, and no more than all of them. -/
theorem flatMap_serialize_length (vec : List T) :
    vec.length ≤ (vec.flatMap (Serializer.serialize [])).length ∧
      ∀ el ∈ vec, (Serializer.serialize [] el : Bytes).length ≤
        (vec.flatMap (Serializer.serialize [])).length := by
  induction vec with
  | nil => exact ⟨le_rfl, fun el hel => absurd hel List.not_mem_nil⟩
  | cons first rest ih =>
    have hpos := Wire.length_pos first
    rw [List.flatMap_cons, List.length_append, List.length_cons]
    refine ⟨by omega, fun el hel => ?_⟩
    rcases List.mem_cons.mp hel with rfl | hrest
    · exact Nat.le_add_right _ _
    · exact (ih.2 el hrest).trans (Nat.le_add_left _ _)

/-- The count word is in place, so the unguarded read of it stays inside. -/
theorem deserializeVector_readsBack (vec : List T) (hlen : vec.length < 2 ^ 32)
    (hfits : ∀ el ∈ vec, Wire.Fits el) :
    ReadsBack deserializeVector (Serializer.serialize [] vec) vec := by
  intro pre post
  have hbytes := serialize_vector vec
  have hword := slice_at pre (htonl (UInt32.ofNat vec.length))
    (vec.flatMap (Serializer.serialize []) ++ post)
  have hmany := ReadsBack.many vec (fun el hel => Wire.readsBack el (hfits el hel))
    (pre ++ htonl (UInt32.ofNat vec.length)) post
  simp only [List.append_assoc, List.length_append, htonl_length] at hword hmany
  simp only [deserializeVector, hbytes, List.append_assoc, List.length_append, htonl_length,
    hword, ntohl_htonl, length_word_toNat hlen]
  rw [if_neg (by omega), hmany, Nat.add_assoc]

end Vector

instance {T : Type} [Serializer T] [Wire T] : Wire (List T) where
  Fits vec := vec.length < 2 ^ 32 ∧ ∀ el ∈ vec, Wire.Fits el
  length_pos vec := by
    rw [serialize_vector, List.length_append, htonl_length]
    omega
  fits_of_length vec h := by
    rw [serialize_vector, List.length_append, htonl_length] at h
    obtain ⟨hcount, helements⟩ := flatMap_serialize_length vec
    refine ⟨by omega, fun el hel => Wire.fits_of_length el ?_⟩
    have hle := helements el hel
    omega
  serialize_append body vec := by
    change vec.foldl Serializer.serialize (body ++ htonl (UInt32.ofNat vec.length)) =
      body ++ vec.foldl Serializer.serialize ([] ++ htonl (UInt32.ofNat vec.length))
    rw [foldl_serialize, foldl_serialize, List.nil_append, List.append_assoc]
  readsBack vec h := deserializeVector_readsBack vec h.1 h.2

section Message
variable {Derived Args : Type} [Serializable Derived Args] [TupleSerializer Args] [WireTuple Args]

/-- Every length inside the encoding of a message is below 2^32. -/
def LengthsFit (d : Derived) : Prop := WireTuple.Fits (Serializable.fields d)

theorem deserialize_serialize_append (d : Derived) (h : LengthsFit d) (post : Bytes) :
    deserialize Derived (serialize d ++ post) = .ok d := by
  have hread := (WireTuple.readsBack (Serializable.fields d) h).map
    (Serializable.ofFields : Args → Derived)
  rw [Serializable.ofFields_fields] at hread
  exact hread.run post

theorem deserializeNested_readsBack (d : Derived) (h : LengthsFit d)
    (hlen : (serialize d).length < 2 ^ 32) :
    ReadsBack deserializeNested (pack [] (serialize d)) d := by
  intro pre post
  have hnested := unpack_readsBack (serialize d) hlen pre post
  have hinner := deserialize_serialize_append d h []
  rw [List.append_nil] at hinner
  simp only [deserializeNested, unpackBytes, hnested, hinner]

theorem lengthsFit_of_length {d : Derived} (h : (serialize d).length < 2 ^ 32) :
    LengthsFit d :=
  WireTuple.fits_of_length (Serializable.fields d) h

/-- A message whose encoding is shorter than 2^32 bytes decodes to itself. -/
theorem deserialize_serialize_of_length {d : Derived} (h : (serialize d).length < 2 ^ 32) :
    deserialize Derived (serialize d) = .ok d := by
  have hread := deserialize_serialize_append d (lengthsFit_of_length h) []
  rwa [List.append_nil] at hread

instance : Wire Derived where
  Fits d := LengthsFit d ∧ (serialize d).length < 2 ^ 32
  length_pos d := by
    change 0 < (pack [] (serialize d)).length
    rw [pack_length]
    omega
  fits_of_length d h := by
    change (pack [] (serialize d)).length < 2 ^ 32 at h
    rw [pack_length] at h
    have hlen : (serialize d).length < 2 ^ 32 := by omega
    exact ⟨lengthsFit_of_length hlen, hlen⟩
  serialize_append body d := pack_append body (serialize d)
  readsBack d h := deserializeNested_readsBack d h.1 h.2

end Message

namespace MessageType

/-- The contract of each message, found from those of its fields. -/
@[reducible] def wire : (T : MessageType) → WireTuple T.struct.Args
  | authRequest => inferInstanceAs (WireTuple (Bytes × Bytes × Unit))
  | logoutRequest => inferInstanceAs (WireTuple (Bytes × Unit))
  | authResponse => inferInstanceAs (WireTuple (Bytes × ErrorCode × Unit))
  | tokenVerifyRequest => inferInstanceAs (WireTuple (Bytes × Unit))
  | tokenVerifyResponse => inferInstanceAs (WireTuple (ErrorCode × Unit))
  | chatSendRequest => inferInstanceAs (WireTuple (Bytes × Bytes × Unit))
  | chatIncoming => inferInstanceAs (WireTuple (Bytes × Bytes × Unit))
  | chatResponse => inferInstanceAs (WireTuple (ErrorCode × Unit))
  | fileUploadRequest => inferInstanceAs (WireTuple (Bytes × Bytes × Bytes × Unit))
  | fileUploadResponse => inferInstanceAs (WireTuple (ErrorCode × Unit))
  | fileDownloadRequest => inferInstanceAs (WireTuple (Bytes × Bytes × Unit))
  | fileDownloadResponse => inferInstanceAs (WireTuple (Bytes × ErrorCode × Unit))
  | friendRequest => inferInstanceAs (WireTuple (Bytes × Bytes × Unit))
  | friendResponse => inferInstanceAs (WireTuple (ErrorCode × Unit))
  | friendListRequest => inferInstanceAs (WireTuple (Bytes × Unit))
  | friendListResponse => inferInstanceAs (WireTuple (List Bytes × List Bytes × ErrorCode × Unit))
  | directMessageRequest => inferInstanceAs (WireTuple (Bytes × Bytes × Bytes × Unit))
  | directMessageIncoming => inferInstanceAs (WireTuple (Bytes × Bytes × Int64 × Unit))
  | directMessageResponse => inferInstanceAs (WireTuple (ErrorCode × Unit))
  | chatListRequest => inferInstanceAs (WireTuple (Bytes × Unit))
  | chatListEntry => inferInstanceAs (WireTuple (Bytes × Bytes × Int64 × Unit))
  | chatListResponse => inferInstanceAs (WireTuple (List ChatListEntry × ErrorCode × Unit))
  | historyRequest => inferInstanceAs (WireTuple (Bytes × Bytes × Unit))
  | historyEntry => inferInstanceAs (WireTuple (Bytes × Bytes × Int64 × Unit))
  | historyResponse => inferInstanceAs (WireTuple (List HistoryEntry × ErrorCode × Unit))

/-- All string, vector, record and list lengths inside x are below 2^32. -/
def Fits (T : MessageType) (x : T.Value) : Prop :=
  T.wire.Fits (Serializable.fields x)

/-- Decoding returns the message that was encoded, with any bytes behind it. -/
theorem deserialize_serialize (T : MessageType) (x : T.Value) (h : T.Fits x) (r : Bytes) :
    T.deserialize (T.serialize x ++ r) = .ok x := by
  let := T.wire
  exact deserialize_serialize_append x h r

theorem deserialize_serialize_history :
    historyResponse.deserialize
        (historyResponse.serialize ⟨[⟨[97], [104, 0], -5⟩, ⟨[98], [], 7⟩], Error.Base.ok⟩ ++ [1, 2])
      = .ok ⟨[⟨[97], [104, 0], -5⟩, ⟨[98], [], 7⟩], Error.Base.ok⟩ := by
  apply deserialize_serialize historyResponse
  refine ⟨⟨by decide, ?_⟩, trivial, trivial⟩
  intro el hel
  change el ∈ [(⟨[97], [104, 0], -5⟩ : HistoryEntry), ⟨[98], [], 7⟩] at hel
  simp only [List.mem_cons, List.not_mem_nil, or_false] at hel
  rcases hel with rfl | rfl
  · exact ⟨⟨fits_bytes.mpr (by decide), fits_bytes.mpr (by decide), trivial, trivial⟩, by decide⟩
  · exact ⟨⟨fits_bytes.mpr (by decide), fits_bytes.mpr (by decide), trivial, trivial⟩, by decide⟩

end MessageType

end Messenger
