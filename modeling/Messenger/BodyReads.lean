import Messenger.Canonicity
import Messenger.ReadLogs

/-!
Which bytes of a body the decoders of messages.hpp look at. Each decoder is given again
with the reads it makes, and decodes as before; a read outside the buffer is then the
same thing as the error that the model has for it. The strings, words and nested records
look before they read. The count of a list does not: a body that ends where a list
should start is read past its end, and no other body is.
-/
namespace Messenger.BodyReads

open OffsetDecoders ReadLogs

/-- `memcpy` of the length word, then the copy of the value. -/
def loggedUnpack : LoggedDecoder Exn Bytes := fun offset body =>
  if offset + 4 > body.length then ([], .error (.runtimeError "unpack: out of bounds"))
  else
    let word : Read := ⟨offset, 4, body.length⟩
    let length := ntohl ((body.drop offset).take 4)
    let offset := offset + 4
    if offset + length.toNat > body.length then
      ([word], .error (.runtimeError "unpack: out of bounds reading value"))
    else
      let value := (body.drop offset).take length.toNat
      ([word, ⟨offset, length.toNat, body.length⟩], .ok (value, offset + value.length))

def loggedUnpackUi32 : LoggedDecoder Exn UInt32 := fun offset body =>
  if offset + 4 > body.length then ([], .error (.runtimeError "unpack: out of bounds"))
  else ([⟨offset, 4, body.length⟩], .ok (ntohl ((body.drop offset).take 4), offset + 4))

/-- `body[offset + i]` for i below 8. -/
def loggedUnpackI64 : LoggedDecoder Exn Int64 := fun offset body =>
  if offset + 8 > body.length then ([], .error (.runtimeError "unpack: out of bounds"))
  else
    let value := ((body.drop offset).take 8).foldl
      (fun (value : Int64) byte => (value <<< 8) ||| byte.toUInt64.toInt64) 0
    ((List.range 8).map fun i => ⟨offset + i, 1, body.length⟩, .ok (value, offset + 8))

/-- A field type with the reads of its decoder. -/
class LoggedSerializer (T : Type) [Serializer T] where
  deserialize : LoggedDecoder Exn T
  tells : Tells .outOfBoundsRead deserialize Serializer.deserialize

class LoggedTupleSerializer (Args : Type) [TupleSerializer Args] where
  deserializeTuple : LoggedDecoder Exn Args
  tells : Tells .outOfBoundsRead deserializeTuple TupleSerializer.deserializeTuple

/-- The count is copied out whether it is there or not. -/
def loggedVector {T : Type} [Serializer T] [LoggedSerializer T] : LoggedDecoder Exn (List T) :=
  fun offset body =>
    let count : Read := ⟨offset, 4, body.length⟩
    if offset + 4 > body.length then ([count], .error .outOfBoundsRead)
    else
      let size := ntohl ((body.drop offset).take 4)
      let elements := LoggedSerializer.deserialize (T := T) |>.many size.toNat (offset + 4) body
      (count :: elements.1, elements.2)

section Message
variable {Derived Args : Type} [Serializable Derived Args] [TupleSerializer Args]
  [LoggedTupleSerializer Args]

/-- `T::deserialize` on a buffer of its own. -/
def loggedDeserialize (Derived : Type) {Args : Type} [Serializable Derived Args]
    [TupleSerializer Args] [LoggedTupleSerializer Args] : LoggedDecoder Exn Derived :=
  LoggedDecoder.map (Serializable.ofFields : Args → Derived)
    LoggedTupleSerializer.deserializeTuple

/-- The reads of the cut out buffer are bounded by its own size. -/
def loggedNested : LoggedDecoder Exn Derived := fun offset body =>
  match loggedUnpack offset body with
  | (reads, .error e) => (reads, .error e)
  | (reads, .ok (nested, offset)) =>
    match loggedDeserialize Derived 0 nested with
    | (inner, .error e) => (reads ++ inner, .error e)
    | (inner, .ok (value, _)) => (reads ++ inner, .ok (value, offset))

end Message

theorem loggedUnpack_tells : Tells .outOfBoundsRead loggedUnpack unpack := by
  intro offset body
  unfold loggedUnpack unpack
  split
  · exact ⟨rfl, iff_of_true (fun r hr => absurd hr List.not_mem_nil) (fun h => by cases h)⟩
  · rename_i hword
    simp only
    split
    · refine ⟨rfl, iff_of_true (fun r hr => ?_) (fun h => by cases h)⟩
      rw [List.mem_singleton] at hr
      subst hr
      change offset + 4 ≤ body.length
      omega
    · rename_i hvalue
      refine ⟨rfl, iff_of_true (fun r hr => ?_) (fun h => by cases h)⟩
      rcases List.mem_cons.mp hr with rfl | hr
      · change offset + 4 ≤ body.length
        omega
      · rw [List.mem_singleton] at hr
        subst hr
        exact Nat.le_of_not_lt hvalue

theorem loggedUnpackUi32_tells : Tells .outOfBoundsRead loggedUnpackUi32 unpackUi32 := by
  intro offset body
  unfold loggedUnpackUi32 unpackUi32
  split
  · exact ⟨rfl, iff_of_true (fun r hr => absurd hr List.not_mem_nil) (fun h => by cases h)⟩
  · rename_i hword
    refine ⟨rfl, iff_of_true (fun r hr => ?_) (fun h => by cases h)⟩
    rw [List.mem_singleton] at hr
    subst hr
    exact Nat.le_of_not_lt hword

theorem loggedUnpackI64_tells : Tells .outOfBoundsRead loggedUnpackI64 unpackI64 := by
  intro offset body
  unfold loggedUnpackI64 unpackI64
  split
  · exact ⟨rfl, iff_of_true (fun r hr => absurd hr List.not_mem_nil) (fun h => by cases h)⟩
  · rename_i hword
    refine ⟨rfl, iff_of_true (fun r hr => ?_) (fun h => by cases h)⟩
    obtain ⟨i, hi, rfl⟩ := List.mem_map.mp hr
    rw [List.mem_range] at hi
    change offset + i + 1 ≤ body.length
    omega

/-- The only unguarded read: it is outside just where the model's error stands for it. -/
theorem loggedVector_tells {T : Type} [Serializer T] [LoggedSerializer T] :
    Tells .outOfBoundsRead (loggedVector : LoggedDecoder Exn (List T)) deserializeVector := by
  intro offset body
  unfold loggedVector deserializeVector
  simp only
  split
  · rename_i hword
    refine ⟨rfl, fun h => absurd (h _ (List.mem_singleton_self _)) ?_, fun h => absurd rfl h⟩
    change ¬ offset + 4 ≤ body.length
    omega
  · rename_i hword
    obtain ⟨hresult, hinside⟩ := (LoggedSerializer.tells (T := T)).many
      (ntohl ((body.drop offset).take 4)).toNat (offset + 4) body
    refine ⟨hresult, Iff.trans ?_ hinside⟩
    have hcount : Read.Inside ⟨offset, 4, body.length⟩ := Nat.le_of_not_lt hword
    rw [List.forall_mem_cons]
    exact and_iff_right hcount

section Message
variable {Derived Args : Type} [Serializable Derived Args] [TupleSerializer Args]
  [LoggedTupleSerializer Args]

theorem loggedDeserialize_tells : Tells .outOfBoundsRead (loggedDeserialize Derived)
    (Decoder.map (Serializable.ofFields : Args → Derived) TupleSerializer.deserializeTuple) :=
  LoggedTupleSerializer.tells.map _

theorem loggedNested_tells :
    Tells .outOfBoundsRead (loggedNested : LoggedDecoder Exn Derived) deserializeNested := by
  intro offset body
  rcases loggedUnpack_tells.outcome offset body with
    ⟨reads, err, hlog, hrun, hinside⟩ | ⟨reads, nested, stop, hlog, hrun, hinside⟩
  · exact tells_of_error (by simp only [loggedNested, hlog])
      (by simp only [deserializeNested, unpackBytes, hrun]) hinside
  · have hnested : Tells .outOfBoundsRead (loggedDeserialize Derived) _ := loggedDeserialize_tells
    rcases hnested.outcome 0 nested with
      ⟨inner, err, hlog', hrun', hinside'⟩ | ⟨inner, value, stop', hlog', hrun', hinside'⟩
    · have hvalue : deserialize Derived nested = .error err := by
        simp only [deserialize, Decoder.run, hrun']
      exact tells_of_error (by simp only [loggedNested, hlog, hlog'])
        (by simp only [deserializeNested, unpackBytes, hrun, hvalue])
        ((forall_mem_append_iff hinside).trans hinside')
    · have hvalue : deserialize Derived nested = .ok value := by
        simp only [deserialize, Decoder.run, hrun']
      exact tells_of_ok (p := (value, stop)) (by simp only [loggedNested, hlog, hlog'])
        (by simp only [deserializeNested, unpackBytes, hrun, hvalue])
        ((forall_mem_append_iff hinside).mpr hinside')

instance : LoggedSerializer Derived := ⟨loggedNested, loggedNested_tells⟩

end Message

instance : LoggedSerializer Bytes := ⟨loggedUnpack, loggedUnpack_tells⟩

instance : LoggedSerializer Int64 := ⟨loggedUnpackI64, loggedUnpackI64_tells⟩

instance : LoggedSerializer ErrorCode :=
  ⟨loggedUnpackUi32.map ErrorCode.mk, loggedUnpackUi32_tells.map _⟩

instance {T : Type} [Serializer T] [LoggedSerializer T] : LoggedSerializer (List T) :=
  ⟨loggedVector, loggedVector_tells⟩

instance : LoggedTupleSerializer Unit := ⟨LoggedDecoder.pure (), tells_pure ()⟩

instance {T Args : Type} [Serializer T] [TupleSerializer Args] [LoggedSerializer T]
    [LoggedTupleSerializer Args] : LoggedTupleSerializer (T × Args) :=
  ⟨LoggedSerializer.deserialize.pair LoggedTupleSerializer.deserializeTuple,
    LoggedSerializer.tells.pair LoggedTupleSerializer.tells⟩

@[reducible] def logged : (T : MessageType) → LoggedTupleSerializer T.struct.Args
  | .authRequest => inferInstanceAs (LoggedTupleSerializer (Bytes × Bytes × Unit))
  | .logoutRequest => inferInstanceAs (LoggedTupleSerializer (Bytes × Unit))
  | .authResponse => inferInstanceAs (LoggedTupleSerializer (Bytes × ErrorCode × Unit))
  | .tokenVerifyRequest => inferInstanceAs (LoggedTupleSerializer (Bytes × Unit))
  | .tokenVerifyResponse => inferInstanceAs (LoggedTupleSerializer (ErrorCode × Unit))
  | .chatSendRequest => inferInstanceAs (LoggedTupleSerializer (Bytes × Bytes × Unit))
  | .chatIncoming => inferInstanceAs (LoggedTupleSerializer (Bytes × Bytes × Unit))
  | .chatResponse => inferInstanceAs (LoggedTupleSerializer (ErrorCode × Unit))
  | .fileUploadRequest => inferInstanceAs (LoggedTupleSerializer (Bytes × Bytes × Bytes × Unit))
  | .fileUploadResponse => inferInstanceAs (LoggedTupleSerializer (ErrorCode × Unit))
  | .fileDownloadRequest => inferInstanceAs (LoggedTupleSerializer (Bytes × Bytes × Unit))
  | .fileDownloadResponse => inferInstanceAs (LoggedTupleSerializer (Bytes × ErrorCode × Unit))
  | .friendRequest => inferInstanceAs (LoggedTupleSerializer (Bytes × Bytes × Unit))
  | .friendResponse => inferInstanceAs (LoggedTupleSerializer (ErrorCode × Unit))
  | .friendListRequest => inferInstanceAs (LoggedTupleSerializer (Bytes × Unit))
  | .friendListResponse =>
    inferInstanceAs (LoggedTupleSerializer (List Bytes × List Bytes × ErrorCode × Unit))
  | .directMessageRequest =>
    inferInstanceAs (LoggedTupleSerializer (Bytes × Bytes × Bytes × Unit))
  | .directMessageIncoming =>
    inferInstanceAs (LoggedTupleSerializer (Bytes × Bytes × Int64 × Unit))
  | .directMessageResponse => inferInstanceAs (LoggedTupleSerializer (ErrorCode × Unit))
  | .chatListRequest => inferInstanceAs (LoggedTupleSerializer (Bytes × Unit))
  | .chatListEntry => inferInstanceAs (LoggedTupleSerializer (Bytes × Bytes × Int64 × Unit))
  | .chatListResponse =>
    inferInstanceAs (LoggedTupleSerializer (List ChatListEntry × ErrorCode × Unit))
  | .historyRequest => inferInstanceAs (LoggedTupleSerializer (Bytes × Bytes × Unit))
  | .historyEntry => inferInstanceAs (LoggedTupleSerializer (Bytes × Bytes × Int64 × Unit))
  | .historyResponse =>
    inferInstanceAs (LoggedTupleSerializer (List HistoryEntry × ErrorCode × Unit))

/-- The reads of `T::deserialize(body)`, in the order in which they are made. -/
def reads (T : MessageType) (body : Bytes) : List Read :=
  let := logged T
  (loggedDeserialize T.Value 0 body).1

theorem decoder_error_iff {T : MessageType} {body : Bytes} {e : Exn} :
    T.deserialize body = .error e ↔ T.decoder 0 body = .error e := by
  change Decoder.run T.decoder body = .error e ↔ _
  unfold Decoder.run
  cases T.decoder 0 body with
  | error e' => simp
  | ok p => simp

/-- Every read is inside the body, or inside the buffer cut out for a nested record, just
where the decoder of the model does not end in a read outside. -/
theorem reads_inside_iff (T : MessageType) (body : Bytes) :
    (∀ r ∈ reads T body, r.Inside) ↔ T.deserialize body ≠ .error .outOfBoundsRead := by
  let := logged T
  have htells : Tells .outOfBoundsRead (loggedDeserialize T.Value) _ := loggedDeserialize_tells
  exact (htells 0 body).2.trans (not_congr decoder_error_iff.symm)

abbrev Guarded (e : Exn) : Prop := e ≠ .outOfBoundsRead

/-- A field whose decoder looks before it reads, as all but the lists do. -/
class GuardedSerializer (T : Type) [Serializer T] : Prop where
  failsOnly : FailsOnly Guarded (Serializer.deserialize : Decoder Exn T)

class GuardedTuple (Args : Type) [TupleSerializer Args] : Prop where
  failsOnly : FailsOnly Guarded (TupleSerializer.deserializeTuple : Decoder Exn Args)

theorem unpack_guarded : FailsOnly Guarded unpack := by
  intro offset body e h
  unfold unpack at h
  split at h
  · cases h
    decide
  · simp only at h
    split at h
    · cases h
      decide
    · cases h

theorem unpackUi32_guarded : FailsOnly Guarded unpackUi32 := by
  intro offset body e h
  unfold unpackUi32 at h
  split at h
  · cases h
    decide
  · cases h

theorem unpackI64_guarded : FailsOnly Guarded unpackI64 := by
  intro offset body e h
  unfold unpackI64 at h
  split at h
  · cases h
    decide
  · cases h

instance : GuardedSerializer Bytes := ⟨unpack_guarded⟩

instance : GuardedSerializer Int64 := ⟨unpackI64_guarded⟩

instance : GuardedSerializer ErrorCode := ⟨unpackUi32_guarded.map _⟩

instance : GuardedTuple Unit := ⟨failsOnly_pure ()⟩

instance {T Args : Type} [Serializer T] [TupleSerializer Args] [GuardedSerializer T]
    [GuardedTuple Args] : GuardedTuple (T × Args) :=
  ⟨GuardedSerializer.failsOnly.pair GuardedTuple.failsOnly⟩

instance {Derived Args : Type} [Serializable Derived Args] [TupleSerializer Args]
    [GuardedTuple Args] : GuardedSerializer Derived := by
  refine ⟨fun offset body e h => ?_⟩
  change deserializeNested offset body = .error e at h
  unfold deserializeNested at h
  split at h
  · rename_i e' hcut
    cases h
    exact unpack_guarded _ _ _ hcut
  · rename_i nested stop hcut
    split at h
    · rename_i e' hvalue
      cases h
      exact (GuardedTuple.failsOnly.map (Serializable.ofFields : Args → Derived)).run hvalue
    · cases h

theorem deserializeVector_oob_iff {T : Type} [Serializer T] [GuardedSerializer T] {offset : ℕ}
    {body : Bytes} :
    (deserializeVector : Decoder Exn (List T)) offset body = .error .outOfBoundsRead ↔
      body.length < offset + 4 := by
  unfold deserializeVector
  split
  · rename_i hword
    exact iff_of_true rfl hword
  · rename_i hword
    refine iff_of_false (fun h => ?_) hword
    exact (GuardedSerializer.failsOnly (T := T)).many _ _ _ _ h rfl

theorem pair_oob_iff {ε α β : Type} {oob : ε} {d : Decoder ε α} {e : Decoder ε β} {offset : ℕ}
    {body : Bytes} :
    d.pair e offset body = .error oob ↔ d offset body = .error oob ∨
      ∃ x stop, d offset body = .ok (x, stop) ∧ e stop body = .error oob := by
  unfold Decoder.pair
  rcases d offset body with err | ⟨x, stop⟩
  · simp
  · rcases hsecond : e stop body with err | ⟨y, stop'⟩
    · simp [hsecond]
    · simp [hsecond]

theorem map_oob_iff {ε α β : Type} {oob : ε} {d : Decoder ε α} {f : α → β} {offset : ℕ}
    {body : Bytes} : d.map f offset body = .error oob ↔ d offset body = .error oob := by
  unfold Decoder.map
  rcases d offset body with err | ⟨x, stop⟩ <;> simp

/-- The bodies that end less than four bytes behind the start of a list: behind nothing
where the list comes first, and behind the friends where it is the second of two. -/
def CutAtCount : MessageType → Bytes → Prop
  | .friendListResponse, body => body.length < 4 ∨
      ∃ friends : List Bytes, ∃ rest, Wire.Fits friends ∧
        body = Serializer.serialize [] friends ++ rest ∧ rest.length < 4
  | .chatListResponse, body | .historyResponse, body => body.length < 4
  | _, _ => False

/-- Two lists at the start: where the second begins, the first stands encoded. -/
theorem two_lists_oob_iff {Derived : Type}
    {f : List Bytes × List Bytes × ErrorCode × Unit → Derived} {body : Bytes} :
    Decoder.map f (Decoder.pair deserializeVector
        (Decoder.pair deserializeVector TupleSerializer.deserializeTuple)) 0 body =
      .error .outOfBoundsRead ↔ CutAtCount .friendListResponse body := by
  rw [map_oob_iff, pair_oob_iff, deserializeVector_oob_iff, Nat.zero_add]
  refine or_congr Iff.rfl ⟨?_, ?_⟩
  · rintro ⟨friends, stop, hfriends, hrest⟩
    obtain ⟨hfits, ⟨rest, hstands⟩, rfl⟩ := deserializeVector_inverts _ _ _ _ hfriends
    rw [List.drop_zero] at hstands
    have hguarded : FailsOnly Guarded
        (TupleSerializer.deserializeTuple : Decoder Exn (ErrorCode × Unit)) :=
      GuardedTuple.failsOnly
    rcases pair_oob_iff.mp hrest with hcount | ⟨pending, stop', -, hcode⟩
    · rw [deserializeVector_oob_iff, ← hstands, List.length_append] at hcount
      exact ⟨friends, rest, hfits, hstands.symm, by omega⟩
    · exact absurd rfl (hguarded _ _ _ hcode)
  · rintro ⟨friends, rest, hfits, rfl, hrest⟩
    have hread := deserializeVector_readsBack friends hfits.1 hfits.2 [] rest
    rw [List.nil_append] at hread
    refine ⟨friends, _, hread, pair_oob_iff.mpr (Or.inl ?_)⟩
    rw [deserializeVector_oob_iff, List.length_append, List.length_nil]
    omega

/-- One list at the start, of elements that look before they read. -/
theorem first_list_oob_iff {T Derived : Type} [Serializer T] [GuardedSerializer T]
    {f : List T × ErrorCode × Unit → Derived} {body : Bytes} :
    Decoder.map f (Decoder.pair deserializeVector TupleSerializer.deserializeTuple) 0 body =
      .error .outOfBoundsRead ↔ body.length < 4 := by
  rw [map_oob_iff, pair_oob_iff, deserializeVector_oob_iff, Nat.zero_add]
  refine or_iff_left ?_
  rintro ⟨entries, stop, -, hcode⟩
  exact (GuardedTuple.failsOnly : FailsOnly Guarded
    (TupleSerializer.deserializeTuple : Decoder Exn (ErrorCode × Unit))) _ _ _ hcode rfl

theorem guarded_iff (Derived : Type) {Args : Type} [Serializable Derived Args]
    [TupleSerializer Args] [GuardedTuple Args] {body : Bytes} :
    deserialize Derived body = .error .outOfBoundsRead ↔ False :=
  iff_false_intro fun h =>
    (GuardedTuple.failsOnly.map (Serializable.ofFields : Args → Derived)).run h rfl

theorem oob_iff_cutAtCount (T : MessageType) (body : Bytes) :
    T.deserialize body = .error .outOfBoundsRead ↔ CutAtCount T body := by
  cases T with
  | authRequest => exact guarded_iff AuthRequest
  | logoutRequest => exact guarded_iff LogoutRequest
  | authResponse => exact guarded_iff AuthResponse
  | tokenVerifyRequest => exact guarded_iff TokenVerifyRequest
  | tokenVerifyResponse => exact guarded_iff TokenVerifyResponse
  | chatSendRequest => exact guarded_iff ChatSendRequest
  | chatIncoming => exact guarded_iff ChatIncoming
  | chatResponse => exact guarded_iff ChatResponse
  | fileUploadRequest => exact guarded_iff FileUploadRequest
  | fileUploadResponse => exact guarded_iff FileUploadResponse
  | fileDownloadRequest => exact guarded_iff FileDownloadRequest
  | fileDownloadResponse => exact guarded_iff FileDownloadResponse
  | friendRequest => exact guarded_iff FriendRequest
  | friendResponse => exact guarded_iff FriendResponse
  | friendListRequest => exact guarded_iff FriendListRequest
  | friendListResponse => exact decoder_error_iff.trans two_lists_oob_iff
  | directMessageRequest => exact guarded_iff DirectMessageRequest
  | directMessageIncoming => exact guarded_iff DirectMessageIncoming
  | directMessageResponse => exact guarded_iff DirectMessageResponse
  | chatListRequest => exact guarded_iff ChatListRequest
  | chatListEntry => exact guarded_iff ChatListEntry
  | chatListResponse => exact decoder_error_iff.trans first_list_oob_iff
  | historyRequest => exact guarded_iff HistoryRequest
  | historyEntry => exact guarded_iff HistoryEntry
  | historyResponse => exact decoder_error_iff.trans first_list_oob_iff

/-- A decoder reads inside the body just where the body is not cut off at a list count. -/
theorem reads_inside_iff_not_cutAtCount (T : MessageType) (body : Bytes) :
    (∀ r ∈ reads T body, r.Inside) ↔ ¬ CutAtCount T body :=
  (reads_inside_iff T body).trans (not_congr (oob_iff_cutAtCount T body))

/-- The count of an empty CHAT_LIST answer is read from a buffer without bytes. -/
theorem empty_chat_list_read_outside :
    ¬ ∀ (T : MessageType) (body : Bytes), ∀ r ∈ reads T body, r.Inside := by
  intro h
  have hread : (⟨0, 4, 0⟩ : Read) ∈ reads .chatListResponse [] := List.mem_singleton_self _
  exact absurd (h .chatListResponse [] _ hread) (by decide)

end Messenger.BodyReads
