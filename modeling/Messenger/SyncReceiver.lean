import Messenger.NetworkSession
import Messenger.Canonicity
import Mathlib.Data.List.TakeWhile

/-!
The two receivers of the protocol on a finite stream: `recv_packet_sync` of protocol.hpp,
called until it throws, and the read loop of network_session.hpp until it closes the
socket. They split every stream alike. The first refuses a header that announces more
than 10 MB; in the second that check is commented out, so the two agree just until a
whole packet of more than 10 MB comes by.
-/
namespace Messenger

open FramedStreams

namespace PacketType

theorem toUInt32_ofUInt32 (n : UInt32) : (ofUInt32 n).toUInt32 = n := by
  by_cases h : n = 0 ∨ 18 < n
  · simp [ofUInt32, h, toUInt32]
  · have hnamed : ∀ k : Fin 19, k ≠ 0 →
        (ofUInt32 (UInt32.ofNat k)).toUInt32 = UInt32.ofNat k := by decide
    rw [not_or, UInt32.not_lt, UInt32.le_iff_toNat_le] at h
    have hlt : n.toNat < 19 := Nat.lt_succ_of_le h.2
    have hpos : (⟨n.toNat, hlt⟩ : Fin 19) ≠ 0 := by
      intro hzero
      have hn : n.toNat = 0 := congrArg Fin.val hzero
      exact h.1 (UInt32.toNat_inj.mp hn)
    have hn := hnamed ⟨n.toNat, hlt⟩ hpos
    rwa [UInt32.ofNat_toNat] at hn

end PacketType

namespace SyncReceiver

open NetworkSession

/-- `10_MB` of literals.hpp. -/
def maxLength : ℕ := 10 * 1024 * 1024

/-- `recv_packet_sync` on the bytes that are left of a stream that has ended: the packet
and what is behind it, or the exception. -/
def recvPacketSync (stream : Bytes) : Except Exn (Packet × Bytes) :=
  if stream.length < 8 then .error (.runtimeError "Recv failed: End of file")
  else
    let header := stream.take 8
    let packetType := PacketType.ofUInt32 (ntohl (header.take 4))
    let length := (ntohl ((header.drop 4).take 4)).toNat
    if length > maxLength then .error (.runtimeError "packet too large")
    -- this read is given no error code and throws by itself
    else if (stream.drop 8).length < length then .error (.runtimeError "read: End of file")
    else .ok ((packetType, (stream.drop 8).take length), (stream.drop 8).drop length)

theorem recvPacketSync_shorter {stream rest : Bytes} {packet : Packet}
    (h : recvPacketSync stream = .ok (packet, rest)) : rest.length < stream.length := by
  unfold recvPacketSync at h
  split at h
  · cases h
  · rename_i hheader
    simp only at h
    split at h
    · cases h
    · split at h
      · cases h
      · cases h
        rw [List.length_drop, List.length_drop]
        omega

/-- Calls of `recv_packet_sync` until one fails. -/
def recvAll (stream : Bytes) : List Packet :=
  match _h : recvPacketSync stream with
  | .error _ => []
  | .ok (packet, rest) => packet :: recvAll rest
termination_by stream.length
decreasing_by exact recvPacketSync_shorter _h

/-- What the read loop passes to `handle_packet` before it closes the socket. -/
def handled (stream : Bytes) : List Packet :=
  (Reader.readLoop (F := framing) (by decide) stream Reader.new).delivered

theorem recvAll_error {stream : Bytes} {e : Exn} (h : recvPacketSync stream = .error e) :
    recvAll stream = [] := by
  rw [recvAll]
  split
  · rfl
  · rename_i packet rest hok
    rw [h] at hok
    cases hok

theorem recvAll_ok {stream rest : Bytes} {packet : Packet}
    (h : recvPacketSync stream = .ok (packet, rest)) :
    recvAll stream = packet :: recvAll rest := by
  rw [recvAll]
  split
  · rename_i e herror
    rw [h] at herror
    cases herror
  · rename_i packet' rest' hok
    rw [h] at hok
    cases hok
    rfl

/-- Any header is the header of a packet, whose type need not have a name. -/
theorem framing_complete : framing.Complete := by
  intro stream hbegins
  have hword : ((stream.take 8).take 4).length = 4 := by
    have hlen : 8 ≤ stream.length := le_trans (Nat.le_add_right 8 _) hbegins
    simp only [List.length_take]
    omega
  have hsize : (((stream.take 8).drop 4).take 4).length = 4 := by
    have hlen : 8 ≤ stream.length := le_trans (Nat.le_add_right 8 _) hbegins
    simp only [List.length_take, List.length_drop]
    omega
  let size := ntohl (((stream.take 8).drop 4).take 4)
  have hbody : ((stream.drop 8).take size.toNat).length = size.toNat :=
    slice_length hbegins
  let packet : Packet := (PacketType.ofUInt32 (ntohl ((stream.take 8).take 4)),
    (stream.drop 8).take size.toNat)
  refine ⟨packet, (stream.drop 8).drop size.toNat, sound_of_fits ?_, ?_⟩
  · exact hbody.trans_lt size.toNat_lt
  · change stream = header packet ++ (stream.drop 8).take size.toNat ++
      (stream.drop 8).drop size.toNat
    have hheader : header packet = stream.take 8 := by
      have hfirst : (stream.take 8).take 4 ++ ((stream.take 8).drop 4).take 4 = stream.take 8 := by
        rw [List.take_of_length_le (l := (stream.take 8).drop 4)
          (by simp only [List.length_take, List.length_drop]; omega), List.take_append_drop]
      rw [header, PacketType.toUInt32_ofUInt32, htonl_ntohl hword, hbody, UInt32.ofNat_toNat,
        htonl_ntohl hsize, hfirst]
    rw [hheader, List.append_assoc, List.take_append_drop, List.take_append_drop]

/-- The length word of a header cannot tell of more. -/
theorem fits_of_sound {packet : Packet} (h : framing.Sound packet) :
    packet.2.length < 2 ^ 32 := by
  have hlength : (parseHeader (header packet)).2 = packet.2.length := congrArg Prod.snd h.parse
  rw [← hlength]
  exact UInt32.toNat_lt _

theorem handled_frames {packets : List Packet} (hfits : ∀ p ∈ packets, framing.Sound p)
    {tail : Bytes} (htail : ¬ framing.Begins tail) :
    handled (packets.flatMap fullPacket ++ tail) = packets := by
  have hdelivered := Reader.readLoop_delivered (by decide) hfits htail [] []
  rw [List.nil_append, List.nil_append] at hdelivered
  exact hdelivered.trans (List.map_id packets)

/-- A whole packet at the start is received, unless it is too large. -/
theorem recvPacketSync_frame {packet : Packet} (hfits : framing.Sound packet) (rest : Bytes) :
    recvPacketSync (fullPacket packet ++ rest) =
      if packet.2.length > maxLength then .error (.runtimeError "packet too large")
      else .ok (packet, rest) := by
  have hlen : (header packet).length = 8 := hfits.size
  have htake : (fullPacket packet ++ rest).take 8 = header packet := by
    rw [fullPacket, List.append_assoc, ← hlen, List.take_left]
  have hdrop : (fullPacket packet ++ rest).drop 8 = packet.2 ++ rest := by
    rw [fullPacket, List.append_assoc, ← hlen, List.drop_left]
  have hparse : parseHeader (header packet) = (packet.1, packet.2.length) := hfits.parse
  obtain ⟨htype, hlength⟩ := Prod.ext_iff.mp hparse
  simp only [parseHeader] at htype hlength
  unfold recvPacketSync
  rw [if_neg (by simp only [fullPacket, List.length_append, hlen]; omega)]
  simp only [htake, hdrop, htype, hlength]
  split
  · rfl
  · rw [if_neg (by rw [List.length_append]; omega), List.take_left, List.drop_left]

theorem recvPacketSync_tail {tail : Bytes} (htail : ¬ framing.Begins tail) :
    ∃ e, recvPacketSync tail = .error e := by
  unfold recvPacketSync
  split
  · exact ⟨_, rfl⟩
  · rename_i hheader
    simp only
    split
    · exact ⟨_, rfl⟩
    · rw [if_pos]
      · exact ⟨_, rfl⟩
      · have hshort : ¬ 8 + (ntohl (((tail.take 8).drop 4).take 4)).toNat ≤ tail.length := htail
        rw [List.length_drop]
        omega

def small (packet : Packet) : Bool := decide (packet.2.length ≤ maxLength)

theorem small_iff {packet : Packet} : small packet = true ↔ packet.2.length ≤ maxLength :=
  decide_eq_true_iff

/-- The packets up to the first that is too large. -/
theorem recvAll_frames {packets : List Packet} (hfits : ∀ p ∈ packets, framing.Sound p)
    {tail : Bytes} (htail : ¬ framing.Begins tail) :
    recvAll (packets.flatMap fullPacket ++ tail) = packets.takeWhile small := by
  induction packets with
  | nil =>
    obtain ⟨e, he⟩ := recvPacketSync_tail htail
    exact recvAll_error he
  | cons packet rest ih =>
    obtain ⟨hpacket, hrest⟩ := List.forall_mem_cons.mp hfits
    have hreceive := recvPacketSync_frame hpacket (rest.flatMap fullPacket ++ tail)
    rw [List.flatMap_cons, List.append_assoc]
    by_cases hlarge : packet.2.length > maxLength
    · rw [if_pos hlarge] at hreceive
      rw [recvAll_error hreceive,
        List.takeWhile_cons_of_neg (mt small_iff.mp (Nat.not_le_of_lt hlarge))]
    · rw [if_neg hlarge] at hreceive
      rw [recvAll_ok hreceive, ih hrest,
        List.takeWhile_cons_of_pos (small_iff.mpr (Nat.le_of_not_lt hlarge))]

/-- Among the packets of the stream that came whole is one of more than 10 MB. -/
def CarriesLarge (stream : Bytes) : Prop :=
  ∃ (packets : List Packet) (large : Packet) (rest : Bytes),
    (∀ p ∈ packets, p.2.length ≤ maxLength) ∧
    maxLength < large.2.length ∧ large.2.length < 2 ^ 32 ∧
    stream = packets.flatMap fullPacket ++ (fullPacket large ++ rest)

theorem sound_of_small {packet : Packet} (h : packet.2.length ≤ maxLength) :
    framing.Sound packet :=
  sound_of_fits (h.trans_lt (by decide))

/-- The synchronous receiver stops where the read loop goes on. -/
theorem received_of_carriesLarge {packets : List Packet} {large : Packet} (rest : Bytes)
    (hsmall : ∀ p ∈ packets, p.2.length ≤ maxLength) (hlarge : maxLength < large.2.length)
    (hfits : large.2.length < 2 ^ 32) :
    recvAll (packets.flatMap fullPacket ++ (fullPacket large ++ rest)) = packets ∧
      ∃ more, handled (packets.flatMap fullPacket ++ (fullPacket large ++ rest)) =
        packets ++ large :: more := by
  obtain ⟨more, tail, hmore, rfl, htail⟩ := framing_complete.exists_frames (by decide) rest
  have hall : ∀ p ∈ packets ++ large :: more, framing.Sound p := by
    intro p hp
    rcases List.mem_append.mp hp with hp | hp
    · exact sound_of_small (hsmall p hp)
    · rcases List.mem_cons.mp hp with rfl | hp
      · exact sound_of_fits hfits
      · exact hmore p hp
  have hstream : packets.flatMap fullPacket ++
      (fullPacket large ++ (more.flatMap framing.frame ++ tail)) =
        (packets ++ large :: more).flatMap fullPacket ++ tail := by
    rw [List.flatMap_append, List.flatMap_cons, List.append_assoc, List.append_assoc, frame_eq]
  rw [hstream]
  refine ⟨(recvAll_frames hall htail).trans ?_, more, handled_frames hall htail⟩
  rw [List.takeWhile_append_of_pos (fun p hp => small_iff.mpr (hsmall p hp)),
    List.takeWhile_cons_of_neg (mt small_iff.mp (Nat.not_le_of_lt hlarge)), List.append_nil]

/-- The two receivers pass on the same packets just where no packet that came whole is
larger than 10 MB; a header that announces more than is left changes nothing. -/
theorem recvAll_eq_handled_iff (stream : Bytes) :
    recvAll stream = handled stream ↔ ¬ CarriesLarge stream := by
  constructor
  · rintro heq ⟨packets, large, rest, hsmall, hlarge, hfits, rfl⟩
    obtain ⟨hsync, more, hasync⟩ := received_of_carriesLarge rest hsmall hlarge hfits
    rw [hsync, hasync] at heq
    have hlen := congrArg List.length heq
    rw [List.length_append, List.length_cons] at hlen
    omega
  · intro hnone
    obtain ⟨packets, tail, hfits, rfl, htail⟩ :=
      framing_complete.exists_frames (by decide) stream
    change recvAll (packets.flatMap fullPacket ++ tail) =
      handled (packets.flatMap fullPacket ++ tail)
    rw [recvAll_frames hfits htail, handled_frames hfits htail]
    cases hlate : packets.dropWhile small with
    | nil => exact List.takeWhile_eq_self_iff.mpr (List.dropWhile_eq_nil_iff.mp hlate)
    | cons large rest =>
      have hsplit : packets.takeWhile small ++ large :: rest = packets := by
        rw [← hlate, List.takeWhile_append_dropWhile]
      have hlarge : ¬ small large = true := by
        have hhead := List.head?_dropWhile_not small packets
        rw [hlate] at hhead
        exact Bool.eq_false_iff.mp hhead
      have hmem : large ∈ packets := by
        rw [← hsplit]
        exact List.mem_append_right _ List.mem_cons_self
      have hstream : packets.flatMap fullPacket ++ tail =
          (packets.takeWhile small).flatMap fullPacket ++
            (fullPacket large ++ (rest.flatMap fullPacket ++ tail)) := by
        rw [← congrArg (List.flatMap fullPacket) hsplit, List.flatMap_append, List.flatMap_cons,
          List.append_assoc, List.append_assoc]
      exact absurd ⟨packets.takeWhile small, large, rest.flatMap fullPacket ++ tail,
        fun p hp => small_iff.mp (List.mem_takeWhile_imp (p := small) hp),
        Nat.lt_of_not_le (mt small_iff.mpr hlarge), fits_of_sound (hfits large hmem), hstream⟩ hnone

/-- A packet of n bytes, above 10 MB, is handed on by the read loop alone. -/
theorem large_packet_received {n : ℕ} (hlarge : maxLength < n) (hfits : n < 2 ^ 32) :
    recvAll (fullPacket (.login, List.replicate n 0)) ≠
      handled (fullPacket (.login, List.replicate n 0)) := by
  let large : Packet := (.login, List.replicate n 0)
  have hlen : large.2.length = n := List.length_replicate
  have hsmall : ∀ p ∈ ([] : List Packet), p.2.length ≤ maxLength :=
    fun p hp => absurd hp List.not_mem_nil
  obtain ⟨hsync, more, hasync⟩ := received_of_carriesLarge [] hsmall
    (hlarge.trans_eq hlen.symm) (hlen.trans_lt hfits)
  rw [List.flatMap_nil, List.nil_append, List.append_nil] at hsync hasync
  change recvAll (fullPacket large) ≠ handled (fullPacket large)
  rw [hsync, hasync]
  exact (List.cons_ne_nil _ _).symm

/-- The receivers disagree on one packet of 10 MB and a byte. -/
theorem receivers_disagree : ¬ ∀ stream : Bytes, recvAll stream = handled stream :=
  fun h => large_packet_received (n := maxLength + 1) (by decide) (by decide) (h _)

end SyncReceiver

end Messenger
