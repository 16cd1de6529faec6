import Messenger.RoundTrip
import Messenger.WritePumps
import Messenger.FramedStreams

/-!
network_session.hpp at both ends of a connection. `send_packet` frames a packet and posts
it, `do_write` and its completion handler pump the queue into the socket, and at the other
end `read_header` and `parse_header_and_read_body` take turns on the bytes that arrive.
Bodies come out as they went in, in order, each once.
-/
namespace Messenger

open WritePumps FramedStreams

abbrev Packet := PacketType × Bytes

namespace NetworkSession

/-- `htonl(body.size())` keeps the low 32 bits of the size. -/
def header (packet : Packet) : Bytes :=
  htonl packet.1.toUInt32 ++ htonl (UInt32.ofNat packet.2.length)

/-- The first half of `parse_header_and_read_body`. -/
def parseHeader (headerBuffer : Bytes) : PacketType × ℕ :=
  (PacketType.ofUInt32 (ntohl (headerBuffer.take 4)),
    (ntohl ((headerBuffer.drop 4).take 4)).toNat)

def framing : Framing Packet PacketType UInt8 where
  header := header
  tag := Prod.fst
  body := Prod.snd
  headerSize := 8
  parseHeader := parseHeader

def fullPacket (packet : Packet) : Bytes := header packet ++ packet.2

theorem frame_eq : framing.frame = fullPacket := rfl

theorem sound_of_fits {packet : Packet} (h : packet.2.length < 2 ^ 32) :
    framing.Sound packet where
  size := by
    change (header packet).length = 8
    rw [header, List.length_append, htonl_length, htonl_length]
  parse := by
    change parseHeader (header packet) = (packet.1, packet.2.length)
    have hword := htonl_length packet.1.toUInt32
    have hsize := htonl_length (UInt32.ofNat packet.2.length)
    rw [parseHeader, header, List.take_left' hword, List.drop_left' hword,
      List.take_of_length_le hsize.le, ntohl_htonl, ntohl_htonl, PacketType.ofUInt32_toUInt32,
      length_word_toNat h]

end NetworkSession

/-- The sending session, the bytes it has written, and the read loop at the other end;
`delivered` are the calls of handle_packet. -/
structure Connection where
  sender : Pump Packet UInt8
  reader : Reader PacketType UInt8
  readerClosed : Bool

/-- `readFailed` happens to a reader whose peer has closed. -/
inductive ConnectionEvent where
  | sendPacket (packetType : PacketType) (body : Bytes)
  | writer (e : PumpEvent)
  | read
  | readFailed
deriving DecidableEq, Repr

namespace Connection

open NetworkSession

def new : Connection := ⟨Pump.new, Reader.new, false⟩

def step (conn : Connection) : ConnectionEvent → Connection
  | .sendPacket packetType body => { conn with sender := conn.sender.post (packetType, body) }
  | .writer e => { conn with sender := conn.sender.step fullPacket e }
  | .read =>
    if conn.readerClosed then conn
    else { conn with reader := conn.reader.step framing conn.sender.wire }
  | .readFailed => if conn.sender.closed then { conn with readerClosed := true } else conn

/-- The read loop waits for bytes that are not there. -/
def Waits (conn : Connection) : Prop :=
  conn.reader.step framing conn.sender.wire = conn.reader

end Connection

namespace ConnectionEvent

def packet? : ConnectionEvent → Option Packet
  | .sendPacket packetType body => some (packetType, body)
  | _ => none

/-- Bodies shorter than 2^32 bytes. -/
def Fits : ConnectionEvent → Prop
  | .sendPacket _ body => body.length < 2 ^ 32
  | _ => True

instance : ∀ e, Decidable (Fits e)
  | .sendPacket _ body => inferInstanceAs (Decidable (body.length < 2 ^ 32))
  | .writer _ => inferInstanceAs (Decidable True)
  | .read => inferInstanceAs (Decidable True)
  | .readFailed => inferInstanceAs (Decidable True)

end ConnectionEvent

namespace Connection

open NetworkSession

structure Carries (conn : Connection) : Prop where
  pumping : ∃ done, Pumping fullPacket conn.sender done
  reading : Reading framing conn.sender.sent conn.reader
  fits : ∀ packet ∈ conn.sender.sent, packet.2.length < 2 ^ 32
  closed : conn.readerClosed = true → conn.sender.closed = true

theorem carries_new : Carries new where
  pumping := ⟨[], pumping_new⟩
  reading := reading_new []
  fits := fun _ h => absurd h List.not_mem_nil
  closed := fun h => by cases h

theorem carries_step {conn : Connection} {e : ConnectionEvent} (h : Carries conn)
    (hfits : e.Fits) : Carries (conn.step e) := by
  cases e with
  | sendPacket packetType body =>
    obtain ⟨done, hpumping⟩ := h.pumping
    refine ⟨⟨done, hpumping.post _⟩, h.reading.append _, ?_, h.closed⟩
    intro packet hpacket
    rcases List.mem_append.mp hpacket with hold | hnew
    · exact h.fits packet hold
    · rw [List.mem_singleton.mp hnew]
      exact hfits
  | writer e =>
    obtain ⟨done, hpumping⟩ := h.pumping
    have hextends := conn.sender.extends_step fullPacket e
    refine ⟨hpumping.step e, ?_, ?_, fun hreader => hextends.closed (h.closed hreader)⟩
    · change Reading framing (conn.sender.step fullPacket e).sent conn.reader
      rw [hextends.sent]
      exact h.reading
    · change ∀ packet ∈ (conn.sender.step fullPacket e).sent, packet.2.length < 2 ^ 32
      rw [hextends.sent]
      exact h.fits
  | read =>
    simp only [step]
    split
    · exact h
    · obtain ⟨done, hpumping⟩ := h.pumping
      have hreading := h.reading.step (fun x hx => sound_of_fits (h.fits x hx)) (by decide)
        hpumping.wire_prefix
      exact ⟨h.pumping, hreading, h.fits, h.closed⟩
  | readFailed =>
    simp only [step]
    split
    · rename_i hclosed
      exact ⟨h.pumping, h.reading, h.fits, fun _ => hclosed⟩
    · exact h

/-- What a run has to show: one write at a time, calls that are a prefix of what was
posted, and all of it once an open connection is at rest. -/
structure InOrder (packets : List Packet) (conn : Connection) : Prop where
  oneWrite : conn.sender.writes.length ≤ 1
  calls : conn.reader.delivered <+: packets
  all : conn.sender.closed = false → conn.sender.posted = [] → conn.sender.writes = [] →
    conn.Waits → conn.reader.delivered = packets

theorem Carries.inOrder {conn : Connection} (h : Carries conn) :
    InOrder conn.sender.sent conn := by
  obtain ⟨done, hpumping⟩ := h.pumping
  have hitem : conn.sender.sent.map (item framing) = conn.sender.sent := List.map_id _
  refine ⟨hpumping.one_write, ?_, ?_⟩
  · have hpre := h.reading.delivered_prefix
    rw [hitem] at hpre
    exact hpre
  · intro hopen hposted hwrites hwaits
    have hwire := hpumping.wire_complete hopen hposted hwrites
    have hall := h.reading.delivered_all (fun x hx => sound_of_fits (h.fits x hx)) (by
      rw [frame_eq, ← hwire]
      exact hwaits)
    rw [hitem] at hall
    exact hall

theorem sent_step (conn : Connection) (e : ConnectionEvent) :
    (conn.step e).sender.sent = conn.sender.sent ++ e.packet?.toList := by
  cases e with
  | sendPacket packetType body => rfl
  | writer e =>
    have hextends := conn.sender.extends_step fullPacket e
    exact hextends.sent.trans (List.append_nil _).symm
  | read =>
    simp only [step]
    split <;> exact (List.append_nil _).symm
  | readFailed =>
    simp only [step]
    split <;> exact (List.append_nil _).symm

theorem sent_run (conn : Connection) (events : List ConnectionEvent) :
    (LabelledRuns.run step conn events).sender.sent =
      conn.sender.sent ++ events.filterMap ConnectionEvent.packet? := by
  induction events generalizing conn with
  | nil => exact (List.append_nil _).symm
  | cons e rest ih =>
    rw [LabelledRuns.run_cons, ih, sent_step, List.append_assoc]
    cases h : e.packet? with
    | none => simp [h]
    | some packet => simp [h]

/-- For every schedule of posts, handlers, transmissions, completions, failures and reads:
handle_packet is called with a prefix of the packets posted, and with all of them once
nothing has failed and everything has completed. -/
theorem inOrder_run (events : List ConnectionEvent) (hfits : ∀ e ∈ events, e.Fits) :
    InOrder (events.filterMap ConnectionEvent.packet?) (LabelledRuns.run step new events) := by
  have hstep : ∀ (conn : Connection) (e : ConnectionEvent), conn.Carries → e.Fits →
      (conn.step e).Carries := fun _ _ => carries_step
  have hcarries : Carries (LabelledRuns.run step new events) :=
    LabelledRuns.invariant_events hstep carries_new hfits
  have hinOrder := hcarries.inOrder
  rw [sent_run] at hinOrder
  exact hinOrder

/-- Two packets, the second posted while the first is being written and read. -/
def interleaved : List ConnectionEvent :=
  [.sendPacket .login [1, 2], .writer .runPosted, .writer (.transmit 0 9), .read,
    .sendPacket .logout [], .writer .runPosted, .writer (.transmit 0 9), .writer (.writeDone 0),
    .read, .writer (.transmit 0 8), .read, .writer (.writeDone 0), .read]

theorem inOrder_run_interleaved :
    (LabelledRuns.run step new interleaved).reader.delivered =
      [(.login, [1, 2]), (.logout, [])] :=
  (inOrder_run interleaved (by decide)).all (by decide) (by decide) (by decide) rfl

def Pumps (conn : Connection) : Prop := ∃ done, Pumping fullPacket conn.sender done

theorem Pumps.step {conn : Connection} (h : conn.Pumps) (e : ConnectionEvent) :
    (conn.step e).Pumps := by
  obtain ⟨done, hpumping⟩ := h
  cases e with
  | sendPacket packetType body => exact ⟨done, hpumping.post _⟩
  | writer e => exact hpumping.step e
  | read =>
    simp only [Connection.step]
    split <;> exact ⟨done, hpumping⟩
  | readFailed =>
    simp only [Connection.step]
    split <;> exact ⟨done, hpumping⟩

/-- A byte counts thrice until it is written, and twice until it is read. -/
def work (conn : Connection) : ℕ :=
  3 * conn.sender.work fullPacket + conn.reader.remaining conn.sender.wire

theorem work_sendPacket (conn : Connection) (packetType : PacketType) (body : Bytes) :
    (conn.step (.sendPacket packetType body)).work =
      conn.work + 3 * ((fullPacket (packetType, body)).length + 2) := by
  simp only [work, Pump.work, step, Pump.post, List.map_append, List.sum_append, List.map_cons,
    List.map_nil, List.sum_cons, List.sum_nil]
  omega

theorem work_writer {conn : Connection} (h : conn.Pumps) {e : PumpEvent} (he : e.fails = false) :
    conn.step (.writer e) = conn ∨ (conn.step (.writer e)).work < conn.work := by
  obtain ⟨done, hpumping⟩ := h
  rcases hpumping.work_step he with hsame | hless
  · refine Or.inl ?_
    simp only [step, hsame]
  · refine Or.inr ?_
    have hlength := (conn.sender.extends_step fullPacket e).wire.length_le
    have hreader := conn.reader.remaining_le hlength
    simp only [step, work]
    omega

theorem work_read (conn : Connection) :
    conn.step .read = conn ∨ (conn.step .read).work < conn.work := by
  simp only [step]
  split
  · exact Or.inl rfl
  · by_cases hreadable : conn.reader.Readable framing conn.sender.wire
    · refine Or.inr ?_
      have hless := Reader.step_remaining (F := framing) (by decide) hreadable
      simp only [work]
      omega
    · refine Or.inl ?_
      rw [Reader.step_of_not_readable hreadable]

end Connection

end Messenger
