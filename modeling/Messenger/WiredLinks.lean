import Messenger.PendingRequests
import Messenger.Simulations

/-!
One client and the server, joined by two sockets. What network_session.hpp does at the four
ends, bit by bit, comes down to two queues of packets: each link holds the packets that have
been posted and not yet handed to handle_packet, and a read hands over the oldest of them or
nothing. So every run over the sockets is matched by a run over the queues, and the client
takes each RESULT for the answer to the right request however the bytes travel.
-/
namespace Messenger.WiredLinks

open WritePumps FramedStreams NetworkSession ServerSteps ServerSends ClientAsyncHandler
  ClientHandlerQml PendingRequests Simulations

/-- The packet that a read hands to handle_packet. -/
def handed (link : Connection) : Option Packet :=
  ((link.step .read).reader.delivered.drop link.reader.delivered.length).head?

/-- The link works as it should, and `queue` is under way on it. -/
structure Holds (link : Connection) (queue : List Packet) : Prop where
  carries : link.Carries
  sent : link.sender.sent = link.reader.delivered ++ queue

theorem holds_new : Holds Connection.new [] := ⟨Connection.carries_new, rfl⟩

section

variable {link : Connection} {queue : List Packet}

theorem Holds.fits (h : Holds link queue) : ∀ packet ∈ queue, packet.2.length < 2 ^ 32 := by
  intro packet hpacket
  exact h.carries.fits packet (h.sent ▸ List.mem_append_right _ hpacket)

theorem Holds.sendPacket (h : Holds link queue) (packet : Packet)
    (hfits : packet.2.length < 2 ^ 32) :
    Holds (link.step (.sendPacket packet.1 packet.2)) (queue ++ [packet]) where
  carries := Connection.carries_step h.carries hfits
  sent := by
    have hsent : (link.step (.sendPacket packet.1 packet.2)).sender.sent =
        link.sender.sent ++ [packet] := rfl
    rw [hsent, h.sent, List.append_assoc]
    rfl

theorem Holds.writer (h : Holds link queue) (e : PumpEvent) :
    Holds (link.step (.writer e)) queue where
  carries := Connection.carries_step h.carries trivial
  sent := by
    have hsent := Connection.sent_step link (.writer e)
    rw [hsent, h.sent]
    exact List.append_nil _

theorem Holds.readFailed (h : Holds link queue) : Holds (link.step .readFailed) queue where
  carries := Connection.carries_step h.carries trivial
  sent := by
    have hreader : (link.step .readFailed).reader = link.reader := by
      simp only [Connection.step]
      split <;> rfl
    have hsent := Connection.sent_step link .readFailed
    rw [hsent, h.sent, hreader]
    exact List.append_nil _

theorem sent_read (link : Connection) :
    (link.step .read).sender.sent = link.sender.sent :=
  (Connection.sent_step link .read).trans (List.append_nil _)

/-- A read hands over what it reads. -/
theorem delivered_read (link : Connection) :
    (link.step .read).reader.delivered = link.reader.delivered ++ (handed link).toList := by
  have hdelivered : (link.step .read).reader.delivered = link.reader.delivered ∨
      ∃ packet, (link.step .read).reader.delivered = link.reader.delivered ++ [packet] := by
    simp only [Connection.step]
    split
    · exact Or.inl rfl
    · exact link.reader.delivered_step link.sender.wire
  rcases hdelivered with hsame | ⟨packet, hone⟩
  · rw [handed, hsame, List.drop_length, List.head?_nil, Option.toList_none, List.append_nil]
  · rw [handed, hone, List.drop_left, List.head?_cons, Option.toList_some]

/-- A read hands over nothing, or the oldest packet of the queue. -/
theorem Holds.read (h : Holds link queue) :
    (handed link = none ∧ Holds (link.step .read) queue) ∨
      ∃ packet rest, handed link = some packet ∧ queue = packet :: rest ∧
        Holds (link.step .read) rest := by
  have hcarries : (link.step .read).Carries := Connection.carries_step h.carries trivial
  have hsent : (link.step .read).sender.sent = link.reader.delivered ++ queue :=
    (sent_read link).trans h.sent
  have hdelivered := delivered_read link
  cases hhanded : handed link with
  | none =>
    rw [hhanded, Option.toList_none, List.append_nil] at hdelivered
    refine Or.inl ⟨rfl, hcarries, ?_⟩
    rw [hsent, hdelivered]
  | some packet =>
    rw [hhanded, Option.toList_some] at hdelivered
    -- what has been handed over is a prefix of what has been posted
    obtain ⟨rest, hrest⟩ := hcarries.inOrder.calls
    rw [hdelivered, hsent, List.append_assoc] at hrest
    have hqueue : queue = packet :: rest := (List.append_cancel_left hrest).symm
    refine Or.inr ⟨packet, rest, rfl, hqueue, hcarries, ?_⟩
    rw [hsent, hdelivered, hqueue, List.append_assoc, List.singleton_append]

theorem Holds.delivered_eq {link' : Connection} (before : List Packet) {rest : List Packet}
    (h : Holds link (before ++ rest)) (h' : Holds link' rest)
    (hsent : link'.sender.sent = link.sender.sent) :
    link'.reader.delivered = link.reader.delivered ++ before := by
  rw [h.sent, h'.sent, ← List.append_assoc] at hsent
  exact List.append_cancel_right hsent

/-- At rest, an open link has handed over everything. -/
theorem Holds.empty (h : Holds link queue) (hopen : link.sender.closed = false)
    (hposted : link.sender.posted = []) (hwrites : link.sender.writes = [])
    (hwaits : link.Waits) : queue = [] := by
  have hall := h.carries.inOrder.all hopen hposted hwrites hwaits
  have hsent := h.sent
  rw [hall] at hsent
  exact List.self_eq_append_right.mp hsent

end

/-- `uplink` goes from the client to the server, `downlink` back. -/
structure WiredSystem where
  token : Bytes
  client : ClientAsyncHandler
  crashed : Bool
  posting : Option Packet
  uplink : Connection
  world : World
  downlink : Connection

/-- Calls of the interface, what the loops do with the four ends of the two links, and
events of the server but for the packets of this client. -/
inductive WiredEvent where
  | call (c : ClientCall)
  | setToken (t : Bytes)
  | post
  | clientWriter (e : PumpEvent)
  | serverRead
  | serverReadFailed
  | server (e : Event)
  | serverWriter (e : PumpEvent)
  | clientRead
  | clientReadFailed
deriving DecidableEq, Repr

namespace WiredSystem

/-- The client connects to a server in any state. -/
def start (w : World) : WiredSystem :=
  ⟨[], .new, false, none, Connection.new, w.accept, Connection.new⟩

/-- The server moves on; what it sends to `c` is posted to the session's socket. -/
def advance (s : WiredSystem) (c : ConnId) (w : World) : WiredSystem :=
  { s with
    world := w
    downlink := ((w.sent.drop s.world.sent.length).filter (·.conn == c)).foldl
      (fun link p => link.step (.sendPacket p.packetType p.body)) s.downlink }

def step (env : Env) (c : ConnId) (s : WiredSystem) : WiredEvent → WiredSystem
  | .call call =>
    if s.posting.isSome then s
    else
      match packetOf env s.token call with
      | none => { s with token := tokenAfter s.token call }
      | some packet =>
        { s with
          token := tokenAfter s.token call
          posting := some packet
          client :=
            if packet.1 = .logout then s.client else s.client.pushRequest packet.1 }
  | .setToken t => { s with token := t }
  | .post =>
    match s.posting with
    | none => s
    | some packet =>
      { s with
        posting := none
        uplink := s.uplink.step (.sendPacket packet.1 packet.2) }
  | .clientWriter e => { s with uplink := s.uplink.step (.writer e) }
  | .serverRead =>
    if s.world.status = .running ∧ (s.world.sessions c).isSome then
      match handed s.uplink with
      | none => { s with uplink := s.uplink.step .read }
      | some (packetType, body) =>
        { s.advance c (s.world.step env (.packet c packetType body)) with
          uplink := s.uplink.step .read }
    else s
  | .serverReadFailed => { s with uplink := s.uplink.step .readFailed }
  | .server e => if comesFrom c e then s else s.advance c (s.world.step env e)
  | .serverWriter e => { s with downlink := s.downlink.step (.writer e) }
  | .clientRead =>
    if s.crashed then s
    else
      match handed s.downlink with
      | none => { s with downlink := s.downlink.step .read }
      | some (packetType, body) =>
        match (ClientAsyncHandler.handlePacket packetType body).run s.client with
        | .ok _ client => { s with client := client, downlink := s.downlink.step .read }
        | .error _ client =>
          { s with client := client, downlink := s.downlink.step .read, crashed := true }
  | .clientReadFailed => { s with downlink := s.downlink.step .readFailed }

/-- The server has not terminated, and lengths on both links fit their words. -/
def Undisturbed (s : WiredSystem) : Prop :=
  s.world.status ≠ .terminated ∧ (∀ p ∈ s.uplink.sender.sent, p.2.length < 2 ^ 32) ∧
    ∀ p ∈ s.downlink.sender.sent, p.2.length < 2 ^ 32

instance (s : WiredSystem) : Decidable s.Undisturbed :=
  inferInstanceAs (Decidable (_ ∧ _ ∧ _))

end WiredSystem

def packetOfSent (p : Sent) : Packet := (p.packetType, p.body)

/-- The system over sockets is where the system over queues is. -/
structure StandsFor (s : WiredSystem) (t : System) : Prop where
  token : t.token = s.token
  client : t.client = s.client
  crashed : t.crashed = s.crashed
  posting : t.posting = s.posting
  world : t.world = s.world
  uplink : Holds s.uplink t.toServer
  downlink : Holds s.downlink (t.toClient.map packetOfSent)

/-- What an event over sockets is over queues: only a read that hands over a packet is
seen of what happens to the links. -/
def shown (c : ConnId) (s : WiredSystem) : WiredEvent → List SystemEvent
  | .call call => [.call call]
  | .setToken t => [.setToken t]
  | .post => [.post]
  | .serverRead =>
    if s.world.status = .running ∧ (s.world.sessions c).isSome ∧ (handed s.uplink).isSome then
      [.serve]
    else []
  | .server e => [.server e]
  | .clientRead => if (handed s.downlink).isSome ∧ s.crashed = false then [.receive] else []
  | _ => []

section

variable {s : WiredSystem} {t : System} {c : ConnId}

theorem posts_sent (link : Connection) (new : List Sent) :
    (new.foldl (fun link p => link.step (.sendPacket p.packetType p.body)) link).sender.sent =
      link.sender.sent ++ new.map packetOfSent := by
  induction new generalizing link with
  | nil => exact (List.append_nil _).symm
  | cons p rest ih =>
    have hfirst : (link.step (.sendPacket p.packetType p.body)).sender.sent =
        link.sender.sent ++ [packetOfSent p] := rfl
    rw [List.foldl_cons, ih, hfirst, List.append_assoc, List.map_cons, List.singleton_append]

theorem Holds.posts {link : Connection} {queue : List Packet} (h : Holds link queue)
    {new : List Sent} (hfits : ∀ p ∈ new, p.body.length < 2 ^ 32) :
    Holds (new.foldl (fun link p => link.step (.sendPacket p.packetType p.body)) link)
      (queue ++ new.map packetOfSent) := by
  induction new generalizing link queue with
  | nil =>
    rw [List.map_nil, List.append_nil]
    exact h
  | cons p rest ih =>
    obtain ⟨hp, hrest⟩ := List.forall_mem_cons.mp hfits
    have hnext := ih (h.sendPacket (packetOfSent p) hp) hrest
    rw [List.append_assoc, List.singleton_append] at hnext
    exact hnext

theorem StandsFor.advance (h : StandsFor s t) {w : World}
    (hfits : ∀ p ∈ (s.advance c w).downlink.sender.sent, p.2.length < 2 ^ 32) :
    StandsFor (s.advance c w) (t.advance c w) where
  token := h.token
  client := h.client
  crashed := h.crashed
  posting := h.posting
  world := rfl
  uplink := h.uplink
  downlink := by
    rw [WiredSystem.advance, posts_sent] at hfits
    change Holds (List.foldl _ _ _) (List.map packetOfSent (t.toClient ++ _))
    rw [h.world, List.map_append]
    refine h.downlink.posts fun p hp => ?_
    exact hfits (packetOfSent p) (List.mem_append_right _ (List.mem_map_of_mem hp))

theorem StandsFor.call (h : StandsFor s t) (env : Env) (call : ClientCall) :
    StandsFor (s.step env c (.call call)) (t.step env c (.call call)) := by
  by_cases hposting : s.posting.isSome
  · simp only [WiredSystem.step, System.step, h.posting, if_pos hposting]
    exact h
  · cases hpacket : packetOf env s.token call with
    | none =>
      simp only [WiredSystem.step, System.step, h.posting, h.token, if_neg hposting, hpacket]
      exact ⟨rfl, h.client, h.crashed, rfl, h.world, h.uplink, h.downlink⟩
    | some packet =>
      simp only [WiredSystem.step, System.step, h.posting, h.token, if_neg hposting, hpacket,
        h.client]
      exact ⟨rfl, rfl, h.crashed, rfl, h.world, h.uplink, h.downlink⟩

theorem StandsFor.post (h : StandsFor s t) (env : Env)
    (hup : (s.step env c .post).Undisturbed) :
    StandsFor (s.step env c .post) (t.step env c .post) := by
  simp only [WiredSystem.step, System.step, h.posting] at hup ⊢
  cases hposting : s.posting with
  | none =>
    simp only [Option.toList_none, List.append_nil]
    exact ⟨h.token, h.client, h.crashed, hposting.symm, h.world, h.uplink, h.downlink⟩
  | some packet =>
    simp only [hposting] at hup
    have hfits : packet.2.length < 2 ^ 32 :=
      hup.2.1 packet (List.mem_append_right _ (List.mem_singleton_self packet))
    exact ⟨h.token, h.client, h.crashed, rfl, h.world, h.uplink.sendPacket _ hfits, h.downlink⟩

/-- A request that is read off the socket is the oldest of the queue. -/
theorem StandsFor.serverRead (h : StandsFor s t) (env : Env)
    (hup : (s.step env c .serverRead).Undisturbed) :
    StandsFor (s.step env c .serverRead)
      (LabelledRuns.run (System.step env c) t (shown c s .serverRead)) := by
  by_cases hready : s.world.status = .running ∧ (s.world.sessions c).isSome
  · rcases h.uplink.read with ⟨hnone, hstill⟩ | ⟨⟨packetType, body⟩, rest, hsome, hqueue, hrest⟩
    · simp only [WiredSystem.step, if_pos hready, hnone, shown, Option.isSome_none,
        Bool.false_eq_true, and_false, if_false, LabelledRuns.run_nil]
      exact ⟨h.token, h.client, h.crashed, h.posting, h.world, hstill, h.downlink⟩
    · simp only [WiredSystem.step, if_pos hready, hsome] at hup ⊢
      simp only [shown, hsome, Option.isSome_some, and_true, if_pos hready,
        LabelledRuns.run_cons, LabelledRuns.run_nil, System.step, hqueue, h.world]
      have hadvance := h.advance (c := c) (w := s.world.step env (.packet c packetType body))
        hup.2.2
      exact ⟨hadvance.token, hadvance.client, hadvance.crashed, hadvance.posting, hadvance.world,
        hrest, hadvance.downlink⟩
  · have hnone : ¬ (s.world.status = .running ∧ (s.world.sessions c).isSome = true ∧
        (handed s.uplink).isSome = true) := fun hall => hready ⟨hall.1, hall.2.1⟩
    simp only [WiredSystem.step, if_neg hready, shown, if_neg hnone, LabelledRuns.run_nil]
    exact h

theorem StandsFor.clientRead (h : StandsFor s t) (env : Env) :
    StandsFor (s.step env c .clientRead)
      (LabelledRuns.run (System.step env c) t (shown c s .clientRead)) := by
  cases hcrashed : s.crashed with
  | true =>
    simp only [WiredSystem.step, hcrashed, if_true, shown, Bool.true_eq_false, and_false, if_false,
      LabelledRuns.run_nil]
    exact h
  | false =>
    rcases h.downlink.read with ⟨hnone, hstill⟩ | ⟨packet, rest, hsome, hqueue, hrest⟩
    · simp only [WiredSystem.step, hcrashed, Bool.false_eq_true, if_false, hnone, shown,
        Option.isSome_none, false_and, LabelledRuns.run_nil]
      exact ⟨h.token, h.client, h.crashed.trans hcrashed, h.posting, h.world, h.uplink, hstill⟩
    · obtain ⟨p, sents, hclient, rfl, rfl⟩ := List.map_eq_cons_iff.mp hqueue
      simp only [WiredSystem.step, hcrashed, Bool.false_eq_true, if_false, hsome, shown,
        Option.isSome_some, true_and, if_true, LabelledRuns.run_cons, LabelledRuns.run_nil,
        System.step, hclient, h.crashed, h.client, packetOfSent]
      cases (ClientAsyncHandler.handlePacket p.packetType p.body).run s.client with
      | ok u client =>
        exact ⟨h.token, rfl, rfl, h.posting, h.world, h.uplink, hrest⟩
      | error e client =>
        exact ⟨h.token, rfl, rfl, h.posting, h.world, h.uplink, hrest⟩

end

/-- Over sockets nothing happens that does not happen over queues. -/
theorem simulates (env : Env) (c : ConnId) :
    Simulates (WiredSystem.step env c) (System.step env c) (shown c)
      (fun s e => (s.step env c e).Undisturbed) StandsFor := by
  intro s e t h hup
  cases e with
  | call call => exact h.call env call
  | setToken token =>
    exact ⟨rfl, h.client, h.crashed, h.posting, h.world, h.uplink, h.downlink⟩
  | post => exact h.post env hup
  | clientWriter e =>
    exact ⟨h.token, h.client, h.crashed, h.posting, h.world, h.uplink.writer e, h.downlink⟩
  | serverRead => exact h.serverRead env hup
  | serverReadFailed =>
    exact ⟨h.token, h.client, h.crashed, h.posting, h.world, h.uplink.readFailed, h.downlink⟩
  | server e =>
    simp only [WiredSystem.step, shown, LabelledRuns.run_cons, LabelledRuns.run_nil,
      System.step] at hup ⊢
    split
    · exact h
    · rename_i hother
      rw [if_neg hother] at hup
      rw [h.world]
      exact h.advance hup.2.2
  | serverWriter e =>
    exact ⟨h.token, h.client, h.crashed, h.posting, h.world, h.uplink, h.downlink.writer e⟩
  | clientRead => exact h.clientRead env
  | clientReadFailed =>
    exact ⟨h.token, h.client, h.crashed, h.posting, h.world, h.uplink, h.downlink.readFailed⟩

/-- Each request that has been handed over has had its RESULT, and what has been sent and
is not under way has been handed to the client. -/
structure Accounted (w : World) (s : WiredSystem) (t : System) : Prop where
  answered : (sentSince w w.nextConn s.world).filterMap resultRequest =
    s.uplink.reader.delivered.filterMap awaits
  received : ∃ received, sentSince w w.nextConn s.world = received ++ t.toClient ∧
    s.downlink.reader.delivered = received.map packetOfSent

/-- The sockets stand for queues on which the exchange is in order. -/
structure Exchanged (w : World) (s : WiredSystem) (t : System) : Prop where
  stands : StandsFor s t
  exchanging : Exchanging w t
  accounted : Accounted w s t

section

variable {w : World} {s : WiredSystem} {t : System}

theorem exchanged_start (w : World) : Exchanged w (.start w) (.start w) where
  stands := ⟨rfl, rfl, rfl, rfl, rfl, holds_new, holds_new⟩
  exchanging := exchanging_start w
  accounted := by
    have hnone : sentSince w w.nextConn w.accept = [] := by
      rw [sentSince, World.accept, List.drop_length, List.filter_nil]
    refine ⟨?_, [], hnone, rfl⟩
    change (sentSince w w.nextConn w.accept).filterMap resultRequest = []
    rw [hnone, List.filterMap_nil]

theorem sentSince_append {w' : World} {c : ConnId} {new : List Sent}
    (hle : w.sent.length ≤ s.world.sent.length) (hsent : w'.sent = s.world.sent ++ new) :
    sentSince w c w' = sentSince w c s.world ++ new.filter (·.conn == c) := by
  rw [sentSince, hsent, List.drop_append_of_le_length hle, List.filter_append, sentSince]

/-- What fits the sockets fits the queues. -/
theorem StandsFor.undisturbed (h : StandsFor s t) (hup : s.Undisturbed) : t.Undisturbed := by
  refine ⟨h.world ▸ hup.1, fun p hp => ?_⟩
  exact h.downlink.fits (packetOfSent p) (List.mem_map_of_mem hp)

theorem shown_short (c : ConnId) (s : WiredSystem) (e : WiredEvent) :
    shown c s e = [] ∨ ∃ d, shown c s e = [d] := by
  cases e with
  | clientWriter _ | serverReadFailed | serverWriter _ | clientReadFailed => exact Or.inl rfl
  | call _ | setToken _ | post | server _ => exact Or.inr ⟨_, rfl⟩
  | serverRead | clientRead =>
    simp only [shown]
    split
    · exact Or.inr ⟨_, rfl⟩
    · exact Or.inl rfl

theorem Exchanged.exchanging_step (h : Exchanged w s t) (env : Env) (e : WiredEvent)
    (hup : (s.step env w.nextConn e).Undisturbed) :
    Exchanging w (LabelledRuns.run (System.step env w.nextConn) t (shown w.nextConn s e)) := by
  have hstands := simulates env w.nextConn s e t h.stands hup
  have hupper := hstands.undisturbed hup
  rcases shown_short w.nextConn s e with hnone | ⟨d, hone⟩
  · rw [hnone]
    exact h.exchanging
  · rw [hone] at hupper ⊢
    exact h.exchanging.step env d hupper

/-- An event that changes neither the world nor what has been handed over. -/
theorem Accounted.of_eq {s' : WiredSystem} {t' : System} (h : Accounted w s t)
    (hworld : s'.world = s.world)
    (huplink : s'.uplink.reader.delivered = s.uplink.reader.delivered)
    (hdownlink : s'.downlink.reader.delivered = s.downlink.reader.delivered)
    (htoClient : t'.toClient = t.toClient) : Accounted w s' t' where
  answered := by
    rw [hworld, huplink]
    exact h.answered
  received := by
    rw [hworld, hdownlink, htoClient]
    exact h.received

/-- The server moves on, and has taken the packets `taken`. -/
theorem Exchanged.advance (h : Exchanged w s t) {w' : World} {new : List Sent}
    {taken : List Packet} {s' : WiredSystem} {t' : System}
    (hsent : w'.sent = s.world.sent ++ new)
    (hnew : (new.filter (·.conn == w.nextConn)).filterMap resultRequest = taken.filterMap awaits)
    (hworld : s'.world = w')
    (huplink : s'.uplink.reader.delivered = s.uplink.reader.delivered ++ taken)
    (hdownlink : s'.downlink.reader.delivered = s.downlink.reader.delivered)
    (htoClient : t'.toClient = (t.advance w.nextConn w').toClient) : Accounted w s' t' := by
  have hle := h.exchanging.sent
  rw [h.stands.world] at hle
  have hsince := sentSince_append (c := w.nextConn) hle hsent
  obtain ⟨received, hreceived, hdelivered⟩ := h.accounted.received
  constructor
  · rw [hworld, huplink, hsince, List.filterMap_append, List.filterMap_append, hnew,
      h.accounted.answered]
  · refine ⟨received, ?_, hdownlink.trans hdelivered⟩
    rw [← h.stands.world] at hsent
    rw [hworld, hsince, hreceived, htoClient, toClient_advance hsent, List.append_assoc]

theorem reader_posts (link : Connection) (new : List Sent) :
    (new.foldl (fun link p => link.step (.sendPacket p.packetType p.body)) link).reader =
      link.reader := by
  induction new generalizing link with
  | nil => rfl
  | cons p rest ih => exact ih (link.step (.sendPacket p.packetType p.body))

theorem Exchanged.accounted_serverRead (h : Exchanged w s t) (env : Env)
    (hup : (s.step env w.nextConn .serverRead).Undisturbed) :
    Accounted w (s.step env w.nextConn .serverRead)
      (LabelledRuns.run (System.step env w.nextConn) t (shown w.nextConn s .serverRead)) := by
  by_cases hready : s.world.status = .running ∧ (s.world.sessions w.nextConn).isSome
  · rcases h.stands.uplink.read with
      ⟨hnone, hstill⟩ | ⟨⟨packetType, body⟩, rest, hsome, hqueue, hrest⟩
    · simp only [WiredSystem.step, if_pos hready, hnone, shown, Option.isSome_none,
        Bool.false_eq_true, and_false, if_false, LabelledRuns.run_nil]
      have hsame := Holds.delivered_eq [] h.stands.uplink hstill (sent_read _)
      rw [List.append_nil] at hsame
      exact h.accounted.of_eq rfl hsame rfl rfl
    · have huplink := h.stands.uplink
      rw [hqueue] at huplink
      have hone := Holds.delivered_eq [(packetType, body)] huplink hrest (sent_read _)
      have hreceive : s.world.step env (.packet w.nextConn packetType body) =
          s.world.receive env w.nextConn packetType body := by
        simp only [World.step, if_pos hready]
      simp only [WiredSystem.step, if_pos hready, hsome, hreceive] at hup
      obtain ⟨pushes, answer, hsent, hpushes, hanswer⟩ :=
        receive_sends env packetType body hready.2 hup.1
      have hasked := h.exchanging.asked (packetType, body)
        (List.mem_append_left _ (hqueue ▸ List.mem_cons_self))
      have hnew : ((pushes ++ answer).filter (·.conn == w.nextConn)).filterMap resultRequest =
          [(packetType, body)].filterMap awaits := by
        rw [List.filter_append, List.filterMap_append,
          filterMap_pushes (fun p hp => hpushes p (List.mem_of_mem_filter hp)), List.nil_append,
          filterMap_answer body hanswer hasked]
        rfl
      simp only [WiredSystem.step, shown, hsome, Option.isSome_some, and_true, if_pos hready,
        LabelledRuns.run_cons, LabelledRuns.run_nil, System.step, hqueue, h.stands.world,
        hreceive]
      exact h.advance hsent hnew rfl hone (congrArg _ (reader_posts _ _)) rfl
  · have hnone : ¬ (s.world.status = .running ∧ (s.world.sessions w.nextConn).isSome = true ∧
        (handed s.uplink).isSome = true) := fun hall => hready ⟨hall.1, hall.2.1⟩
    simp only [WiredSystem.step, if_neg hready, shown, if_neg hnone, LabelledRuns.run_nil]
    exact h.accounted

theorem Exchanged.accounted_server (h : Exchanged w s t) (env : Env) (e : Event)
    (hup : (s.step env w.nextConn (.server e)).Undisturbed) :
    Accounted w (s.step env w.nextConn (.server e)) (t.step env w.nextConn (.server e)) := by
  simp only [WiredSystem.step, System.step] at hup ⊢
  by_cases hfrom : comesFrom w.nextConn e = true
  · rw [if_pos hfrom, if_pos hfrom]
    exact h.accounted
  · rw [if_neg hfrom] at hup
    have hother : ∀ packetType body, e ≠ .packet w.nextConn packetType body := by
      rintro packetType body rfl
      exact hfrom (beq_self_eq_true w.nextConn)
    obtain ⟨new, hsent, hpushes⟩ := step_pushes env hother hup.1
    have hnew : (new.filter (·.conn == w.nextConn)).filterMap resultRequest =
        ([] : List Packet).filterMap awaits :=
      filterMap_pushes fun p hp =>
        hpushes p (List.mem_of_mem_filter hp) (eq_of_beq (List.mem_filter.mp hp).2)
    rw [if_neg hfrom, if_neg hfrom, h.stands.world]
    exact h.advance hsent hnew rfl (List.append_nil _).symm
      (congrArg _ (reader_posts _ _)) rfl

/-- The packet that the client is handed is the oldest under way. -/
theorem Exchanged.accounted_clientRead (h : Exchanged w s t) (env : Env) :
    Accounted w (s.step env w.nextConn .clientRead)
      (LabelledRuns.run (System.step env w.nextConn) t (shown w.nextConn s .clientRead)) := by
  have hcrashed : s.crashed = false := h.stands.crashed.symm.trans h.exchanging.alive
  rcases h.stands.downlink.read with ⟨hnone, hstill⟩ | ⟨packet, rest, hsome, hqueue, hrest⟩
  · simp only [WiredSystem.step, hcrashed, Bool.false_eq_true, if_false, hnone, shown,
      Option.isSome_none, false_and, LabelledRuns.run_nil]
    have hsame := Holds.delivered_eq [] h.stands.downlink hstill (sent_read _)
    rw [List.append_nil] at hsame
    exact h.accounted.of_eq rfl rfl hsame rfl
  · have hdownlink := h.stands.downlink
    rw [hqueue] at hdownlink
    have hone := Holds.delivered_eq [packet] hdownlink hrest (sent_read _)
    obtain ⟨p, sents, hclient, rfl, rfl⟩ := List.map_eq_cons_iff.mp hqueue
    obtain ⟨received, hreceived, hdelivered⟩ := h.accounted.received
    obtain ⟨pending, messages, callbacks, hrun, -, -⟩ := h.exchanging.next hclient
    rw [h.stands.client] at hrun
    simp only [WiredSystem.step, hcrashed, Bool.false_eq_true, if_false, hsome, shown,
      Option.isSome_some, true_and, if_true, LabelledRuns.run_cons, LabelledRuns.run_nil,
      System.step, hclient, h.stands.crashed, h.stands.client, packetOfSent, hrun]
    refine ⟨h.accounted.answered, received ++ [p], ?_, ?_⟩
    · rw [hclient] at hreceived
      exact hreceived.trans (List.append_cons _ _ _)
    · rw [List.map_append, ← hdelivered]
      exact hone

theorem simulates_exchanged (env : Env) (w : World) :
    Simulates (WiredSystem.step env w.nextConn) (System.step env w.nextConn) (shown w.nextConn)
      (fun s e => (s.step env w.nextConn e).Undisturbed) (Exchanged w) := by
  intro s e t h hup
  refine ⟨simulates env w.nextConn s e t h.stands hup, h.exchanging_step env e hup, ?_⟩
  cases e with
  | call call =>
    simp only [WiredSystem.step, shown, LabelledRuns.run_cons, LabelledRuns.run_nil, System.step]
    refine h.accounted.of_eq ?_ ?_ ?_ ?_ <;> split <;> first
      | rfl
      | (split <;> rfl)
  | setToken token => exact h.accounted.of_eq rfl rfl rfl rfl
  | post =>
    simp only [WiredSystem.step]
    split <;> exact h.accounted.of_eq rfl rfl rfl rfl
  | clientWriter e => exact h.accounted.of_eq rfl rfl rfl rfl
  | serverRead => exact h.accounted_serverRead env hup
  | serverReadFailed =>
    refine h.accounted.of_eq rfl ?_ rfl rfl
    simp only [WiredSystem.step, Connection.step]
    split <;> rfl
  | server e => exact h.accounted_server env e hup
  | serverWriter e => exact h.accounted.of_eq rfl rfl rfl rfl
  | clientRead => exact h.accounted_clientRead env
  | clientReadFailed =>
    refine h.accounted.of_eq rfl rfl ?_ rfl
    simp only [WiredSystem.step, Connection.step]
    split <;> rfl

end

/-- An open link on which nothing is left to write or to read. -/
structure AtRest (link : Connection) : Prop where
  isOpen : link.sender.closed = false
  posted : link.sender.posted = []
  writes : link.sender.writes = []
  waits : link.Waits

/-- The server has answered the first of the requests that were posted, each in its turn;
`received` has reached the client, which has decoded each RESULT in it to the value that
was sent and still waits for the others. -/
structure AnsweredInOrder (w : World) (s : WiredSystem) : Prop where
  alive : s.crashed = false
  taken : s.uplink.reader.delivered <+: s.uplink.sender.sent
  answered : (sentSince w w.nextConn s.world).filterMap resultRequest =
    s.uplink.reader.delivered.filterMap awaits
  received : ∃ received, received <+: sentSince w w.nextConn s.world ∧
    s.downlink.reader.delivered = received.map packetOfSent ∧
    s.client.callbacks.filter isAnswer = received.filterMap resultCallback ∧
    s.client.pendingRequests =
      ((s.uplink.sender.sent ++ s.posting.toList).filterMap awaits).drop
        (received.filterMap resultRequest).length
  atRest : AtRest s.uplink → AtRest s.downlink → s.posting = none →
    s.uplink.reader.delivered = s.uplink.sender.sent ∧
      s.downlink.reader.delivered = (sentSince w w.nextConn s.world).map packetOfSent ∧
      s.client.callbacks.filter isAnswer =
        (sentSince w w.nextConn s.world).filterMap resultCallback ∧
      s.client.pendingRequests = []

theorem Exchanged.answeredInOrder {w : World} {s : WiredSystem} {t : System}
    (h : Exchanged w s t) : AnsweredInOrder w s := by
  obtain ⟨received, hsince, hdelivered⟩ := h.accounted.received
  have hsent := h.stands.uplink.sent
  have hvalues : s.client.callbacks.filter isAnswer = received.filterMap resultCallback := by
    have hall := h.exchanging.values
    rw [h.stands.client, h.stands.world, hsince, List.filterMap_append] at hall
    exact List.append_cancel_right hall
  -- the requests whose RESULTs have been received, under way, and not yet sent
  have hpending : s.client.pendingRequests = t.toClient.filterMap resultRequest ++
      (t.toServer ++ s.posting.toList).filterMap awaits := by
    have hinStep := h.exchanging.inStep
    rw [h.stands.client, h.stands.posting] at hinStep
    exact hinStep
  have hasked : (s.uplink.sender.sent ++ s.posting.toList).filterMap awaits =
      received.filterMap resultRequest ++ s.client.pendingRequests := by
    rw [hsent, List.append_assoc, List.filterMap_append, ← h.accounted.answered, hsince,
      List.filterMap_append, List.append_assoc, hpending]
  refine ⟨h.stands.crashed.symm.trans h.exchanging.alive, ⟨_, hsent.symm⟩,
    h.accounted.answered, ⟨received, ⟨_, hsince.symm⟩, hdelivered, hvalues, ?_⟩, ?_⟩
  · rw [hasked, List.drop_left]
  · intro hup hdown hposting
    have htoServer := h.stands.uplink.empty hup.isOpen hup.posted hup.writes hup.waits
    have htoClient : t.toClient = [] := List.map_eq_nil_iff.mp
      (h.stands.downlink.empty hdown.isOpen hdown.posted hdown.writes hdown.waits)
    rw [htoServer, List.append_nil] at hsent
    rw [htoClient, List.append_nil] at hsince
    rw [htoServer, htoClient, hposting] at hpending
    exact ⟨hsent.symm, hsince ▸ hdelivered, hsince ▸ hvalues, hpending⟩

/-- For every schedule of calls, writes, reads and failures at the four ends, and of what
else happens to the server. -/
theorem answeredInOrder_run (env : Env) (w : World) (events : List WiredEvent)
    (hundisturbed : LabelledRuns.Along (WiredSystem.step env w.nextConn)
      (fun s e => (s.step env w.nextConn e).Undisturbed) (.start w) events) :
    AnsweredInOrder w (LabelledRuns.run (WiredSystem.step env w.nextConn) (.start w) events) := by
  have hexchanged := (simulates_exchanged env w).run (exchanged_start w) hundisturbed
  exact hexchanged.answeredInOrder

/-- "c" registers, asks for its friends while the server is still writing the RESULT, and
"a" writes to the general chat in between. -/
def inPieces : List WiredEvent :=
  [.call (.registerUser [99] [112]), .post, .clientWriter .runPosted,
    .clientWriter (.transmit 0 9), .serverRead, .clientWriter (.transmit 0 99), .serverRead,
    .serverWriter .runPosted, .serverWriter (.transmit 0 5), .clientRead,
    .setToken [97, 97, 97, 97], .call .getFriendList, .post,
    .server (.packet 0 .message (serialize (ChatSendRequest.mk [97, 97] [104]))),
    .serverWriter (.transmit 0 99), .clientRead, .clientRead, .serverWriter (.writeDone 0)]

theorem answeredInOrder_run_inPieces :
    (LabelledRuns.run (WiredSystem.step Env.plain generalChat.nextConn) (.start generalChat)
      inPieces).client.pendingRequests = [.friendList] ∧
    AnsweredInOrder generalChat (LabelledRuns.run
      (WiredSystem.step Env.plain generalChat.nextConn) (.start generalChat) inPieces) :=
  ⟨by decide, answeredInOrder_run Env.plain generalChat inPieces (by decide)⟩

end Messenger.WiredLinks
