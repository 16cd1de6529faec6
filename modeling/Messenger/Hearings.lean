import Messenger.WiredLinks

/-!
What the interface hears. The client makes one call for each packet that the server sent to
it, answers and pushes alike, in the order in which they were sent and with the values that
were sent; only the RESULTs of MESSAGE, DIRECT_MESSAGE and of files make none.
-/
namespace Messenger.Hearings

open ServerSteps ServerSends NetworkSession ClientAsyncHandler PendingRequests WiredLinks
  Simulations

/-- The call for a push, by its type and the value in its body. -/
def pushCallback (packetType : PacketType) (body : Bytes) : Option Callback :=
  match packetType with
  | .message => (deserialize ChatIncoming body).toOption.map .onChatIncoming
  | .directMessage => (deserialize DirectMessageIncoming body).toOption.map .onDmIncoming
  | .friendNewRequest | .friendRequestAccepted | .friendRequestRejected => some .onFriendNewRequest
  | _ => none

/-- The call for a packet of the server. -/
def calledFor (p : Sent) : Option Callback :=
  match p.cause with
  | .result _ r => callbackOf r
  | _ => pushCallback p.packetType p.body

theorem calledFor_push {p : Sent} (h : answeredRequest p = none) :
    calledFor p = pushCallback p.packetType p.body := by
  unfold answeredRequest at h
  unfold calledFor
  split
  · rename_i request r hcause
    rw [hcause] at h
    cases h
  · rfl

/-- A push makes one call, with the value in it. -/
theorem handlePacket_pushed {p : Sent} (h : IsPush p) (hlen : p.body.length < 2 ^ 32)
    (client : ClientAsyncHandler) :
    ∃ messages, (handlePacket p.packetType p.body).run client =
      .ok () ⟨client.pendingRequests, messages, client.callbacks ++ (calledFor p).toList⟩ := by
  have hcall : ∀ callback, ∃ messages, (do call callback; pushLine : ClientM Unit).run client =
      .ok () ⟨client.pendingRequests, messages, client.callbacks ++ [callback]⟩ :=
    fun callback => pushLine_run { client with callbacks := client.callbacks ++ [callback] }
  rw [calledFor_push h.cause]
  rcases h.packet with hrelays | ⟨htype, msg, hbody⟩
  · generalize p.packetType = packetType at hrelays
    generalize p.body = body at hrelays hlen
    cases hrelays with
    | message msg =>
      obtain ⟨messages, hrun⟩ := hcall (.onChatIncoming msg)
      refine ⟨messages, ?_⟩
      simp only [handlePacket, handleType, decodeAs_serialize hlen, pure_bind, pushCallback,
        deserialize_serialize_of_length hlen]
      exact hrun
    | newRequest | accepted | rejected => exact hcall .onFriendNewRequest
  · rw [hbody] at hlen
    obtain ⟨messages, hrun⟩ := hcall (.onDmIncoming msg)
    refine ⟨messages, ?_⟩
    rw [htype, hbody]
    simp only [handlePacket, handleType, decodeAs_serialize hlen, pure_bind, pushCallback,
      deserialize_serialize_of_length hlen]
    exact hrun

/-- What has been called for, and what will be for the packets under way, is what was
sent. -/
def Hearing (w : World) (t : System) : Prop :=
  t.client.callbacks ++ t.toClient.filterMap calledFor =
    (sentSince w w.nextConn t.world).filterMap calledFor

section

variable {w : World} {t : System}

theorem hearing_start (w : World) : Hearing w (.start w) := by
  have hnone : sentSince w w.nextConn w.accept = [] := by
    rw [sentSince, World.accept, List.drop_length, List.filter_nil]
  change [] = (sentSince w w.nextConn w.accept).filterMap calledFor
  rw [hnone, List.filterMap_nil]

theorem hearing_advance (hle : w.sent.length ≤ t.world.sent.length) (h : Hearing w t)
    {w' : World} {new : List Sent} (hsent : w'.sent = t.world.sent ++ new) :
    Hearing w (t.advance w.nextConn w') := by
  have hsince : sentSince w w.nextConn w' =
      sentSince w w.nextConn t.world ++ new.filter (·.conn == w.nextConn) := by
    rw [sentSince, hsent, List.drop_append_of_le_length hle, List.filter_append, sentSince]
  unfold Hearing at h ⊢
  change t.client.callbacks ++ _ = (sentSince w w.nextConn w').filterMap calledFor
  rw [toClient_advance hsent, hsince, List.filterMap_append, List.filterMap_append, ← h,
    List.append_assoc]

/-- How the client handles the next packet. -/
theorem hearing_next (h : Exchanging w t) {p : Sent} {rest : List Sent}
    (hqueue : t.toClient = p :: rest) :
    ∃ pending messages, (handlePacket p.packetType p.body).run t.client =
      .ok () ⟨pending, messages, t.client.callbacks ++ (calledFor p).toList⟩ := by
  have hmem : p ∈ t.toClient := hqueue ▸ List.mem_cons_self
  cases h.carried p hmem with
  | push hpush =>
    obtain ⟨messages, hrun⟩ := handlePacket_pushed hpush (h.fits p hmem) t.client
    exact ⟨_, messages, hrun⟩
  | result request r htype hbody hcause hfits =>
    obtain ⟨pending, messages, -, -, hrun⟩ := h.nextResult hqueue htype hbody hcause hfits
    refine ⟨pending, messages, ?_⟩
    simp only [calledFor, hcause]
    exact hrun

theorem hearing_step (env : Env) (e : SystemEvent) (hexchanging : Exchanging w t)
    (h : Hearing w t) (hup : (t.step env w.nextConn e).Undisturbed) :
    Hearing w (t.step env w.nextConn e) := by
  cases e with
  | call c =>
    simp only [System.step]
    split
    · exact h
    · split
      · exact h
      · rename_i packet _
        have hcallbacks : (if packet.1 = .logout then t.client
            else t.client.pushRequest packet.1).callbacks = t.client.callbacks := by
          split <;> rfl
        change (if packet.1 = .logout then t.client
          else t.client.pushRequest packet.1).callbacks ++ _ = _
        rw [hcallbacks]
        exact h
  | setToken _ => exact h
  | post => exact h
  | serve =>
    simp only [System.step] at hup ⊢
    split
    · exact h
    · rename_i packetType body rest hqueue
      rw [hqueue] at hup
      simp only at hup
      split
      · rename_i hready
        rw [if_pos hready] at hup
        have hreceive : t.world.step env (.packet w.nextConn packetType body) =
            t.world.receive env w.nextConn packetType body := by
          simp only [World.step, if_pos hready]
        rw [hreceive] at hup ⊢
        obtain ⟨pushes, answer, hsent, -, -⟩ :=
          receive_sends env packetType body hready.2 hup.1
        exact hearing_advance hexchanging.sent h hsent
      · exact h
  | server e =>
    simp only [System.step] at hup ⊢
    split
    · exact h
    · rename_i hother
      rw [if_neg hother] at hup
      have hne : ∀ packetType body, e ≠ .packet w.nextConn packetType body := by
        rintro packetType body rfl
        exact hother (beq_self_eq_true w.nextConn)
      obtain ⟨new, hsent, -⟩ := step_pushes env hne hup.1
      exact hearing_advance hexchanging.sent h hsent
  | receive =>
    have halive : ¬ t.crashed = true := by
      rw [hexchanging.alive]
      exact Bool.false_ne_true
    simp only [System.step, if_neg halive]
    cases hqueue : t.toClient with
    | nil => exact h
    | cons p rest =>
      obtain ⟨pending, messages, hrun⟩ := hearing_next hexchanging hqueue
      have hfirst : (p :: rest).filterMap calledFor =
          (calledFor p).toList ++ rest.filterMap calledFor := by
        cases hp : calledFor p <;> simp [hp]
      unfold Hearing at h
      rw [hqueue, hfirst, ← List.append_assoc] at h
      simp only [hrun]
      exact h

end

/-- `received` has reached the client, which has made one call for each packet in it. -/
structure Hears (w : World) (s : WiredSystem) : Prop where
  received : ∃ received, received <+: sentSince w w.nextConn s.world ∧
    s.downlink.reader.delivered = received.map packetOfSent ∧
    s.client.callbacks = received.filterMap calledFor
  atRest : AtRest s.downlink →
    s.client.callbacks = (sentSince w w.nextConn s.world).filterMap calledFor

/-- The sockets stand for queues on which the exchange is in order and nothing is lost. -/
structure Heard (w : World) (s : WiredSystem) (t : System) : Prop where
  exchanged : Exchanged w s t
  hearing : Hearing w t

theorem simulates_heard (env : Env) (w : World) :
    Simulates (WiredSystem.step env w.nextConn) (System.step env w.nextConn) (shown w.nextConn)
      (fun s e => (s.step env w.nextConn e).Undisturbed) (Heard w) := by
  intro s e t h hup
  have hexchanged := simulates_exchanged env w s e t h.exchanged hup
  refine ⟨hexchanged, ?_⟩
  have hupper := hexchanged.stands.undisturbed hup
  rcases shown_short w.nextConn s e with hnone | ⟨d, hone⟩
  · rw [hnone]
    exact h.hearing
  · rw [hone] at hupper ⊢
    exact hearing_step env d h.exchanged.exchanging h.hearing hupper

theorem Heard.hears {w : World} {s : WiredSystem} {t : System} (h : Heard w s t) : Hears w s := by
  obtain ⟨received, hsince, hdelivered⟩ := h.exchanged.accounted.received
  have hcalls := h.hearing
  unfold Hearing at hcalls
  rw [h.exchanged.stands.client, h.exchanged.stands.world, hsince, List.filterMap_append] at hcalls
  have hcallbacks := List.append_cancel_right hcalls
  refine ⟨⟨received, ⟨_, hsince.symm⟩, hdelivered, hcallbacks⟩, fun hdown => ?_⟩
  have htoClient : t.toClient = [] := List.map_eq_nil_iff.mp
    (h.exchanged.stands.downlink.empty hdown.isOpen hdown.posted hdown.writes hdown.waits)
  rw [htoClient, List.append_nil] at hsince
  rw [hsince]
  exact hcallbacks

/-- For every schedule of calls, writes, reads and failures at the four ends, and of what
the other clients do to the server. -/
theorem hears_run (env : Env) (w : World) (events : List WiredEvent)
    (hundisturbed : LabelledRuns.Along (WiredSystem.step env w.nextConn)
      (fun s e => (s.step env w.nextConn e).Undisturbed) (.start w) events) :
    Hears w (LabelledRuns.run (WiredSystem.step env w.nextConn) (.start w) events) := by
  have hstart : Heard w (.start w) (.start w) := ⟨exchanged_start w, hearing_start w⟩
  exact ((simulates_heard env w).run hstart hundisturbed).hears

/-- The second packet for "c" is written and read as well. -/
def inPiecesToTheEnd : List WiredEvent :=
  inPieces ++ [.serverWriter .runPosted, .serverWriter (.transmit 0 99), .clientRead, .clientRead]

/-- The line that "a" writes is heard after the RESULT that was sent before it. -/
theorem hears_run_line :
    (LabelledRuns.run (WiredSystem.step Env.plain generalChat.nextConn) (.start generalChat)
      inPiecesToTheEnd).client.callbacks =
        [.onAuthResponse ⟨[97, 97, 97, 97], Error.Base.ok⟩, .onChatIncoming ⟨[97], [104]⟩] ∧
    Hears generalChat (LabelledRuns.run (WiredSystem.step Env.plain generalChat.nextConn)
      (.start generalChat) inPiecesToTheEnd) :=
  ⟨by decide, hears_run Env.plain generalChat inPiecesToTheEnd (by decide)⟩

end Messenger.Hearings
