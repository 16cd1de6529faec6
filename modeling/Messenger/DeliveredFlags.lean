import Messenger.Deliveries
import Messenger.NetworkSession

/-!
The delivered flag against what has reached the socket. `deliver_pending` marks messages
in the handler that only queues their packets, so a flag is honest exactly when the
message had been written to its user before. A message that is not marked is stored for
good and goes out again with the next welcome of its user.
-/
namespace Messenger.DeliveredFlags

open KeyedTables Outcomes ClientSession UserRepository MessageRepository HandlerActions
  HandlePacket ServerSteps MessageRows Deliveries WritePumps

structure Network where
  world : World
  pumps : ConnId → Pump Sent UInt8

def frame (s : Sent) : Bytes := NetworkSession.fullPacket (s.packetType, s.body)

/-- What handlers, writes and failures do to one socket, between the steps of the server. -/
inductive NetworkEvent where
  | server (e : Event)
  | writer (c : ConnId) (e : PumpEvent)
deriving DecidableEq, Repr

namespace Network

def initial (env : Env) (files : ℕ → Option Bytes) : Network :=
  ⟨World.initial env files, fun _ => Pump.new⟩

/-- Each packet handed to send_packet is posted to the loop of its session. -/
def postAll (pumps : ConnId → Pump Sent UInt8) (new : List Sent) (c : ConnId) :
    Pump Sent UInt8 :=
  (new.filter (fun s => s.conn == c)).foldl Pump.post (pumps c)

/-- Handlers of a session run as long as it is alive. -/
def step (env : Env) (net : Network) : NetworkEvent → Network
  | .server e =>
    { world := net.world.step env e
      pumps := postAll net.pumps ((net.world.step env e).sent.drop net.world.sent.length) }
  | .writer c e =>
    if (net.world.sessions c).isSome then
      { net with pumps := Function.update net.pumps c ((net.pumps c).step frame e) }
    else net

/-- The whole frame of the packet is on the wire. -/
def Written (net : Network) (s : Sent) : Prop := s ∈ (net.pumps s.conn).carried frame

/-- A whole DIRECT_MESSAGE frame of the row has been written to a session of the user. -/
def CopyWritten (net : Network) (row user : ℤ) : Prop :=
  ∃ s ∈ net.world.sent, (s.packetType = .directMessage ∧ handedRow s.cause = some row) ∧
    (getIdByLogin s.asLogin net.world.store).toOption = some user ∧ net.Written s

instance (net : Network) (s : Sent) : Decidable (net.Written s) :=
  inferInstanceAs (Decidable (_ ∈ _))

instance (net : Network) (row user : ℤ) : Decidable (net.CopyWritten row user) :=
  inferInstanceAs (Decidable (∃ s ∈ _, _))

end Network

theorem toOption_eq_some {ε α : Type} {x : Except ε α} {a : α} :
    x.toOption = some a ↔ x = .ok a := by
  cases x with
  | ok b => simp [Except.toOption]
  | error e => simp [Except.toOption]

theorem carried_prefix_step (env : Env) (net : Network) (e : NetworkEvent) (c : ConnId) :
    (net.pumps c).carried frame <+: ((net.step env e).pumps c).carried frame := by
  cases e with
  | server e =>
    obtain ⟨hsent, hwire⟩ := (net.pumps c).foldl_post
      (((net.world.step env e).sent.drop net.world.sent.length).filter (fun s => s.conn == c))
    refine Pump.carried_mono frame ?_ ?_
    · exact hsent.symm ▸ List.prefix_append _ _
    · exact hwire.symm ▸ List.prefix_rfl
  | writer d e =>
    simp only [Network.step]
    split
    · by_cases hc : c = d
      · subst hc
        have hextends := (net.pumps c).extends_step frame e
        simp only [Function.update_self]
        exact Pump.carried_mono frame (hextends.sent ▸ List.prefix_rfl) hextends.wire
      · simp only [Function.update_of_ne hc]
        exact List.prefix_rfl
    · exact List.prefix_rfl

/-- Every socket is written to by its own pump. -/
theorem pumping_step (env : Env) {net : Network} (e : NetworkEvent)
    (h : ∀ c, ∃ done, Pumping frame (net.pumps c) done) (c : ConnId) :
    ∃ done, Pumping frame ((net.step env e).pumps c) done := by
  obtain ⟨done, hpumping⟩ := h c
  cases e with
  | server e => exact ⟨done, hpumping.foldl_post frame _⟩
  | writer d e =>
    simp only [Network.step]
    split
    · by_cases hc : c = d
      · subst hc
        simp only [Function.update_self]
        exact hpumping.step e
      · simp only [Function.update_of_ne hc]
        exact ⟨done, hpumping⟩
    · exact ⟨done, hpumping⟩

theorem world_step (env : Env) (net : Network) (e : NetworkEvent) :
    (net.step env e).world = net.world ∨
      ∃ e', e = .server e' ∧ (net.step env e).world = net.world.step env e' := by
  cases e with
  | server e' => exact Or.inr ⟨e', rfl, rfl⟩
  | writer c e =>
    refine Or.inl ?_
    simp only [Network.step]
    split <;> rfl

theorem copyWritten_step (env : Env) {net : Network} (e : NetworkEvent) {row user : ℤ}
    (h : net.CopyWritten row user) : (net.step env e).CopyWritten row user := by
  obtain ⟨s, hs, hdirect, hid, hwritten⟩ := h
  have hcarried : (net.step env e).Written s :=
    (carried_prefix_step env net e s.conn).subset hwritten
  rcases world_step env net e with hsame | ⟨e', -, hstep⟩
  · exact ⟨s, hsame.symm ▸ hs, hdirect, hsame.symm ▸ hid, hcarried⟩
  · refine ⟨s, ?_, hdirect, ?_, hcarried⟩
    · rw [hstep]
      exact (step_keepsSent env net.world e').subset hs
    · rw [hstep, toOption_eq_some]
      exact (step_grows env net.world e').getIdByLogin (toOption_eq_some.mp hid)

/-- When a user logs in, every message that waits has been written to the user before. -/
def BacklogWritten (env : Env) (net : Network) : NetworkEvent → Prop
  | .server (.packet _ packetType body) =>
    ∀ l ∈ authenticatesAs env net.world packetType body,
      ∀ user ∈ (getIdByLogin l net.world.store).toOption,
        ∀ row ∈ (backlog env l net.world.store).map StoredMessage.id, net.CopyWritten row user
  | _ => True

instance (env : Env) (net : Network) : ∀ e, Decidable (BacklogWritten env net e)
  | .server (.packet _ packetType body) =>
    inferInstanceAs (Decidable (∀ l ∈ authenticatesAs env net.world packetType body,
      ∀ user ∈ (getIdByLogin l net.world.store).toOption,
        ∀ row ∈ (backlog env l net.world.store).map StoredMessage.id, net.CopyWritten row user))
  | .server .connect => inferInstanceAs (Decidable True)
  | .server (.disconnect _) => inferInstanceAs (Decidable True)
  | .server .cleanTokens => inferInstanceAs (Decidable True)
  | .server .restart => inferInstanceAs (Decidable True)
  | .writer _ _ => inferInstanceAs (Decidable True)

/-- The invariant: a flag is 0, or 1 with a copy of the message written to its user. -/
structure Honest (net : Network) : Prop where
  recipients : RecipientsExist net.world.store
  flags : ∀ r ∈ net.world.store.db.directMessages.rows, r.delivered = 0 ∨ r.delivered = 1
  written : ∀ r ∈ net.world.store.db.directMessages.rows, r.delivered = 1 →
    net.CopyWritten r.id r.recipient

theorem honest_step (env : Env) {net : Network} (e : NetworkEvent) (h : Honest net)
    (hbacklog : BacklogWritten env net e) : Honest (net.step env e) := by
  rcases world_step env net e with hsame | ⟨e', rfl, hstep⟩
  · refine ⟨hsame ▸ h.recipients, hsame ▸ h.flags, ?_⟩
    intro r hr hone
    rw [hsame] at hr
    exact copyWritten_step env e (h.written r hr hone)
  · have hrows : ∀ r ∈ (net.step env (.server e')).world.store.db.directMessages.rows,
        (r.delivered = 0 ∨ r.delivered = 1) ∧
          (r.delivered = 1 → (net.step env (.server e')).CopyWritten r.id r.recipient) := by
      intro r hr
      rw [hstep] at hr
      rcases step_rows env e' h.recipients r hr with
        hold | ⟨hzero, -⟩ | ⟨c, packetType, body, l, rfl, hauth, hwaiting, old, hold, rfl⟩
      · exact ⟨h.flags r hold, fun hone => copyWritten_step env _ (h.written r hold hone)⟩
      · refine ⟨Or.inl hzero, fun hone => ?_⟩
        rw [hzero] at hone
        cases hone
      · -- a row that is marked was in the backlog, and the backlog was written
        refine ⟨Or.inr rfl, fun _ => copyWritten_step env _ ?_⟩
        have hrow := (mem_backlog_iff env).mpr hwaiting
        obtain ⟨u, hu, r', hr', hid, hrecipient, -⟩ := hwaiting
        have hsame : r' = old := net.world.store.db.directMessages.eq_of_key_eq hr' hold hid
        subst hsame
        have huser : (getIdByLogin l net.world.store).toOption = some r'.recipient := by
          rw [getIdByLogin, hu, hrecipient]
          rfl
        exact hbacklog l hauth r'.recipient huser r'.id hrow
    refine ⟨?_, fun r hr => (hrows r hr).1, fun r hr => (hrows r hr).2⟩
    rw [hstep]
    exact recipientsExist_step env e' h.recipients

/-- A welcome that is handled to its end hands over every message that is not marked. -/
theorem resent_at_welcome (env : Env) {w w' : World} {c : ConnId} {packetType : PacketType}
    {body l : Bytes} (hlive : (w.sessions c).isSome)
    (hauth : authenticatesAs env w packetType body = some l)
    (hrun : (handlePacket env c packetType body).run w = .ok () w') {r : DirectMessageRow}
    (hr : r ∈ w.store.db.directMessages.rows) (hzero : r.delivered = 0)
    (huser : getIdByLogin l w.store = .ok r.recipient) :
    ∃ s ∈ w'.sent.drop w.sent.length, s.conn = c ∧ s.packetType = .directMessage ∧
      s.cause = .pending r.id ∧ s.asLogin = l := by
  have hcases := handlePacket_handling env packetType body hlive
  rw [hrun] at hcases
  cases hcases with
  | answered response w₁ hdispatch =>
    have hnone := dispatch_login hdispatch
    rw [hauth] at hnone
    cases hnone
  | welcomed response l' w₁ hdispatch _ _ =>
    obtain ⟨hauth', hunseen⟩ := unseen_of_dispatch hdispatch
    obtain rfl : l = l' := Option.some.inj (hauth.symm.trans hauth')
    have hwaiting : InBacklog w₁.store l r.id := by
      unfold getIdByLogin at huser
      cases hu : w.store.db.findLogin l with
      | none =>
        rw [hu] at huser
        cases huser
      | some u =>
        rw [hu] at huser
        have hid : u.id = r.recipient := by
          injection huser
        exact ⟨u, hunseen.quiet.findLogin hu, r, hunseen.quiet.messages.symm ▸ hr, rfl, hid.symm,
          hzero⟩
    obtain ⟨el, hel, hid⟩ := List.mem_map.mp ((mem_backlog_iff env).mpr hwaiting)
    have hlive₁ : (w₁.sessions c).isSome := hunseen.logins.live hlive
    refine ⟨backlogPacket w₁.store c l el, ?_, rfl, rfl, ?_, rfl⟩
    · have hsent : ∃ answer, (withAnswer (welcomed env w₁ c l) c packetType response).sent =
          w.sent ++ (backlog env l w₁.store).map (backlogPacket w₁.store c l) ++ answer := by
        have hwelcome : (welcomed env w₁ c l).sent =
            w.sent ++ (backlog env l w₁.store).map (backlogPacket w₁.store c l) := by
          rw [welcomed_sent env hlive₁, hunseen.sent]
        obtain ⟨answer, hanswer⟩ :=
          withAnswer_keepsSent (welcomed env w₁ c l) c packetType response
        exact ⟨answer, by rw [← hanswer, hwelcome]⟩
      obtain ⟨answer, hanswer⟩ := hsent
      rw [hanswer, List.append_assoc, List.drop_left]
      exact List.mem_append_left _ (List.mem_map_of_mem hel)
    · rw [← hid]
      rfl

/-- What the flag is for: 1 only when a copy has been written to the user; 0 as long as
none has; and what is not marked goes out at the next welcome of its user. The frames of
packets that count as written are on the wire. -/
structure NothingLost (env : Env) (net : Network) : Prop where
  onWire : ∀ c, ((net.pumps c).carried frame).flatMap frame <+: (net.pumps c).wire
  written : ∀ r ∈ net.world.store.db.directMessages.rows, r.delivered = 1 →
    net.CopyWritten r.id r.recipient
  kept : ∀ r ∈ net.world.store.db.directMessages.rows, ¬ net.CopyWritten r.id r.recipient →
    r.delivered = 0
  resent : ∀ c packetType body l w', (net.world.sessions c).isSome →
    authenticatesAs env net.world packetType body = some l →
    (handlePacket env c packetType body).run net.world = .ok () w' →
    ∀ r ∈ net.world.store.db.directMessages.rows, r.delivered = 0 →
      getIdByLogin l net.world.store = .ok r.recipient →
      ∃ s ∈ w'.sent.drop net.world.sent.length, s.conn = c ∧ s.packetType = .directMessage ∧
        s.cause = .pending r.id ∧ s.asLogin = l

/-- Both sessions exist, the message is pushed, and the first session's four packets are
written; then its user logs in again. -/
def writtenThenWelcomed : List NetworkEvent :=
  (twoFriends ++ [messageEvent]).map .server ++
    (List.replicate 4 (.writer 0 .runPosted) ++
      (List.replicate 4 [.writer 0 (.transmit 0 100), .writer 0 (.writeDone 0)]).flatten) ++
    [.server (loginEvent 0 [97])]

/-- A message waits for "a"; "a" logs in on a connection that fails before anything has
been written. -/
def failedBeforeWrite : Network :=
  LabelledRuns.run (Network.step Env.plain) (Network.initial Env.plain fun _ => none)
    ((twoFriends ++ [.disconnect 0, messageEvent, .connect, loginEvent 2 [97]]).map .server ++
      [.writer 2 .runPosted, .writer 2 (.writeFailed 0), .server (.disconnect 2)])

end Messenger.DeliveredFlags
