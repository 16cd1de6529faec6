import Messenger.Turns
import Messenger.Hearings
import Messenger.PlainReadings

/-!
The whole system: any number of clients, their sockets, the server and its tables. The
server takes the calls of all clients in one order, which for each client is the order in
which it made them; and what the interface of a client is told, each time for the right
call, is what the plain messenger tells when it is asked these calls in that order. A call
is taken after it is made and before its result is told, so the messenger is linearizable.
-/
namespace Messenger.Linearizations

open Outcomes ClientSession HandlePacket ServerSteps NetworkSession ClientAsyncHandler
  ClientHandlerQml PendingRequests WiredLinks Simulations Hearings Networks Turns TokenIdentity
  Refusals PlainMessenger Representations Refinement PlainReadings

/-- The request that a call makes with the token that the client holds. -/
def callRequest (env : Env) (token : Bytes) : ClientCall → PlainRequest
  | .checkSavedToken saved => .present saved
  | .logout => .logout token
  | .registerUser login password => .register login (sha256 env password)
  | .loginUser login password => .login login (sha256 env password)
  | .sendMessageGeneralChat _ => .present token
  | .sendFriendRequest targetLogin => .befriend token .request targetLogin
  | .acceptFriendRequest targetLogin => .befriend token .accept targetLogin
  | .rejectFriendRequest targetLogin => .befriend token .reject targetLogin
  | .getFriendList => .present token
  | .sendDirectMessage recipientLogin message => .write token recipientLogin message
  | .getHistoryDirectMessage _ => .present token
  | .getLastMessages => .present token

/-- What a client posts decodes on the other side to what was called for. -/
theorem plainRequest_packetOf {env : Env} {token : Bytes} {call : ClientCall} {packet : Packet}
    (h : packetOf env token call = some packet) (hfits : packet.2.length < 2 ^ 32) :
    plainRequest packet.1 packet.2 = some (callRequest env token call) := by
  cases call with
  | checkSavedToken saved =>
    obtain rfl := packetOf_checkSavedToken h
    simp only [plainRequest, deserialize_serialize_of_length hfits]
    rfl
  | logout =>
    obtain rfl := packetOf_logout h
    simp only [plainRequest, deserialize_serialize_of_length hfits]
    rfl
  | _ =>
    cases h
    simp only [plainRequest, plainFriendRequest, deserialize_serialize_of_length hfits]
    rfl

/-- The call registers no login with a NUL in it. -/
def NulFreeCall : ClientCall → Prop
  | .registerUser login _ => 0 ∉ login
  | _ => True

instance : ∀ call, Decidable (NulFreeCall call)
  | .registerUser login _ => inferInstanceAs (Decidable (0 ∉ login))
  | .checkSavedToken _ | .logout | .loginUser _ _ | .sendMessageGeneralChat _
  | .sendFriendRequest _ | .acceptFriendRequest _ | .rejectFriendRequest _ | .getFriendList
  | .sendDirectMessage _ _ | .getHistoryDirectMessage _ | .getLastMessages =>
    inferInstanceAs (Decidable True)

theorem nulFreeLogin_packetOf {env : Env} {token : Bytes} {call : ClientCall} {packet : Packet}
    (hcall : NulFreeCall call) (h : packetOf env token call = some packet)
    (hfits : packet.2.length < 2 ^ 32) : NulFreeLogin packet.1 packet.2 := by
  intro hregister req hreq
  cases call with
  | registerUser login password =>
    cases h
    rw [deserialize_serialize_of_length hfits] at hreq
    cases hreq
    exact hcall
  | checkSavedToken saved =>
    obtain rfl := packetOf_checkSavedToken h
    cases hregister
  | logout =>
    obtain rfl := packetOf_logout h
    cases hregister
  | _ =>
    cases h
    cases hregister

/-- A packet that the client makes of a call. -/
def CalledFor (env : Env) (packet : Packet) : Prop :=
  ∃ token call, NulFreeCall call ∧ packetOf env token call = some packet

/-- All that a client has posted or is about to post. -/
def Genuine (env : Env) (s : WiredSystem) : Prop :=
  ∀ packet ∈ s.uplink.sender.sent ++ s.posting.toList, CalledFor env packet

section

variable {env : Env} {s s' : WiredSystem} {c : ConnId}

theorem Genuine.of_eq (h : Genuine env s) (huplink : s'.uplink.sender.sent = s.uplink.sender.sent)
    (hposting : s'.posting = s.posting) : Genuine env s' := by
  unfold Genuine
  rw [huplink, hposting]
  exact h

theorem sent_quiet (link : Connection) {e : ConnectionEvent} (h : e.packet? = none) :
    (link.step e).sender.sent = link.sender.sent := by
  rw [Connection.sent_step, h]
  exact List.append_nil _

theorem Genuine.step (h : Genuine env s) (e : WiredEvent)
    (hcall : ∀ call, e = .call call → NulFreeCall call) : Genuine env (s.step env c e) := by
  cases e with
  | call call =>
    simp only [WiredSystem.step]
    split
    · exact h
    · split
      · exact h
      · rename_i packet hpacket
        intro p hp
        rcases List.mem_append.mp hp with hold | hnew
        · exact h p (List.mem_append_left _ hold)
        · obtain rfl : p = packet := by simpa using hnew
          exact ⟨s.token, call, hcall call rfl, hpacket⟩
  | post =>
    simp only [WiredSystem.step]
    split
    · exact h
    · rename_i packet hposting
      intro p hp
      refine h p ?_
      have hsent : (s.uplink.step (.sendPacket packet.1 packet.2)).sender.sent =
          s.uplink.sender.sent ++ [packet] := rfl
      rw [hposting]
      simpa [hsent] using hp
  | clientWriter e => exact h.of_eq (sent_quiet _ rfl) rfl
  | serverReadFailed => exact h.of_eq (sent_quiet _ rfl) rfl
  | serverRead =>
    simp only [WiredSystem.step]
    split
    · split
      · exact h.of_eq (sent_read _) rfl
      · exact h.of_eq (sent_read _) rfl
    · exact h
  | server e =>
    simp only [WiredSystem.step]
    split
    · exact h
    · exact h
  | clientRead =>
    simp only [WiredSystem.step]
    split
    · exact h
    · split
      · exact h
      · split <;> exact h
  | setToken _ | serverWriter _ | clientReadFailed => exact h

/-- What the server reads has been called for, and fits. -/
theorem genuine_handed {w : World} {t : System} (hexchanged : Exchanged w s t)
    (h : Genuine env s) {packet : Packet} (hhanded : handed s.uplink = some packet) :
    CalledFor env packet ∧ packet.2.length < 2 ^ 32 := by
  have hholds := hexchanged.stands.uplink
  rcases hholds.read with ⟨hnone, -⟩ | ⟨first, rest, hsome, hqueue, -⟩
  · rw [hnone] at hhanded
    cases hhanded
  · obtain rfl := Option.some.inj (hsome.symm.trans hhanded)
    have hmem : first ∈ t.toServer := hqueue ▸ List.mem_cons_self
    refine ⟨h first (List.mem_append_left _ ?_), hholds.fits first hmem⟩
    rw [hholds.sent]
    exact List.mem_append_right _ hmem

end

def NulFreeCalls : NetworkEvent → Prop
  | .ends _ (.call call) => NulFreeCall call
  | _ => True

instance : ∀ e, Decidable (NulFreeCalls e)
  | .ends _ (.call call) => inferInstanceAs (Decidable (NulFreeCall call))
  | .ends _ (.setToken _) | .ends _ .post | .ends _ (.clientWriter _) | .ends _ .serverRead
  | .ends _ .serverReadFailed | .ends _ (.server _) | .ends _ (.serverWriter _)
  | .ends _ .clientRead | .ends _ .clientReadFailed | .connect | .restart | .disconnect _
  | .cleanTokens => inferInstanceAs (Decidable True)

/-- What holds at one connection of the system when the server has gone through
`history`. -/
def Attached (env : Env) (w₀ : World) (history : List Event) (c : ConnId) (s : WiredSystem) :
    Prop :=
  ∃ w t turns, c = w.nextConn ∧ Heard w s t ∧ Turned env w₀ w history s turns ∧ Genuine env s ∧
    history.filterMap (packetFrom c) = s.uplink.reader.delivered

/-- `apart`: what came from connections came from such as had been accepted. -/
structure Together (env : Env) (w₀ : World) (n : Network) (history : List Event) : Prop where
  world : n.world = LabelledRuns.run (World.step env) w₀ history
  nulFree : ∀ e ∈ history, NulFreeEvent e
  numbered : Numbered n
  apart : ∀ c, n.world.nextConn ≤ c → history.filterMap (packetFrom c) = []
  attached : ∀ c s, n.view c = some s → Attached env w₀ history c s

section

variable {env : Env} {w₀ : World} {n : Network} {history : List Event} {c : ConnId}
  {s : WiredSystem}

theorem attached_start (env : Env) (w₀ : World) {w : World} {history : List Event}
    (hnone : history.filterMap (packetFrom w.nextConn) = []) :
    Attached env w₀ history w.nextConn (.start w) :=
  ⟨w, .start w, [], rfl, ⟨exchanged_start w, hearing_start w⟩, turned_start env w₀ w history,
    fun _ h => absurd h List.not_mem_nil, hnone⟩

theorem Attached.step (h : Attached env w₀ history c s)
    (hworld : s.world = LabelledRuns.run (World.step env) w₀ history) (e : WiredEvent)
    (hcall : ∀ call, e = .call call → NulFreeCall call) (hup : (s.step env c e).Undisturbed) :
    Attached env w₀ (history ++ serverShown c s e) c (s.step env c e) := by
  obtain ⟨w, t, turns, rfl, hheard, hturned, hgenuine, hpackets⟩ := h
  obtain ⟨turns', hturned'⟩ := hturned.step hheard.exchanged hworld e hup
  refine ⟨w, _, turns', rfl, simulates_heard env w s e t hheard hup, hturned',
    hgenuine.step e hcall, ?_⟩
  rw [List.filterMap_append, hpackets, delivered_step]

/-- The packets that the server takes from a connection are free of NULs in logins. -/
theorem Attached.nulFree (h : Attached env w₀ history c s) (e : WiredEvent)
    (hserver : ofServer e = false) : ∀ event ∈ serverShown c s e, NulFreeEvent event := by
  obtain ⟨w, t, turns, rfl, hheard, -, hgenuine, -⟩ := h
  intro event hevent
  cases e with
  | serverRead =>
    simp only [serverShown] at hevent
    split at hevent
    · obtain ⟨packet, hpacket, rfl⟩ := List.mem_map.mp hevent
      have hhanded : handed s.uplink = some packet := by simpa using hpacket
      obtain ⟨⟨token, call, hcall, hof⟩, hfits⟩ :=
        genuine_handed hheard.exchanged hgenuine hhanded
      exact nulFreeLogin_packetOf hcall hof hfits
    · cases hevent
  | server _ => cases hserver
  | _ => cases hevent

theorem Together.nulFree_step (h : Together env w₀ n history) (e : NetworkEvent) :
    ∀ event ∈ historyShown n e, NulFreeEvent event := by
  cases e with
  | connect | restart | disconnect _ | cleanTokens =>
    exact List.forall_mem_singleton.mpr trivial
  | ends c e =>
    simp only [historyShown]
    cases hview : n.view c with
    | none => exact fun _ hevent => absurd hevent List.not_mem_nil
    | some s =>
      simp only
      cases he : ofServer e with
      | true => exact fun _ hevent => absurd hevent List.not_mem_nil
      | false => exact (h.attached c s hview).nulFree e he

/-- Nothing comes from a connection that has not been accepted yet. -/
theorem Together.apart_shown (h : Together env w₀ n history) (e : NetworkEvent)
    (hc : n.world.nextConn ≤ c) :
    (history ++ historyShown n e).filterMap (packetFrom c) = [] := by
  have hshown : ∀ event ∈ historyShown n e, packetFrom c event = none := by
    cases e with
    | connect | restart | disconnect _ | cleanTokens => exact List.forall_mem_singleton.mpr rfl
    | ends d e =>
      simp only [historyShown]
      cases hview : n.view d with
      | none => exact fun _ hevent => absurd hevent List.not_mem_nil
      | some s =>
        have hd : d < n.world.nextConn := h.numbered d (by rw [hview]; rfl)
        simp only
        cases he : ofServer e with
        | true => exact fun _ hevent => absurd hevent List.not_mem_nil
        | false => exact fun event hevent =>
            packetFrom_none (serverShown_packets he d (hd.trans_le hc).ne event hevent)
  rw [List.filterMap_append, h.apart c hc, List.filterMap_eq_nil_iff.mpr hshown, List.nil_append]

theorem Together.apart_step (h : Together env w₀ n history) (e : NetworkEvent) :
    ∀ c, (n.step env e).world.nextConn ≤ c →
      (history ++ historyShown n e).filterMap (packetFrom c) = [] := by
  intro c hc
  have hle := nextConn_le_run env n.world (historyShown n e)
  rw [← world_step] at hle
  exact h.apart_shown e (hle.trans hc)

theorem Together.attached_step (h : Together env w₀ n history) (e : NetworkEvent)
    (hcalls : NulFreeCalls e) (hup : (n.step env e).Undisturbed) :
    ∀ c s, (n.step env e).view c = some s →
      Attached env w₀ (history ++ historyShown n e) c s := by
  intro c s' hview'
  have hundisturbed : s'.Undisturbed :=
    hup.2 c (h.numbered.step env e c (by rw [hview']; rfl)) s' hview'
  have accepted : (n.step env e).view c = some (.start n.world) → c = n.world.nextConn →
      Attached env w₀ (history ++ historyShown n e) c s' := by
    rintro hstart rfl
    obtain rfl := Option.some.inj (hstart.symm.trans hview')
    exact attached_start env w₀ (h.apart_shown e le_rfl)
  cases hview : n.view c with
  | none =>
    rcases view_step_none env hview e with hnone | ⟨hstart, hc, -, -⟩
    · cases hnone.symm.trans hview'
    · exact accepted hstart hc
  | some s =>
    rcases view_step env hview e with hsome | ⟨hstart, hc, -, -⟩
    · have hattached := h.attached c s hview
      obtain rfl := Option.some.inj (hsome.symm.trans hview')
      rw [historyShown_eq hview]
      have hcall : ∀ d ∈ viewShown c n e, ∀ call, d = .call call → NulFreeCall call := by
        rintro d hd call rfl
        obtain rfl := viewShown_call hd
        exact hcalls
      rcases viewShown_short c n e with hnothing | ⟨d, hone⟩
      · rw [hnothing, List.flatMap_nil, List.append_nil]
        exact hattached
      · rw [hone] at hundisturbed hcall ⊢
        rw [List.flatMap_singleton]
        exact hattached.step ((world_of_view hview).trans h.world) d
          (hcall d (List.mem_singleton_self d)) hundisturbed
    · exact accepted hstart hc

end

/-- The server alone goes through the history of the system. -/
theorem simulates_together (env : Env) (w₀ : World) :
    Simulates (Network.step env) (fun history e => history ++ [e]) historyShown
      (fun n e => NulFreeCalls e ∧ (n.step env e).Undisturbed) (Together env w₀) := by
  intro n e history h hC
  have hhistory : LabelledRuns.run (fun history e => history ++ [e]) history (historyShown n e) =
      history ++ historyShown n e := LabelledRuns.run_snoc history (historyShown n e)
  rw [hhistory]
  refine ⟨?_, ?_, h.numbered.step env e, h.apart_step e, h.attached_step e hC.1 hC.2⟩
  · rw [world_step, h.world, LabelledRuns.run_append]
  · exact List.forall_mem_append.mpr ⟨h.nulFree, h.nulFree_step e⟩

/-- What a list that is read shows of the plain messenger. -/
def Shows (m : Plain) (token : Bytes) (now : ℤ) : ClientCall → Response → Prop
  | .getFriendList, r => ∀ friends asking, r = .friendList ⟨friends, asking, Error.Base.ok⟩ →
      ∃ login, m.holder tokenTtl token now = some login ∧ ShowsFriends m login friends asking
  | .getHistoryDirectMessage peerLogin, r => ∀ entries, r = .history ⟨entries, Error.Base.ok⟩ →
      ∃ login shown, m.holder tokenTtl token now = some login ∧
        entries = shown.map historyLine ∧ TellsBeginning m login peerLogin 100 shown
  | .getLastMessages, r => ∀ chats, r = .chatList ⟨chats, Error.Base.ok⟩ →
      ∃ login shown, m.holder tokenTtl token now = some login ∧
        chats = shown.map (chatLine login) ∧ ShowsChats m login shown
  | _, _ => True

/-- The turn is that of a call, and its RESULT is what the plain messenger replies to it and
shows for it after all that was asked before. -/
def Faithful (env : Env) (files : ℕ → Option Bytes) (turn : Turn) : Prop :=
  ∃ token call, packetOf env token call = some turn.request ∧
    Replied ((played env files turn.before).reply tokenTtl
      (ask env (LabelledRuns.run (World.step env) (World.initial env files) turn.before).store
        (callRequest env token call))) turn.response ∧
    Shows (played env files turn.before) token
      (env.clock (LabelledRuns.run (World.step env) (World.initial env files)
        turn.before).store.clockReads) call turn.response

section

variable {env : Env} {w : World} {m : Plain} {c : ConnId} {packetType : PacketType}
  {body : Bytes} {r r' : Response}

theorem answeredWith_unique (h : AnsweredWith env w c packetType body r)
    (h' : AnsweredWith env w c packetType body r') : r = r' := by
  obtain ⟨w₁, before, hrun, hsent⟩ := h
  obtain ⟨w₁', before', hrun', hsent'⟩ := h'
  obtain ⟨-, rfl⟩ := EStateM.Result.ok.inj (hrun.symm.trans hrun')
  have hlast := List.append_inj_right' (hsent.symm.trans hsent') rfl
  injection hlast with hpacket
  injection hpacket with _ _ _ hcause
  injection hcause

theorem holder_of_replied {a : Ask} {token : Bytes} (hpresent : a.request = .present token)
    (hreplied : Replied (m.reply tokenTtl a) r) (hok : r.error = Error.Base.ok) :
    ∃ login, m.holder tokenTtl token a.now = some login := by
  cases hholder : m.holder tokenTtl token a.now with
  | some login => exact ⟨login, rfl⟩
  | none =>
    have hrefused : m.reply tokenTtl a = .refused := by
      simp only [State.reply, hpresent, hholder, Option.isSome_none, Bool.false_eq_true, if_false]
    rw [hrefused] at hreplied
    have hfail : r.error.ok = false := hreplied
    rw [hok] at hfail
    cases hfail

theorem shows_of_answered (hclock : Monotone env.clock) (h : Represents env w.store m)
    (hlive : (w.sessions c).isSome) {token : Bytes} {call : ClientCall}
    (hof : packetOf env token call = some (packetType, body)) (hfits : body.length < 2 ^ 32)
    (hanswered : AnsweredWith env w c packetType body r)
    (hreplied : Replied (m.reply tokenTtl (ask env w.store (callRequest env token call))) r) :
    Shows m token (env.clock w.store.clockReads) call r := by
  cases call with
  | getFriendList =>
    cases hof
    rintro friends asking rfl
    obtain ⟨login, hholder⟩ := holder_of_replied rfl hreplied rfl
    obtain ⟨friends', asking', hanswered', hshows⟩ := friends_read hclock h hlive
      (deserialize_serialize_of_length hfits) hholder
    cases answeredWith_unique hanswered hanswered'
    exact ⟨login, hholder, hshows⟩
  | getHistoryDirectMessage peerLogin =>
    cases hof
    rintro entries rfl
    have hreq : deserialize HistoryRequest (serialize (HistoryRequest.mk token peerLogin)) =
        .ok ⟨token, peerLogin⟩ := deserialize_serialize_of_length hfits
    obtain ⟨login, hholder⟩ := holder_of_replied rfl hreplied rfl
    -- who asks for a history with nobody is not answered
    have hpeer : m.Registered peerLogin := by
      obtain ⟨w', before, hrun, -⟩ := hanswered
      have hmanageable := (Terminations.returned_iff _ _ h.sound hlive).mp ⟨(), w', hrun⟩
      have husers := (Terminations.usersNeeded_iff (by decide)).mp hmanageable.users
      exact (registered_iff_findLogin h).mpr
        (husers _ _ hreq ((tokenLogin_eq_holder h token).trans hholder)).2
    obtain ⟨shown, hanswered', htells⟩ := history_read hclock h hlive hreq hholder hpeer
    cases answeredWith_unique hanswered hanswered'
    exact ⟨login, shown, hholder, rfl, htells⟩
  | getLastMessages =>
    cases hof
    rintro chats rfl
    obtain ⟨login, hholder⟩ := holder_of_replied rfl hreplied rfl
    obtain ⟨shown, hanswered', hshows⟩ := chats_read hclock h hlive
      (deserialize_serialize_of_length hfits) hholder
    cases answeredWith_unique hanswered hanswered'
    exact ⟨login, shown, hholder, rfl, hshows⟩
  | _ => trivial

theorem faithful_of_taken (hclock : Monotone env.clock)
    (hsha : Function.Injective (sha256 env)) {files : ℕ → Option Bytes} {history : List Event}
    (hnul : ∀ e ∈ history, NulFreeEvent e) {turn : Turn}
    (h : turn.Taken env (World.initial env files) c history)
    (hof : CalledFor env turn.request) (hfits : turn.body.length < 2 ^ 32) :
    Faithful env files turn := by
  obtain ⟨token, call, hcall, hof⟩ := hof
  have hbefore : ∀ e ∈ turn.before, NulFreeEvent e := fun e he =>
    hnul e (h.point.subset (List.mem_append_left _ he))
  have hrepresents := represents_run hclock hsha files hbefore
  have hfree : NulFreeLogin turn.packetType turn.body := nulFreeLogin_packetOf hcall hof hfits
  have hplain : plainRequest turn.packetType turn.body = some (callRequest env token call) :=
    plainRequest_packetOf hof hfits
  obtain ⟨q, hq, hreplied⟩ := replied_of_answered hclock hsha hrepresents h.live hfree h.answered
  obtain rfl := Option.some.inj (hq.symm.trans hplain)
  exact ⟨token, call, hof, hreplied, shows_of_answered hclock hrepresents h.live hof hfits
    h.answered hreplied⟩

end

/-- One connection of the system when the server has gone through `history`. The server has
taken the first of the packets that were posted, logouts included, in their order. Those that
await a RESULT have had their turns in this order, each with what the messenger answers there;
the first `heard` of them have been told to the interface, and the client waits for the
others. -/
structure Linearized (env : Env) (files : ℕ → Option Bytes) (history : List Event) (c : ConnId)
    (s : WiredSystem) (turns : List Turn) (heard : ℕ) : Prop where
  taken : history.filterMap (packetFrom c) <+: s.uplink.sender.sent
  points : ∀ turn ∈ turns, turn.before ++ [turn.event c] <+: history
  order : turns.Pairwise fun turn later => turn.before ++ [turn.event c] <+: later.before
  faithful : ∀ turn ∈ turns, Faithful env files turn
  posted : turns.map Turn.request <+: s.uplink.sender.sent.filter isAwaited
  told : s.client.callbacks.filter isAnswer =
    (turns.take heard).filterMap fun turn => callbackOf turn.response
  waits : s.client.pendingRequests =
    ((s.uplink.sender.sent ++ s.posting.toList).filterMap awaits).drop heard

theorem resultCallback_eq (p : Sent) :
    resultCallback p = (resultOf p).bind fun result => callbackOf result.2 := by
  unfold resultCallback resultOf
  cases p.cause <;> rfl

theorem filterMap_resultCallback (l : List Sent) :
    l.filterMap resultCallback = (l.filterMap resultOf).filterMap fun result =>
      callbackOf result.2 := by
  rw [List.filterMap_filterMap]
  exact List.filterMap_congr fun p _ => resultCallback_eq p

/-- The RESULTs that a client has received are those of its first turns. -/
theorem exists_heard {received rest : List Sent} {turns : List Turn}
    (h : (received ++ rest).filterMap resultOf =
      turns.map fun turn => (turn.packetType, turn.response)) :
    ∃ heard, heard ≤ turns.length ∧
      received.filterMap resultOf =
        (turns.take heard).map (fun turn => (turn.packetType, turn.response)) ∧
      rest.filterMap resultOf =
        (turns.drop heard).map fun turn => (turn.packetType, turn.response) := by
  rw [List.filterMap_append] at h
  obtain ⟨told, open', rfl, htold, hopen⟩ := List.map_eq_append_iff.mp h.symm
  refine ⟨told.length, by simp, ?_, ?_⟩
  · rw [List.take_left, htold]
  · rw [List.drop_left, hopen]

theorem filterMap_awaits (l : List Packet) :
    l.filterMap awaits = (l.filter isAwaited).map Prod.fst := by
  induction l with
  | nil => rfl
  | cons packet rest ih =>
    by_cases hlogout : packet.1 = .logout
    · have hnone : awaits packet = none := if_pos hlogout
      rw [List.filterMap_cons_none hnone, ih, List.filter_cons_of_neg (by simp [isAwaited, hnone])]
    · have hsome : awaits packet = some packet.1 := if_neg hlogout
      rw [List.filterMap_cons_some hsome, ih, List.filter_cons_of_pos (by simp [isAwaited, hsome])]
      rfl

theorem filterMap_resultRequest {l : List Sent} (h : ∀ p ∈ l, Carried p) :
    l.filterMap resultRequest = (l.filterMap resultOf).map Prod.fst := by
  rw [List.map_filterMap]
  refine List.filterMap_congr fun p hp => ?_
  cases h p hp with
  | push hpush => rw [resultRequest_push hpush, resultOf_push hpush, Option.map_none]
  | result request r htype _ hcause _ =>
    rw [resultRequest_result htype hcause]
    simp only [resultOf, hcause, Option.map_some]

theorem Attached.linearized {env : Env} (hclock : Monotone env.clock)
    (hsha : Function.Injective (sha256 env)) {files : ℕ → Option Bytes} {history : List Event}
    (hnul : ∀ e ∈ history, NulFreeEvent e) {c : ConnId} {s : WiredSystem}
    (h : Attached env (World.initial env files) history c s) :
    ∃ turns heard, Linearized env files history c s turns heard := by
  obtain ⟨w, t, turns, rfl, hheard, hturned, hgenuine, hpackets⟩ := h
  have hexchanged := hheard.exchanged
  have hsent := hexchanged.stands.uplink.sent
  obtain ⟨received, hsince, -⟩ := hexchanged.accounted.received
  have hresults := hturned.results
  rw [hsince] at hresults
  obtain ⟨heard, hle, htold, hopen⟩ := exists_heard hresults
  -- each turn is that of a packet which was posted
  have hposted : turns.map Turn.request <+: s.uplink.sender.sent.filter isAwaited := by
    rw [← hturned.requests, hsent]
    exact (List.prefix_append _ _).filter isAwaited
  have hrequest : ∀ turn ∈ turns, turn.request ∈ s.uplink.sender.sent := fun turn hturn =>
    List.mem_of_mem_filter (hposted.subset (List.mem_map_of_mem hturn))
  have htaken : history.filterMap (packetFrom w.nextConn) <+: s.uplink.sender.sent := by
    rw [hpackets, hsent]
    exact List.prefix_append _ _
  refine ⟨turns, heard, htaken, fun turn hturn => (hturned.taken turn hturn).point,
    hturned.order, fun turn hturn => ?_, hposted, ?_, ?_⟩
  · exact faithful_of_taken hclock hsha hnul (hturned.taken turn hturn)
      (hgenuine _ (List.mem_append_left _ (hrequest turn hturn)))
      (hexchanged.stands.uplink.carries.fits _ (hrequest turn hturn))
  · have hvalues := hexchanged.exchanging.values
    rw [hexchanged.stands.client, hexchanged.stands.world, hsince, List.filterMap_append] at hvalues
    rw [List.append_cancel_right hvalues, filterMap_resultCallback, htold, List.filterMap_map]
    rfl
  · have hinStep : s.client.pendingRequests = t.toClient.filterMap resultRequest ++
        (t.toServer ++ s.posting.toList).filterMap awaits := by
      have hstep := hexchanged.exchanging.inStep
      rw [hexchanged.stands.client, hexchanged.stands.posting] at hstep
      exact hstep
    -- the requests that the server has taken
    have htaken : s.uplink.reader.delivered.filterMap awaits = turns.map Turn.packetType := by
      rw [filterMap_awaits, hturned.requests, List.map_map]
      rfl
    have hlost : t.toClient.filterMap resultRequest =
        (turns.map Turn.packetType).drop heard := by
      rw [filterMap_resultRequest hexchanged.exchanging.carried, hopen, List.map_map,
        ← List.map_drop]
      rfl
    have hshort : heard ≤ (turns.map Turn.packetType).length := by
      rwa [List.length_map]
    have hasked : (s.uplink.sender.sent ++ s.posting.toList).filterMap awaits =
        turns.map Turn.packetType ++ (t.toServer ++ s.posting.toList).filterMap awaits := by
      rw [hsent, List.append_assoc, List.filterMap_append, htaken]
    rw [hinStep, hasked, hlost, List.drop_append_of_le_length hshort]

/-- The system after a run, and what the server has gone through. -/
def system (env : Env) (files : ℕ → Option Bytes) (events : List NetworkEvent) : Network :=
  LabelledRuns.run (Network.step env) (.new (World.initial env files)) events

def historyOf (env : Env) (files : ℕ → Option Bytes) (events : List NetworkEvent) : List Event :=
  shownRun (Network.step env) historyShown (.new (World.initial env files)) events

theorem together_new (env : Env) (files : ℕ → Option Bytes) :
    Together env (World.initial env files) (.new (World.initial env files)) [] :=
  ⟨rfl, fun _ h => absurd h List.not_mem_nil, fun _ h => absurd h Bool.false_ne_true,
    fun _ _ => rfl, fun _ _ h => absurd h.symm (Option.some_ne_none _)⟩

theorem together_run {env : Env} {files : ℕ → Option Bytes} {events : List NetworkEvent}
    (hcalls : ∀ e ∈ events, NulFreeCalls e)
    (hundisturbed : LabelledRuns.Along (Network.step env)
      (fun n e => (n.step env e).Undisturbed) (.new (World.initial env files)) events) :
    Together env (World.initial env files) (system env files events)
      (historyOf env files events) := by
  have htogether := (simulates_together env (World.initial env files)).run
    (together_new env files) (LabelledRuns.along_and_of_forall hcalls hundisturbed)
  rw [LabelledRuns.run_snoc, List.nil_append] at htogether
  exact htogether

/-- What the server keeps in each event that it survives holds in every run of the system. -/
theorem invariant_history {env : Env} {files : ℕ → Option Bytes} {P : List Event → World → Prop}
    (hstart : P [] (World.initial env files))
    (hstep : ∀ history e, (∀ d ∈ history ++ [e], NulFreeEvent d) →
      P history (LabelledRuns.run (World.step env) (World.initial env files) history) →
      ((LabelledRuns.run (World.step env) (World.initial env files) history).step env e).status ≠
        .terminated →
      P (history ++ [e])
        ((LabelledRuns.run (World.step env) (World.initial env files) history).step env e))
    {events : List NetworkEvent} (hcalls : ∀ e ∈ events, NulFreeCalls e)
    (hundisturbed : LabelledRuns.Along (Network.step env)
      (fun n e => (n.step env e).Undisturbed) (.new (World.initial env files)) events) :
    P (historyOf env files events) (system env files events).world := by
  have hsimulates : Simulates (Network.step env) (fun history e => history ++ [e]) historyShown
      (fun n e => NulFreeCalls e ∧ (n.step env e).Undisturbed)
      (fun n history => Together env (World.initial env files) n history ∧ P history n.world) := by
    intro n e history h hC
    obtain ⟨hbefore, hP⟩ := h
    have hafter := simulates_together env (World.initial env files) n e history hbefore hC
    have hhistory : LabelledRuns.run (fun history e => history ++ [e]) history
        (historyShown n e) = history ++ historyShown n e :=
      LabelledRuns.run_snoc history (historyShown n e)
    rw [hhistory] at hafter ⊢
    refine ⟨hafter, ?_⟩
    have hworld := world_step env n e
    rcases historyShown_short n e with hnothing | ⟨event, hone⟩
    · rw [hnothing, LabelledRuns.run_nil] at hworld
      rw [hnothing, List.append_nil, hworld]
      exact hP
    · rw [hone, LabelledRuns.run_cons, LabelledRuns.run_nil, hbefore.world] at hworld
      rw [hone] at hafter ⊢
      rw [hworld]
      exact hstep history event hafter.nulFree (hbefore.world ▸ hP) (hworld ▸ hC.2.1)
  have hrun := hsimulates.run ⟨together_new env files, hstart⟩
    (LabelledRuns.along_and_of_forall hcalls hundisturbed)
  rw [LabelledRuns.run_snoc, List.nil_append] at hrun
  exact hrun.2

/-- For every schedule of calls of all clients, of writes and reads on all sockets, and of
connections, crashes and restarts. -/
theorem linearized_run (env : Env) (hclock : Monotone env.clock)
    (hsha : Function.Injective (sha256 env)) (files : ℕ → Option Bytes)
    (events : List NetworkEvent) (hcalls : ∀ e ∈ events, NulFreeCalls e)
    (hundisturbed : LabelledRuns.Along (Network.step env)
      (fun n e => (n.step env e).Undisturbed) (.new (World.initial env files)) events) :
    (system env files events).world =
        LabelledRuns.run (World.step env) (World.initial env files) (historyOf env files events) ∧
      ∀ c s, (system env files events).view c = some s →
        ∃ turns heard, Linearized env files (historyOf env files events) c s turns heard := by
  have htogether := together_run hcalls hundisturbed
  exact ⟨htogether.world, fun c s hview =>
    (htogether.attached c s hview).linearized hclock hsha htogether.nulFree⟩

/-- What is posted at one end of a link is written and read at the other. -/
def carriedUp (c : ConnId) : List NetworkEvent :=
  [.ends c .post, .ends c (.clientWriter .runPosted), .ends c (.clientWriter (.transmit 0 99)),
    .ends c .serverRead, .ends c .serverRead, .ends c (.clientWriter (.writeDone 0))]

def carriedDown (c : ConnId) : List NetworkEvent :=
  [.ends c (.serverWriter .runPosted), .ends c (.serverWriter (.transmit 0 99)),
    .ends c .clientRead, .ends c .clientRead, .ends c (.serverWriter (.writeDone 0))]

/-- "a" and "c" register at the same time, and "a" has asked "c" before it hears that it is
registered. -/
def twoClients : List NetworkEvent :=
  [.connect, .connect, .ends 0 (.call (.registerUser [97] [112])),
    .ends 1 (.call (.registerUser [99] [112]))] ++ carriedUp 1 ++ carriedUp 0 ++
    [.ends 0 (.setToken [97, 97, 97, 97]), .ends 0 (.call (.sendFriendRequest [99]))] ++
    carriedUp 0 ++ carriedDown 0

theorem linearized_run_twoClients :
    ∃ s, (system Env.plain (fun _ => none) twoClients).view 0 = some s ∧
      s.client.pendingRequests = [.friendRequest] ∧
      ∃ turns heard, Linearized Env.plain (fun _ => none)
        (historyOf Env.plain (fun _ => none) twoClients) 0 s turns heard := by
  have hsome : ((system Env.plain (fun _ => none) twoClients).view 0).isSome := by decide +kernel
  obtain ⟨s, hs⟩ := Option.isSome_iff_exists.mp hsome
  have hpending : ((system Env.plain (fun _ => none) twoClients).view 0).map
      (fun s => s.client.pendingRequests) = some [.friendRequest] := by decide +kernel
  rw [hs] at hpending
  exact ⟨s, hs, Option.some.inj hpending, (linearized_run Env.plain clock_plain_monotone
    Registrations.sha256_plain_injective (fun _ => none) twoClients (by decide +kernel)
    (by decide +kernel)).2 0 s hs⟩

end Messenger.Linearizations
