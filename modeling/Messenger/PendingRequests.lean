import Messenger.AnswerQueues
import Messenger.ClientAsyncHandler
import Messenger.ServerSends

/-!
One client and the server, joined by two queues of packets. A RESULT does not say what it
answers, so the client matches it with the oldest request in pending_requests. It is
right to do so: the server answers every request but LOGOUT with one RESULT, in order, and
what it pushes in between is never a RESULT.
-/
namespace Messenger.PendingRequests

open AnswerQueues ServerSteps ServerSends ClientAsyncHandler ClientHandlerQml

/-- `posting` is the packet of a call between its push to pending_requests and its
send_packet; `toServer` and `toClient` are the packets under way. -/
structure System where
  token : Bytes
  client : ClientAsyncHandler
  crashed : Bool
  posting : Option Packet
  toServer : List Packet
  world : World
  toClient : List Sent

/-- `server` is any event of the server but a packet of this client, which only `serve`
takes from the queue. -/
inductive SystemEvent where
  | call (c : ClientCall)
  | setToken (t : Bytes)
  | post
  | serve
  | server (e : Event)
  | receive
deriving DecidableEq, Repr

def comesFrom (c : ConnId) : Event → Bool
  | .packet d _ _ => d == c
  | _ => false

namespace System

/-- The client connects to a server in any state. -/
def start (w : World) : System := ⟨[], .new, false, none, [], w.accept, []⟩

/-- The server moves on; what it sends to `c` is under way. -/
def advance (s : System) (c : ConnId) (w : World) : System :=
  { s with
    world := w
    toClient := s.toClient ++ (w.sent.drop s.world.sent.length).filter (·.conn == c) }

/-- The calls come from one thread, each after the send_packet of the one before. -/
def step (env : Env) (c : ConnId) (s : System) : SystemEvent → System
  | .call call =>
    if s.posting.isSome then s
    else
      match packetOf env s.token call with
      | none => { s with token := tokenAfter s.token call }
      | some packet =>
        { s with
          token := tokenAfter s.token call
          posting := some packet
          client :=
            if packet.1 = .logout then s.client else s.client.pushRequest packet.1 }
  | .setToken t => { s with token := t }
  | .post => { s with posting := none, toServer := s.toServer ++ s.posting.toList }
  | .serve =>
    match s.toServer with
    | [] => s
    | (packetType, body) :: rest =>
      if s.world.status = .running ∧ (s.world.sessions c).isSome then
        { s.advance c (s.world.step env (.packet c packetType body)) with toServer := rest }
      else s
  | .server e => if comesFrom c e then s else s.advance c (s.world.step env e)
  | .receive =>
    if s.crashed then s
    else
      match s.toClient with
      | [] => s
      | p :: rest =>
        match (handlePacket p.packetType p.body).run s.client with
        | .ok _ client => { s with client := client, toClient := rest }
        | .error _ client => { s with client := client, toClient := rest, crashed := true }

/-- The server has not terminated, and lengths under way to the client fit their words. -/
def Undisturbed (s : System) : Prop :=
  s.world.status ≠ .terminated ∧ ∀ p ∈ s.toClient, p.body.length < 2 ^ 32

instance (s : System) : Decidable s.Undisturbed :=
  inferInstanceAs (Decidable (_ ∧ _))

end System

/-- The request that a RESULT answers. -/
def resultRequest (p : Sent) : Option PacketType :=
  if p.packetType = .result then answeredRequest p else none

/-- The call that is due for a RESULT, with the value its handler built. -/
def resultCallback (p : Sent) : Option Callback :=
  match p.cause with
  | .result _ r => callbackOf r
  | _ => none

/-- The types of the requests that wait for a RESULT. -/
def awaits (packet : Packet) : Option PacketType :=
  if packet.1 = .logout then none else some packet.1

/-- A packet as the server sends it: a push or an answer. -/
inductive Carried (p : Sent) : Prop where
  | push (h : IsPush p)
  | result (request : PacketType) (r : Response) (htype : p.packetType = .result)
      (hbody : p.body = r.serialize) (hcause : p.cause = .result request r)
      (hfits : HandlePacket.answers request r = true)

theorem Carried.isResult {p : Sent} (h : Carried p) (htype : p.packetType = .result) :
    ∃ request r, p.body = r.serialize ∧ p.cause = .result request r ∧
      HandlePacket.answers request r = true := by
  cases h with
  | push hpush =>
    rcases hpush.packet with hrelays | ⟨hdirect, -⟩
    · exact absurd htype hrelays.ne.1
    · cases htype.symm.trans hdirect
  | result request r _ hbody hcause hfits => exact ⟨request, r, hbody, hcause, hfits⟩

theorem resultRequest_result {p : Sent} {request : PacketType} {r : Response}
    (htype : p.packetType = .result) (hcause : p.cause = .result request r) :
    resultRequest p = some request := by
  rw [resultRequest, if_pos htype, answeredRequest, hcause]

theorem resultRequest_push {p : Sent} (h : IsPush p) : resultRequest p = none := by
  rw [resultRequest]
  split
  · exact h.cause
  · rfl

theorem resultCallback_push {p : Sent} (h : IsPush p) : resultCallback p = none := by
  have hcause := h.cause
  unfold answeredRequest at hcause
  unfold resultCallback
  split
  · rename_i request r hresult
    rw [hresult] at hcause
    cases hcause
  · rfl

theorem filterMap_pushes {l : List Sent} (h : ∀ p ∈ l, IsPush p) :
    l.filterMap resultRequest = [] :=
  List.filterMap_eq_nil_iff.mpr (fun p hp => resultRequest_push (h p hp))

theorem carried_answer {c : ConnId} {packetType : PacketType} {answer : List Sent}
    (h : AnswerTo c packetType answer) : ∀ p ∈ answer, Carried p := by
  intro p hp
  cases h with
  | none _ => cases hp
  | some r asLogin hfits =>
    rw [List.mem_singleton] at hp
    subst p
    exact .result packetType r rfl rfl rfl hfits

/-- One RESULT for a request of the client, and none for its LOGOUT. -/
theorem filterMap_answer {c : ConnId} {packetType : PacketType} {answer : List Sent}
    (body : Bytes) (h : AnswerTo c packetType answer)
    (hasked : packetType = .logout ∨ HandlePacket.awaitsResult packetType = true) :
    (answer.filter (·.conn == c)).filterMap resultRequest =
      (awaits (packetType, body)).toList := by
  cases h with
  | none hnone =>
    have hlogout : packetType = .logout := by
      rcases hasked with hlogout | hawaits
      · exact hlogout
      · rw [hnone] at hawaits
        cases hawaits
    subst hlogout
    rfl
  | some r asLogin hfits =>
    have hne : packetType ≠ .logout := by
      rintro rfl
      cases hfits
    rw [List.filter_cons_of_pos (by exact beq_self_eq_true c), List.filter_nil, awaits,
      if_neg hne]
    rfl

/-- What the server has sent to `c` since the state `w`. -/
def sentSince (w : World) (c : ConnId) (w' : World) : List Sent :=
  (w'.sent.drop w.sent.length).filter (·.conn == c)

structure Exchanging (w : World) (s : System) : Prop where
  inStep : InStep awaits resultRequest s.client.pendingRequests
    (s.toServer ++ s.posting.toList) s.toClient
  asked : ∀ packet ∈ s.toServer ++ s.posting.toList,
    packet.1 = .logout ∨ HandlePacket.awaitsResult packet.1 = true
  carried : ∀ p ∈ s.toClient, Carried p
  fits : ∀ p ∈ s.toClient, p.body.length < 2 ^ 32
  sent : w.sent.length ≤ s.world.sent.length
  values : s.client.callbacks.filter isAnswer ++ s.toClient.filterMap resultCallback =
    (sentSince w w.nextConn s.world).filterMap resultCallback
  alive : s.crashed = false

theorem exchanging_start (w : World) : Exchanging w (.start w) where
  inStep := inStep_nil
  asked := fun _ h => absurd h List.not_mem_nil
  carried := fun _ h => absurd h List.not_mem_nil
  fits := fun _ h => absurd h List.not_mem_nil
  sent := le_rfl
  values := by
    have hnone : sentSince w w.nextConn w.accept = [] := by
      rw [sentSince, World.accept, List.drop_length, List.filter_nil]
    change [] = (sentSince w w.nextConn w.accept).filterMap resultCallback
    rw [hnone, List.filterMap_nil]
  alive := rfl

section

variable {w : World} {s : System}

theorem toClient_advance {c : ConnId} {w' : World} {new : List Sent}
    (hsent : w'.sent = s.world.sent ++ new) :
    (s.advance c w').toClient = s.toClient ++ new.filter (·.conn == c) := by
  rw [System.advance, hsent, List.drop_left]

/-- What has been sent and not yet received grows with what is sent. -/
theorem values_advance {w' : World} {new : List Sent} (hle : w.sent.length ≤ s.world.sent.length)
    (hsent : w'.sent = s.world.sent ++ new)
    (h : s.client.callbacks.filter isAnswer ++ s.toClient.filterMap resultCallback =
      (sentSince w w.nextConn s.world).filterMap resultCallback) :
    s.client.callbacks.filter isAnswer ++
        (s.advance w.nextConn w').toClient.filterMap resultCallback =
      (sentSince w w.nextConn w').filterMap resultCallback := by
  have hsince : sentSince w w.nextConn w' =
      sentSince w w.nextConn s.world ++ new.filter (·.conn == w.nextConn) := by
    rw [sentSince, hsent, List.drop_append_of_le_length hle, List.filter_append, sentSince]
  rw [toClient_advance hsent, hsince, List.filterMap_append, List.filterMap_append, ← h,
    List.append_assoc]

theorem Exchanging.call (h : Exchanging w s) (env : Env) (c : ClientCall) :
    Exchanging w (s.step env w.nextConn (.call c)) := by
  simp only [System.step]
  split
  · exact h
  rename_i hidle
  have hnone : s.posting = none := by
    rwa [Bool.not_eq_true, Option.isSome_eq_false_iff, Option.isNone_iff_eq_none] at hidle
  split
  · exact ⟨h.inStep, h.asked, h.carried, h.fits, h.sent, h.values, h.alive⟩
  · rename_i packet hpacket
    have hinStep := h.inStep.ask packet
    have hasked := h.asked
    rw [hnone, Option.toList_none, List.append_nil] at hinStep hasked
    refine ⟨?_, ?_, h.carried, h.fits, h.sent, ?_, h.alive⟩
    · change InStep awaits resultRequest
        (if packet.1 = .logout then s.client else s.client.pushRequest packet.1).pendingRequests
        (s.toServer ++ [packet]) s.toClient
      by_cases hlogout : packet.1 = .logout
      · rw [if_pos hlogout]
        rwa [awaits, if_pos hlogout, Option.toList_none, List.append_nil] at hinStep
      · rw [if_neg hlogout]
        rwa [awaits, if_neg hlogout] at hinStep
    · exact List.forall_mem_append.mpr
        ⟨hasked, List.forall_mem_singleton.mpr (packetOf_type hpacket)⟩
    · have hcallbacks : (if packet.1 = .logout then s.client
          else s.client.pushRequest packet.1).callbacks = s.client.callbacks := by
        split <;> rfl
      rw [hcallbacks]
      exact h.values

theorem Exchanging.post (h : Exchanging w s) (env : Env) :
    Exchanging w (s.step env w.nextConn .post) := by
  have hrequests : (s.step env w.nextConn .post).toServer ++
      (s.step env w.nextConn .post).posting.toList = s.toServer ++ s.posting.toList :=
    List.append_nil _
  refine ⟨?_, ?_, h.carried, h.fits, h.sent, h.values, h.alive⟩
  · rw [hrequests]
    exact h.inStep
  · rw [hrequests]
    exact h.asked

/-- The server moves on, having taken what is no longer in `rest`. -/
theorem Exchanging.advance (h : Exchanging w s) {w' : World} {new : List Sent}
    {rest : List Packet} (hsent : w'.sent = s.world.sent ++ new)
    (hinStep : InStep awaits resultRequest s.client.pendingRequests (rest ++ s.posting.toList)
      (s.toClient ++ new.filter (·.conn == w.nextConn)))
    (hrest : ∀ packet ∈ rest, packet ∈ s.toServer)
    (hcarried : ∀ p ∈ new.filter (·.conn == w.nextConn), Carried p)
    (hfits : ∀ p ∈ (s.advance w.nextConn w').toClient, p.body.length < 2 ^ 32) :
    Exchanging w { s.advance w.nextConn w' with toServer := rest } where
  inStep := by
    rw [← toClient_advance hsent] at hinStep
    exact hinStep
  asked packet hpacket := by
    refine h.asked packet (List.mem_append.mpr ?_)
    rcases List.mem_append.mp hpacket with hold | hposting
    · exact Or.inl (hrest packet hold)
    · exact Or.inr hposting
  carried := by
    change ∀ p ∈ (s.advance w.nextConn w').toClient, Carried p
    rw [toClient_advance hsent]
    exact List.forall_mem_append.mpr ⟨h.carried, hcarried⟩
  fits := hfits
  sent := by
    change w.sent.length ≤ w'.sent.length
    rw [hsent, List.length_append]
    exact Nat.le_add_right_of_le h.sent
  values := values_advance h.sent hsent h.values
  alive := h.alive

theorem Exchanging.serve (h : Exchanging w s) (env : Env)
    (hup : (s.step env w.nextConn .serve).Undisturbed) :
    Exchanging w (s.step env w.nextConn .serve) := by
  cases hqueue : s.toServer with
  | nil =>
    have hstep : s.step env w.nextConn .serve = s := by simp only [System.step, hqueue]
    rw [hstep]
    exact h
  | cons packet rest =>
    obtain ⟨packetType, body⟩ := packet
    by_cases hready : s.world.status = .running ∧ (s.world.sessions w.nextConn).isSome
    · have hstep : s.step env w.nextConn .serve =
          { s.advance w.nextConn (s.world.receive env w.nextConn packetType body) with
            toServer := rest } := by
        simp only [System.step, hqueue, World.step, if_pos hready]
      rw [hstep] at hup ⊢
      obtain ⟨pushes, answer, hsent, hpushes, hanswer⟩ :=
        receive_sends env packetType body hready.2 hup.1
      have hinStep := h.inStep
      rw [hqueue, List.cons_append] at hinStep
      have hasked := h.asked (packetType, body)
        (List.mem_append_left _ (hqueue ▸ List.mem_cons_self))
      have hnew : ((pushes ++ answer).filter (·.conn == w.nextConn)).filterMap resultRequest =
          (awaits (packetType, body)).toList := by
        rw [List.filter_append, List.filterMap_append,
          filterMap_pushes (fun p hp => hpushes p (List.mem_of_mem_filter hp)), List.nil_append]
        exact filterMap_answer body hanswer hasked
      refine h.advance hsent (hinStep.serve hnew) ?_ ?_ hup.2
      · intro packet hpacket
        rw [hqueue]
        exact List.mem_cons_of_mem _ hpacket
      · intro p hp
        rcases List.mem_append.mp (List.mem_of_mem_filter hp) with hpush | hmem
        · exact .push (hpushes p hpush)
        · exact carried_answer hanswer p hmem
    · have hstep : s.step env w.nextConn .serve = s := by
        simp only [System.step, hqueue, if_neg hready]
      rw [hstep]
      exact h

theorem Exchanging.server (h : Exchanging w s) (env : Env) (e : Event)
    (hup : (s.step env w.nextConn (.server e)).Undisturbed) :
    Exchanging w (s.step env w.nextConn (.server e)) := by
  by_cases hfrom : comesFrom w.nextConn e = true
  · have hstep : s.step env w.nextConn (.server e) = s := by
      simp only [System.step, if_pos hfrom]
    rw [hstep]
    exact h
  · have hstep : s.step env w.nextConn (.server e) =
        s.advance w.nextConn (s.world.step env e) := by
      simp only [System.step, if_neg hfrom]
    have hother : ∀ packetType body, e ≠ .packet w.nextConn packetType body := by
      rintro packetType body rfl
      exact hfrom (beq_self_eq_true w.nextConn)
    rw [hstep] at hup ⊢
    obtain ⟨new, hsent, hpushes⟩ := step_pushes env hother hup.1
    have hmine : ∀ p ∈ new.filter (·.conn == w.nextConn), IsPush p := by
      intro p hp
      obtain ⟨hmem, hconn⟩ := List.mem_filter.mp hp
      exact hpushes p hmem (eq_of_beq hconn)
    exact h.advance hsent (h.inStep.push (filterMap_pushes hmine)) (fun _ hp => hp)
      (fun p hp => .push (hmine p hp)) hup.2

/-- The next RESULT answers the oldest open request, and is decoded as its answer. -/
theorem Exchanging.nextResult (h : Exchanging w s) {p : Sent} {rest : List Sent}
    {request : PacketType} {r : Response} (hqueue : s.toClient = p :: rest)
    (htype : p.packetType = .result) (hbody : p.body = r.serialize)
    (hcause : p.cause = .result request r) (hfits : HandlePacket.answers request r = true) :
    ∃ pending messages, s.client.pendingRequests = request :: pending ∧
      InStep awaits resultRequest pending (s.toServer ++ s.posting.toList) rest ∧
      (handlePacket p.packetType p.body).run s.client =
        .ok () ⟨pending, messages, s.client.callbacks ++ (callbackOf r).toList⟩ := by
  have hinStep := h.inStep
  rw [hqueue] at hinStep
  obtain ⟨pending, hpending, hstill⟩ :=
    hinStep.takeAnswer (resultRequest_result htype hcause)
  have hlen := h.fits p (hqueue ▸ List.mem_cons_self)
  rw [hbody] at hlen
  obtain ⟨messages, hrun⟩ := handlePacket_result hpending hfits hlen
  rw [htype, hbody]
  exact ⟨pending, messages, hpending, hstill, hrun⟩

/-- How the client handles the next packet. -/
theorem Exchanging.next (h : Exchanging w s) {p : Sent} {rest : List Sent}
    (hqueue : s.toClient = p :: rest) :
    ∃ pending messages callbacks,
      (handlePacket p.packetType p.body).run s.client =
        .ok () ⟨pending, messages, s.client.callbacks ++ callbacks⟩ ∧
      InStep awaits resultRequest pending (s.toServer ++ s.posting.toList) rest ∧
      callbacks.filter isAnswer = (resultCallback p).toList := by
  have hmem : p ∈ s.toClient := hqueue ▸ List.mem_cons_self
  cases h.carried p hmem with
  | push hpush =>
    have hinStep := h.inStep
    rw [hqueue] at hinStep
    have hlen := h.fits p hmem
    obtain ⟨messages, callback, hcallback, hrun⟩ := handlePacket_push hpush.packet hlen s.client
    refine ⟨_, messages, [callback], hrun, hinStep.takePush (resultRequest_push hpush), ?_⟩
    rw [resultCallback_push hpush, List.filter_cons_of_neg (by rw [hcallback]; decide)]
    rfl
  | result request r htype hbody hcause hfits =>
    obtain ⟨pending, messages, -, hstill, hrun⟩ :=
      h.nextResult hqueue htype hbody hcause hfits
    refine ⟨pending, messages, _, hrun, hstill, ?_⟩
    rw [filter_isAnswer_callbackOf, resultCallback, hcause]

theorem Exchanging.receive (h : Exchanging w s) (env : Env) :
    Exchanging w (s.step env w.nextConn .receive) := by
  have halive : ¬ s.crashed = true := by
    rw [h.alive]
    exact Bool.false_ne_true
  cases hqueue : s.toClient with
  | nil =>
    have hstep : s.step env w.nextConn .receive = s := by
      simp only [System.step, if_neg halive, hqueue]
    rw [hstep]
    exact h
  | cons p rest =>
    obtain ⟨pending, messages, callbacks, hrun, hinStep, hcallbacks⟩ := h.next hqueue
    have hstep : s.step env w.nextConn .receive =
        { s with
          client := ⟨pending, messages, s.client.callbacks ++ callbacks⟩
          toClient := rest } := by
      simp only [System.step, if_neg halive, hqueue, hrun]
    have hrest : ∀ q ∈ rest, q ∈ s.toClient := by
      intro q hq
      rw [hqueue]
      exact List.mem_cons_of_mem _ hq
    rw [hstep]
    refine ⟨hinStep, h.asked, fun q hq => h.carried q (hrest q hq),
      fun q hq => h.fits q (hrest q hq), h.sent, ?_, h.alive⟩
    have hvalues := h.values
    have hfirst : (p :: rest).filterMap resultCallback =
        (resultCallback p).toList ++ rest.filterMap resultCallback := by
      cases hp : resultCallback p <;> simp [hp]
    rw [hqueue, hfirst, ← hcallbacks] at hvalues
    rw [← hvalues, List.filter_append, List.append_assoc]

theorem Exchanging.step (env : Env) (e : SystemEvent) (h : Exchanging w s)
    (hup : (s.step env w.nextConn e).Undisturbed) : Exchanging w (s.step env w.nextConn e) := by
  cases e with
  | call c => exact h.call env c
  | setToken t => exact ⟨h.inStep, h.asked, h.carried, h.fits, h.sent, h.values, h.alive⟩
  | post => exact h.post env
  | serve => exact h.serve env hup
  | server e => exact h.server env e hup
  | receive => exact h.receive env

end

/-- The queue of open requests is right, and so is what is done with it: `next` is the
RESULT that the client handles next, `values` all that it has handled. -/
structure Matched (w : World) (s : System) : Prop where
  pending : s.client.pendingRequests =
    s.toClient.filterMap resultRequest ++ (s.toServer ++ s.posting.toList).filterMap awaits
  results : ∀ p ∈ s.toClient, p.packetType = .result → (resultRequest p).isSome
  next : ∀ p rest, s.toClient = p :: rest → p.packetType = .result →
    ∃ request r pending messages, p.cause = .result request r ∧ p.body = r.serialize ∧
      HandlePacket.answers request r = true ∧ s.client.pendingRequests = request :: pending ∧
      (handlePacket p.packetType p.body).run s.client =
        .ok () ⟨pending, messages, s.client.callbacks ++ (callbackOf r).toList⟩
  values : s.client.callbacks.filter isAnswer ++ s.toClient.filterMap resultCallback =
    (sentSince w w.nextConn s.world).filterMap resultCallback
  alive : s.crashed = false

theorem Exchanging.matched {w : World} {s : System} (h : Exchanging w s) : Matched w s where
  pending := h.inStep
  results p hp htype := by
    obtain ⟨request, r, -, hcause, -⟩ := (h.carried p hp).isResult htype
    rw [resultRequest_result htype hcause]
    rfl
  next p rest hqueue htype := by
    obtain ⟨request, r, hbody, hcause, hfits⟩ :=
      (h.carried p (hqueue ▸ List.mem_cons_self)).isResult htype
    obtain ⟨pending, messages, hpending, -, hrun⟩ :=
      h.nextResult hqueue htype hbody hcause hfits
    exact ⟨request, r, pending, messages, hcause, hbody, hfits, hpending, hrun⟩
  values := h.values
  alive := h.alive

/-- In every run in which the server stays up and lengths fit, each RESULT finds the type
of its own request at the head of the queue and is decoded to the value that was sent. -/
theorem matched_run (env : Env) (w : World) (events : List SystemEvent)
    (hundisturbed : LabelledRuns.Along (System.step env w.nextConn)
      (fun s e => (s.step env w.nextConn e).Undisturbed) (.start w) events) :
    Matched w (LabelledRuns.run (System.step env w.nextConn) (.start w) events) := by
  have hexchanging := LabelledRuns.invariant_along
    (fun s e h hup => Exchanging.step (s := s) env e h hup) (exchanging_start w) hundisturbed
  exact hexchanging.matched

/-- "a" is there already. -/
def generalChat : World :=
  LabelledRuns.run (World.step Env.plain) (World.initial Env.plain fun _ => none)
    [.connect, registerEvent 0 [97]]

/-- "c" registers; "a" writes to the general chat before the RESULT is received; then
three requests and a LOGOUT are open at various stages. -/
def overlapping : List SystemEvent :=
  [.call (.registerUser [99] [112]), .post, .serve, .call .getFriendList,
    .server (.packet 0 .message (serialize (ChatSendRequest.mk [97, 97] [104]))),
    .receive, .setToken [97, 97, 97, 97], .post, .call (.sendMessageGeneralChat [104]), .post,
    .receive, .serve, .serve, .call .logout, .post, .call .getLastMessages]

theorem matched_run_overlapping :
    (LabelledRuns.run (System.step Env.plain generalChat.nextConn) (.start generalChat)
      overlapping).client.pendingRequests = [.friendList, .message, .chatList] ∧
    Matched generalChat (LabelledRuns.run (System.step Env.plain generalChat.nextConn)
      (.start generalChat) overlapping) :=
  ⟨by decide, matched_run Env.plain generalChat overlapping (by decide)⟩

end Messenger.PendingRequests
