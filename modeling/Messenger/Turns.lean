import Messenger.Networks
import Messenger.TokenIdentity

/-!
The turns of one connection: the requests of it that the server has taken, each with the
state of the server in which it was taken and with its RESULT. The turns follow each other
in the order in which the requests were posted, and the RESULTs go out in the same order.
-/
namespace Messenger.Turns

open Outcomes ClientSession HandlePacket ServerSteps ServerSends NetworkSession
  PendingRequests WiredLinks Networks TokenIdentity

/-- `before` is all that happened to the server before the request was taken. -/
structure Turn where
  before : List Event
  packetType : PacketType
  body : Bytes
  response : Response
deriving DecidableEq, Repr

def Turn.request (turn : Turn) : Packet := (turn.packetType, turn.body)

def Turn.event (c : ConnId) (turn : Turn) : Event := .packet c turn.packetType turn.body

/-- The request and the value of a RESULT. -/
def resultOf (p : Sent) : Option (PacketType × Response) :=
  match p.cause with
  | .result request r => some (request, r)
  | _ => none

def isAwaited (packet : Packet) : Bool := (awaits packet).isSome

/-- The packet of the connection in an event of the server. -/
def packetFrom (c : ConnId) : Event → Option Packet
  | .packet d packetType body => if d = c then some (packetType, body) else none
  | _ => none

theorem packetFrom_none {c : ConnId} {e : Event} (h : comesFrom c e = false) :
    packetFrom c e = none := by
  cases e with
  | packet d packetType body =>
    simp only [comesFrom, beq_eq_false_iff_ne] at h
    simp only [packetFrom, if_neg h]
  | _ => rfl

/-- The turn was taken by a server that had gone through `history` as far as that. -/
structure Turn.Taken (env : Env) (w₀ : World) (c : ConnId) (history : List Event) (turn : Turn) :
    Prop where
  point : turn.before ++ [turn.event c] <+: history
  live : ((LabelledRuns.run (World.step env) w₀ turn.before).sessions c).isSome
  answered : AnsweredWith env (LabelledRuns.run (World.step env) w₀ turn.before) c turn.packetType
    turn.body turn.response

/-- All turns of the connection that was accepted in `w`. -/
structure Turned (env : Env) (w₀ w : World) (history : List Event) (s : WiredSystem)
    (turns : List Turn) : Prop where
  requests : s.uplink.reader.delivered.filter isAwaited = turns.map Turn.request
  results : (sentSince w w.nextConn s.world).filterMap resultOf =
    turns.map fun turn => (turn.packetType, turn.response)
  taken : ∀ turn ∈ turns, turn.Taken env w₀ w.nextConn history
  order : turns.Pairwise fun turn later => turn.before ++ [turn.event w.nextConn] <+: later.before

theorem resultOf_push {p : Sent} (h : IsPush p) : resultOf p = none := by
  have hcause := h.cause
  unfold answeredRequest at hcause
  unfold resultOf
  split
  · rename_i request r hresult
    rw [hresult] at hcause
    cases hcause
  · rfl

theorem filterMap_resultOf_pushes {l : List Sent} (h : ∀ p ∈ l, IsPush p) :
    l.filterMap resultOf = [] :=
  List.filterMap_eq_nil_iff.mpr fun p hp => resultOf_push (h p hp)

/-- A packet that does not end the server is followed by pushes, and then by a RESULT if it
awaits one. -/
theorem receive_answers (env : Env) {w : World} {c : ConnId} (packetType : PacketType)
    (body : Bytes) (hlive : (w.sessions c).isSome)
    (hup : (w.receive env c packetType body).status ≠ .terminated) :
    ∃ pushes, (∀ p ∈ pushes, IsPush p) ∧
      ((awaitsResult packetType = false ∧
          (w.receive env c packetType body).sent = w.sent ++ pushes) ∨
        ∃ r p, resultOf p = some (packetType, r) ∧ p.conn = c ∧
          answers packetType r = true ∧ AnsweredWith env w c packetType body r ∧
          (w.receive env c packetType body).sent = w.sent ++ (pushes ++ [p])) := by
  have hpushes := dispatch_onlyPushes env c packetType body w
  have hfits := dispatch_fitsRequest env c body packetType
  have hcases := handlePacket_handling env packetType body hlive
  unfold World.receive at hup ⊢
  generalize hrun : (handlePacket env c packetType body).run w = result at hcases hup
  -- the switch has come to its end in `w₁`, and all that was sent up to then are pushes
  have answered : ∀ (w₁ : World) (r : Option Response), FitsRequest packetType r →
      (handlePacket env c packetType body).run w = .ok () (withAnswer w₁ c packetType r) →
      OnlyPushes w w₁ → ∃ pushes, (∀ p ∈ pushes, IsPush p) ∧
        ((awaitsResult packetType = false ∧
            (withAnswer w₁ c packetType r).sent = w.sent ++ pushes) ∨
          ∃ r' p, resultOf p = some (packetType, r') ∧ p.conn = c ∧
            answers packetType r' = true ∧ AnsweredWith env w c packetType body r' ∧
            (withAnswer w₁ c packetType r).sent = w.sent ++ (pushes ++ [p])) := by
    intro w₁ r hfit hend honly
    obtain ⟨pushes, hsent, hall⟩ := honly
    refine ⟨pushes, hall, ?_⟩
    cases r with
    | none => exact Or.inl ⟨hfit, hsent⟩
    | some r =>
      have hwhole : (withAnswer w₁ c packetType (some r)).sent = w.sent ++ pushes ++
          [⟨c, .result, r.serialize, .result packetType r, w₁.currentLogin c⟩] := by
        rw [← hsent]
        rfl
      refine Or.inr ⟨r, ⟨c, .result, r.serialize, .result packetType r, w₁.currentLogin c⟩,
        rfl, rfl, hfit, ⟨_, pushes, hend, hwhole⟩, ?_⟩
      rw [hwhole, List.append_assoc]
  cases hcases with
  | thrown e w₁ hend => exact absurd rfl hup
  | undelivered r login w₁ e handed hend _ => exact absurd rfl hup
  | answered r w₁ hend =>
    rw [hend, final_ok] at hpushes
    exact answered w₁ r (hfits w _ w₁ hend) hrun hpushes
  | welcomed r login w₁ hend _ hsenders =>
    have hlive₁ : (w₁.sessions c).isSome := (unseen_of_dispatch hend).2.logins.live hlive
    rw [hend, final_ok] at hpushes
    exact answered _ r (hfits w _ w₁ hend) hrun
      (hpushes.trans (welcomed_onlyPushes env hlive₁ hsenders))

theorem Turn.Taken.append {env : Env} {w₀ : World} {c : ConnId} {history : List Event}
    {turn : Turn} (h : turn.Taken env w₀ c history) (later : List Event) :
    turn.Taken env w₀ c (history ++ later) :=
  ⟨h.point.trans (List.prefix_append _ _), h.live, h.answered⟩

section

variable {env : Env} {w₀ w : World} {s s' : WiredSystem} {t : System} {history : List Event}
  {turns : List Turn}

theorem turned_start (env : Env) (w₀ w : World) (history : List Event) :
    Turned env w₀ w history (.start w) [] where
  requests := rfl
  results := by
    have hnone : sentSince w w.nextConn w.accept = [] := by
      rw [sentSince, World.accept, List.drop_length, List.filter_nil]
    change (sentSince w w.nextConn w.accept).filterMap resultOf = []
    rw [hnone, List.filterMap_nil]
  taken := fun _ h => absurd h List.not_mem_nil
  order := List.Pairwise.nil

/-- Nothing of this connection was taken. -/
theorem Turned.quiet (h : Turned env w₀ w history s turns) {new : List Sent}
    (hle : w.sent.length ≤ s.world.sent.length) (hsent : s'.world.sent = s.world.sent ++ new)
    (hnew : (new.filter (·.conn == w.nextConn)).filterMap resultOf = [])
    (huplink : s'.uplink.reader.delivered = s.uplink.reader.delivered) (later : List Event) :
    Turned env w₀ w (history ++ later) s' turns where
  requests := by
    rw [huplink]
    exact h.requests
  results := by
    rw [sentSince_append hle hsent, List.filterMap_append, hnew, List.append_nil]
    exact h.results
  taken turn hturn := (h.taken turn hturn).append later
  order := h.order

theorem Turned.same (h : Turned env w₀ w history s turns)
    (hle : w.sent.length ≤ s.world.sent.length) (hsent : s'.world.sent = s.world.sent)
    (huplink : s'.uplink.reader.delivered = s.uplink.reader.delivered) (later : List Event) :
    Turned env w₀ w (history ++ later) s' turns := by
  have hnothing : s'.world.sent = s.world.sent ++ [] := by rw [hsent, List.append_nil]
  exact h.quiet hle hnothing rfl huplink later

/-- A request was taken and answered. -/
theorem Turned.answered (h : Turned env w₀ w history s turns) {packetType : PacketType}
    {body : Bytes} {r : Response} {pushes : List Sent} {p : Sent}
    (hle : w.sent.length ≤ s.world.sent.length)
    (hworld : s.world = LabelledRuns.run (World.step env) w₀ history)
    (hlive : (s.world.sessions w.nextConn).isSome)
    (hsent : s'.world.sent = s.world.sent ++ (pushes ++ [p]))
    (hpushes : ∀ p ∈ pushes, IsPush p) (hp : resultOf p = some (packetType, r))
    (hconn : p.conn = w.nextConn) (hne : packetType ≠ .logout)
    (hanswered : AnsweredWith env s.world w.nextConn packetType body r)
    (huplink : s'.uplink.reader.delivered = s.uplink.reader.delivered ++ [(packetType, body)]) :
    Turned env w₀ w (history ++ [.packet w.nextConn packetType body]) s'
      (turns ++ [⟨history, packetType, body, r⟩]) where
  requests := by
    have hawaited : isAwaited (packetType, body) = true := by
      simp only [isAwaited, awaits, if_neg hne, Option.isSome_some]
    rw [huplink, List.filter_append, List.filter_cons_of_pos hawaited, List.filter_nil,
      h.requests, List.map_append]
    rfl
  results := by
    have hmine : (p.conn == w.nextConn) = true := by rw [hconn, beq_self_eq_true]
    have hone : ((pushes ++ [p]).filter (·.conn == w.nextConn)).filterMap resultOf =
        [(packetType, r)] := by
      rw [List.filter_append, List.filterMap_append,
        filterMap_resultOf_pushes fun q hq => hpushes q (List.mem_of_mem_filter hq),
        List.nil_append, List.filter_cons_of_pos (by exact hmine), List.filter_nil,
        List.filterMap_cons, hp]
      rfl
    rw [sentSince_append hle hsent, List.filterMap_append, hone, h.results, List.map_append]
    rfl
  taken turn hturn := by
    rcases List.mem_append.mp hturn with hold | hnew
    · exact (h.taken turn hold).append _
    · rw [List.mem_singleton] at hnew
      subst turn
      rw [hworld] at hlive hanswered
      exact ⟨List.prefix_refl _, hlive, hanswered⟩
  order := by
    refine List.pairwise_append.mpr ⟨h.order, List.pairwise_singleton _ _, ?_⟩
    intro turn hturn later hlater
    rw [List.mem_singleton] at hlater
    subst later
    exact (h.taken turn hturn).point

/-- A request that does not await a RESULT has none, and any other has its own. -/
theorem Turned.serverRead (hexchanged : Exchanged w s t) (h : Turned env w₀ w history s turns)
    (hworld : s.world = LabelledRuns.run (World.step env) w₀ history)
    (hup : (s.step env w.nextConn .serverRead).Undisturbed) :
    ∃ turns', Turned env w₀ w (history ++ serverShown w.nextConn s .serverRead)
      (s.step env w.nextConn .serverRead) turns' := by
  have hle : w.sent.length ≤ s.world.sent.length :=
    hexchanged.stands.world ▸ hexchanged.exchanging.sent
  by_cases hready : s.world.status = .running ∧ (s.world.sessions w.nextConn).isSome
  · rcases hexchanged.stands.uplink.read with
      ⟨hnone, hstill⟩ | ⟨⟨packetType, body⟩, rest, hsome, hqueue, hrest⟩
    · have hsame := Holds.delivered_eq [] hexchanged.stands.uplink hstill (sent_read _)
      rw [List.append_nil] at hsame
      refine ⟨turns, ?_⟩
      simp only [WiredSystem.step, if_pos hready, hnone]
      refine h.same hle ?_ hsame _
      rfl
    · have huplink := hexchanged.stands.uplink
      rw [hqueue] at huplink
      have hone := Holds.delivered_eq [(packetType, body)] huplink hrest (sent_read _)
      have hreceive : s.world.step env (.packet w.nextConn packetType body) =
          s.world.receive env w.nextConn packetType body := by
        simp only [World.step, if_pos hready]
      simp only [WiredSystem.step, if_pos hready, hsome, hreceive] at hup
      have hasked := hexchanged.exchanging.asked (packetType, body)
        (List.mem_append_left _ (hqueue ▸ List.mem_cons_self))
      obtain ⟨pushes, hpushes, hcases⟩ :=
        receive_answers env packetType body hready.2 hup.1
      simp only [WiredSystem.step, serverShown, if_pos hready, hsome, hreceive,
        Option.toList_some, List.map_cons, List.map_nil]
      rcases hcases with ⟨hunawaited, hsent⟩ | ⟨r, p, hp, hconn, hfits, hanswered, hsent⟩
      · have hlogout : packetType = .logout := by
          rcases hasked with hlogout | hawaits
          · exact hlogout
          · rw [hunawaited] at hawaits
            cases hawaits
        have hsilent : isAwaited (packetType, body) = false := by
          simp only [isAwaited, awaits, if_pos hlogout, Option.isSome_none]
        have hnew : (pushes.filter (·.conn == w.nextConn)).filterMap resultOf = [] :=
          filterMap_resultOf_pushes fun q hq => hpushes q (List.mem_of_mem_filter hq)
        have hquiet : Turned env w₀ w (history ++ [.packet w.nextConn packetType body])
            (s.advance w.nextConn (s.world.receive env w.nextConn packetType body)) turns := by
          refine h.quiet hle ?_ hnew ?_ _
          · exact hsent
          · rfl
        refine ⟨turns, ?_, hquiet.results, hquiet.taken, hquiet.order⟩
        rw [hone, List.filter_append, List.filter_cons_of_neg (by rw [hsilent]; decide),
          List.filter_nil, List.append_nil]
        exact h.requests
      · have hne : packetType ≠ .logout := by
          rintro rfl
          cases hfits
        exact ⟨_, h.answered hle hworld hready.2 hsent hpushes hp hconn hne hanswered hone⟩
  · refine ⟨turns, ?_⟩
    simp only [WiredSystem.step, if_neg hready]
    exact h.same hle rfl rfl _

theorem Turned.server (hexchanged : Exchanged w s t) (h : Turned env w₀ w history s turns)
    (e : Event) (hup : (s.step env w.nextConn (.server e)).Undisturbed) :
    Turned env w₀ w (history ++ serverShown w.nextConn s (.server e))
      (s.step env w.nextConn (.server e)) turns := by
  have hle : w.sent.length ≤ s.world.sent.length :=
    hexchanged.stands.world ▸ hexchanged.exchanging.sent
  simp only [WiredSystem.step] at hup ⊢
  by_cases hfrom : comesFrom w.nextConn e = true
  · rw [if_pos hfrom]
    exact h.same hle rfl rfl _
  · rw [if_neg hfrom] at hup ⊢
    have hother : ∀ packetType body, e ≠ .packet w.nextConn packetType body := by
      rintro packetType body rfl
      exact hfrom (beq_self_eq_true w.nextConn)
    obtain ⟨new, hsent, hpushes⟩ := step_pushes env hother hup.1
    have hnew : (new.filter (·.conn == w.nextConn)).filterMap resultOf = [] :=
      filterMap_resultOf_pushes fun p hp =>
        hpushes p (List.mem_of_mem_filter hp) (eq_of_beq (List.mem_filter.mp hp).2)
    refine h.quiet hle ?_ hnew ?_ _
    · exact hsent
    · rfl

theorem Turned.step (hexchanged : Exchanged w s t) (h : Turned env w₀ w history s turns)
    (hworld : s.world = LabelledRuns.run (World.step env) w₀ history) (e : WiredEvent)
    (hup : (s.step env w.nextConn e).Undisturbed) :
    ∃ turns', Turned env w₀ w (history ++ serverShown w.nextConn s e)
      (s.step env w.nextConn e) turns' := by
  have hle : w.sent.length ≤ s.world.sent.length :=
    hexchanged.stands.world ▸ hexchanged.exchanging.sent
  cases e with
  | serverRead => exact h.serverRead hexchanged hworld hup
  | server e => exact ⟨turns, h.server hexchanged e hup⟩
  | call call =>
    refine ⟨turns, h.same hle ?_ ?_ _⟩ <;>
    · simp only [WiredSystem.step]
      split
      · rfl
      · split <;> rfl
  | post =>
    refine ⟨turns, h.same hle ?_ ?_ _⟩ <;>
    · simp only [WiredSystem.step]
      split <;> rfl
  | clientRead =>
    refine ⟨turns, h.same hle ?_ ?_ _⟩ <;>
    · simp only [WiredSystem.step]
      split
      · rfl
      · split
        · rfl
        · split <;> rfl
  | serverReadFailed =>
    refine ⟨turns, h.same hle ?_ ?_ _⟩
    · rfl
    · simp only [WiredSystem.step, Connection.step]
      split <;> rfl
  | setToken _ | clientWriter _ | serverWriter _ | clientReadFailed =>
    refine ⟨turns, h.same hle ?_ ?_ _⟩ <;> rfl

theorem filterMap_packetFrom (c : ConnId) (packets : List Packet) :
    (packets.map fun packet => Event.packet c packet.1 packet.2).filterMap (packetFrom c) =
      packets := by
  rw [List.filterMap_map]
  have hsome : packetFrom c ∘ (fun packet : Packet => Event.packet c packet.1 packet.2) = some :=
    funext fun packet => if_pos rfl
  rw [hsome, List.filterMap_some]

/-- The session reads a packet exactly when the server takes it. -/
theorem delivered_step (env : Env) (s : WiredSystem) (c : ConnId) (e : WiredEvent) :
    (s.step env c e).uplink.reader.delivered =
      s.uplink.reader.delivered ++ (serverShown c s e).filterMap (packetFrom c) := by
  have quiet : ∀ events : List Event, (∀ event ∈ events, packetFrom c event = none) →
      (s.step env c e).uplink.reader.delivered = s.uplink.reader.delivered →
      (s.step env c e).uplink.reader.delivered =
        s.uplink.reader.delivered ++ events.filterMap (packetFrom c) := by
    intro events hevents hsame
    rw [List.filterMap_eq_nil_iff.mpr hevents, List.append_nil, hsame]
  have nothing : ∀ event ∈ ([] : List Event), packetFrom c event = none :=
    fun _ hevent => absurd hevent List.not_mem_nil
  cases e with
  | serverRead =>
    simp only [WiredSystem.step, serverShown]
    split
    · rw [filterMap_packetFrom, ← delivered_read]
      cases handed s.uplink <;> rfl
    · rw [List.filterMap_nil, List.append_nil]
  | server e =>
    refine quiet _ (fun event hevent => ?_) ?_
    · simp only [serverShown] at hevent
      split at hevent
      · cases hevent
      · rename_i hother
        obtain rfl := List.mem_singleton.mp hevent
        exact packetFrom_none (Bool.not_eq_true _ ▸ hother)
    · simp only [WiredSystem.step]
      split <;> rfl
  | call call =>
    refine quiet [] nothing ?_
    simp only [WiredSystem.step]
    split
    · rfl
    · split <;> rfl
  | post =>
    refine quiet [] nothing ?_
    simp only [WiredSystem.step]
    split <;> rfl
  | clientRead =>
    refine quiet [] nothing ?_
    simp only [WiredSystem.step]
    split
    · rfl
    · split
      · rfl
      · split <;> rfl
  | serverReadFailed =>
    refine quiet [] nothing ?_
    simp only [WiredSystem.step, Connection.step]
    split <;> rfl
  | setToken _ | clientWriter _ | serverWriter _ | clientReadFailed => exact quiet [] nothing rfl

end

end Messenger.Turns
