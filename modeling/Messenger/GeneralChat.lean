import Messenger.Notices
import Messenger.FinalAnswers

/-!
The general chat is one conversation. The server takes the lines of all clients in one
order, and what any client hears of it are these lines in this order, each as often as its
connection stands in the map under other logins than the sender's; so no two clients hear
two lines in different orders, and nobody hears what was not said.
-/
namespace Messenger.GeneralChat

open Outcomes ClientSession UserRepository HandlerActions HandlePacket ServerSteps ServerSends
  NetworkSession ClientAsyncHandler PendingRequests WiredLinks Simulations Hearings Networks
  TokenIdentity PlainMessenger Representations Refinement Notices Linearizations FinalAnswers

/-- The line that the server takes with an event, if its token is accepted. -/
def saidIn (env : Env) (w : World) : Event → List ChatIncoming
  | .packet c .message body =>
    if w.status = .running ∧ (w.sessions c).isSome then
      ((deserialize ChatSendRequest body).toOption.bind fun req =>
        (tokenLogin env req.token w.store).map fun sender =>
          ChatIncoming.mk sender req.message).toList
    else []
  | _ => []

/-- Under how many logins but the sender's a live connection stands in the map. -/
def listensAs (w : World) (c : ConnId) (sender : Bytes) : ℕ :=
  w.onlineUsers.entries.countP fun e => e.1 != sender && w.lock e.2 == some c

def toldIn (env : Env) (c : ConnId) (w : World) (e : Event) : List ChatIncoming :=
  (saidIn env w e).flatMap fun line => List.replicate (listensAs w c line.senderLogin) line

/-- The general chat after a run of the server. -/
def said (env : Env) (files : ℕ → Option Bytes) (events : List Event) : List ChatIncoming :=
  shownRun (World.step env) (saidIn env) (World.initial env files) events

/-- What a connection is told of it. -/
def told (env : Env) (files : ℕ → Option Bytes) (c : ConnId) (events : List Event) :
    List ChatIncoming :=
  shownRun (World.step env) (toldIn env c) (World.initial env files) events

section

variable {env : Env} {w : World} {c : ConnId} {e : Event}

theorem saidIn_short (env : Env) (w : World) (e : Event) :
    saidIn env w e = [] ∨ ∃ line, saidIn env w e = [line] := by
  unfold saidIn
  split
  · split
    · generalize Option.bind _ _ = line
      cases line with
      | none => exact Or.inl rfl
      | some line => exact Or.inr ⟨line, rfl⟩
    · exact Or.inl rfl
  · exact Or.inl rfl

theorem toldIn_of_silent (h : saidIn env w e = []) : toldIn env c w e = [] := by
  rw [toldIn, h, List.flatMap_nil]

theorem toldIn_of_said {line : ChatIncoming} (h : saidIn env w e = [line]) :
    toldIn env c w e = List.replicate (listensAs w c line.senderLogin) line := by
  rw [toldIn, h, List.flatMap_singleton]

theorem told_echoes (env : Env) (files : ℕ → Option Bytes) (c : ConnId) (events : List Event) :
    Echoes (said env files events) (told env files c events) := by
  refine shownRun_echoes (fun w e => ?_) _ events
  rcases saidIn_short env w e with hsilent | ⟨line, hsaid⟩
  · rw [toldIn_of_silent hsilent, hsilent]
    exact echoes_nil
  · rw [toldIn_of_said hsaid, hsaid]
    exact echoes_replicate _ line

end

def isLine (p : Sent) : Bool := p.packetType == .message

def TellsLine (p : Sent) (line : ChatIncoming) : Prop :=
  p.packetType = .message ∧ p.body = serialize line

/-- The packets with lines among those for a connection. -/
def linesOf (c : ConnId) (sent : List Sent) : List Sent :=
  (sent.filter (·.conn == c)).filter isLine

section

variable {env : Env} {w : World} {m : Plain} {c : ConnId}

theorem isLine_iff {p : Sent} : isLine p = true ↔ p.packetType = .message := beq_iff_eq

theorem linesOf_append (c : ConnId) (l l' : List Sent) :
    linesOf c (l ++ l') = linesOf c l ++ linesOf c l' := by
  rw [linesOf, List.filter_append, List.filter_append, linesOf, linesOf]

theorem linesOf_cons_mine {p : Sent} (hconn : p.conn = c) (hline : p.packetType = .message)
    (l : List Sent) : linesOf c (p :: l) = p :: linesOf c l := by
  simp [linesOf, isLine, hconn, hline]

theorem linesOf_cons_other {p : Sent} (hconn : p.conn ≠ c) (l : List Sent) :
    linesOf c (p :: l) = linesOf c l := by
  simp [linesOf, hconn]

theorem linesOf_eq_nil {l : List Sent} (h : ∀ p ∈ l, p.packetType ≠ .message) :
    linesOf c l = [] := by
  refine List.filter_eq_nil_iff.mpr fun p hp => ?_
  rw [isLine_iff]
  exact h p (List.mem_of_mem_filter hp)

theorem linesOf_pushes {pushes : List Sent} {informed : List (ConnId × Notice)}
    {sender text : Bytes}
    (h : List.Forall₂ (fun p e => p.conn = e.1 ∧ Tells p e.2) pushes informed)
    (hline : ∀ e ∈ informed, e.2 = .line sender text) :
    List.Forall₂ TellsLine (linesOf c pushes)
      (List.replicate (informed.countP fun e => e.1 == c) ⟨sender, text⟩) := by
  induction h with
  | nil => exact .nil
  | @cons p e _ _ hp _ ih =>
    obtain ⟨hfirst, hrest⟩ := List.forall_mem_cons.mp hline
    obtain ⟨hconn, htells⟩ := hp
    rw [hfirst] at htells
    by_cases hc : e.1 = c
    · rw [List.countP_cons, if_pos (beq_iff_eq.mpr hc), List.replicate_succ,
        linesOf_cons_mine (hconn.trans hc) htells.1]
      exact .cons htells (ih hrest)
    · rw [List.countP_cons, if_neg (mt beq_iff_eq.mp hc), Nat.add_zero,
        linesOf_cons_other (hconn.trans_ne hc)]
      exact ih hrest

/-- What everybody but the sender is told. -/
def lineNotice (sender text login : Bytes) : Option Notice :=
  if login = sender then none else some (.line sender text)

theorem addressed_line (w : World) (sender text : Bytes) :
    (∀ e ∈ addressed w (lineNotice sender text), e.2 = .line sender text) ∧
      ((addressed w (lineNotice sender text)).countP fun e => e.1 == c) =
        listensAs w c sender := by
  constructor
  · intro e he
    obtain ⟨entry, -, hentry⟩ := List.mem_filterMap.mp he
    obtain ⟨sess, -, htold⟩ := Option.bind_eq_some_iff.mp hentry
    obtain ⟨notice, hnotice, rfl⟩ := Option.map_eq_some_iff.mp htold
    rw [lineNotice] at hnotice
    split at hnotice
    · cases hnotice
    · exact (Option.some.inj hnotice).symm
  · rw [addressed, List.countP_filterMap, listensAs]
    refine List.countP_congr fun e _ => ?_
    rw [lineNotice]
    by_cases hlogin : e.1 = sender
    · cases w.lock e.2 <;> simp [hlogin]
    · cases w.lock e.2 <;> simp [hlogin]

theorem line_of_tells {p : Sent} {notice : Notice} (hline : p.packetType = .message)
    (h : Tells p notice) : ∃ sender text, notice = .line sender text := by
  cases notice with
  | line sender text => exact ⟨sender, text, rfl⟩
  | letter _ _ | asked | accepted | rejected => cases hline.symm.trans h.1

/-- Other packets make the messenger tell no line. -/
theorem noticeFor_ne_line {now : ℤ} {packetType : PacketType} {body login : Bytes}
    (hmessage : packetType ≠ .message) (sender text : Bytes) :
    noticeFor m now packetType body login ≠ some (.line sender text) := by
  have friend : ∀ operation, friendNotice m now operation body login ≠
      some (.line sender text) := by
    intro operation hnotice
    have hline := eq_noticeOf hnotice
    cases operation <;> cases hline
  cases packetType with
  | message => exact absurd rfl hmessage
  | friendRequest => exact friend .request
  | friendAccept => exact friend .accept
  | friendReject => exact friend .reject
  | directMessage =>
    intro hnotice
    obtain ⟨req, -, hreq⟩ := Option.bind_eq_some_iff.mp hnotice
    obtain ⟨holder, -, hholder⟩ := Option.bind_eq_some_iff.mp hreq
    split at hholder <;> cases hholder
  | _ => exact fun hnotice => by cases hnotice

/-- The lines of the general chat are sent by the handler of MESSAGE alone. -/
theorem receive_without_line (hclock : Monotone env.clock)
    (hsha : Function.Injective (sha256 env)) (h : Represents env w.store m)
    {packetType : PacketType} {body : Bytes} (hmessage : packetType ≠ .message)
    (hlive : (w.sessions c).isSome)
    (hup : (w.receive env c packetType body).status ≠ .terminated) :
    ∃ new, (w.receive env c packetType body).sent = w.sent ++ new ∧
      ∀ p ∈ new, p.packetType ≠ .message := by
  by_cases hauth : Authenticating packetType
  · have hfits := dispatch_fitsRequest env c body packetType
    have hcases := handlePacket_handling env packetType body hlive
    unfold World.receive at hup ⊢
    generalize (handlePacket env c packetType body).run w = result at hcases hup
    cases hcases with
    | thrown e w₁ hrun => exact absurd rfl hup
    | undelivered r login w₁ e handed hrun _ => exact absurd rfl hup
    | answered r w₁ hrun =>
      obtain ⟨answer, hanswer, hto⟩ := withAnswer_sent w₁ c (hfits w _ w₁ hrun)
      refine ⟨answer, ?_, hto.packetType_ne (by decide)⟩
      exact hanswer.trans (by rw [(unseen_dispatch hauth hrun).sent])
    | welcomed r login w₁ hrun _ hsenders =>
      have hunseen := unseen_dispatch hauth hrun
      have hlive₁ : (w₁.sessions c).isSome := hunseen.logins.live hlive
      obtain ⟨answer, hanswer, hto⟩ :=
        withAnswer_sent (welcomed env w₁ c login) c (hfits w _ w₁ hrun)
      refine ⟨(backlog env login w₁.store).map (backlogPacket w₁.store c login) ++ answer, ?_, ?_⟩
      · rw [welcomed_sent env hlive₁, hunseen.sent, List.append_assoc] at hanswer
        exact hanswer
      · refine List.forall_mem_append.mpr ⟨?_, hto.packetType_ne (by decide)⟩
        refine List.forall_mem_map.mpr fun el _ => ?_
        rintro ⟨⟩
  · obtain ⟨pushes, answer, hsent, htold, hto⟩ := receive_informs hclock hsha h hlive hauth hup
    refine ⟨pushes ++ answer, hsent, List.forall_mem_append.mpr ⟨?_, hto.packetType_ne (by decide)⟩⟩
    intro p hp hline
    obtain ⟨e, he, -, htells⟩ := exists_informed htold hp
    obtain ⟨login, -, hnotice⟩ := exists_entry he
    obtain ⟨sender, text, htold⟩ := line_of_tells hline htells
    rw [htold] at hnotice
    exact noticeFor_ne_line hmessage sender text hnotice

/-- A MESSAGE tells its line where it has to be told. -/
theorem receive_with_line (hclock : Monotone env.clock) (hsha : Function.Injective (sha256 env))
    (h : Represents env w.store m) {body : Bytes} (hrunning : w.status = .running)
    (hlive : (w.sessions c).isSome)
    (hup : (w.receive env c .message body).status ≠ .terminated) :
    ∃ new, (w.receive env c .message body).sent = w.sent ++ new ∧
      ∀ d, List.Forall₂ TellsLine (linesOf d new) (toldIn env d w (.packet c .message body)) := by
  have hauth : ¬ Authenticating .message := by
    rintro (h | h | h) <;> cases h
  obtain ⟨pushes, answer, hsent, htold, hto⟩ := receive_informs hclock hsha h hlive hauth hup
  refine ⟨pushes ++ answer, hsent, fun d => ?_⟩
  rw [linesOf_append, linesOf_eq_nil (hto.packetType_ne (by decide)), List.append_nil]
  have silent : saidIn env w (.packet c .message body) = [] →
      (∀ login, noticeFor m (env.clock w.store.clockReads) .message body login = none) →
      List.Forall₂ TellsLine (linesOf d pushes) (toldIn env d w (.packet c .message body)) := by
    intro hsilent hnobody
    rw [addressed_nobody hnobody] at htold
    rw [toldIn_of_silent hsilent, List.forall₂_nil_right_iff.mp htold]
    exact .nil
  have hready : w.status = .running ∧ (w.sessions c).isSome := ⟨hrunning, hlive⟩
  cases hreq : deserialize ChatSendRequest body with
  | error e =>
    refine silent ?_ fun login => ?_
    · simp only [saidIn, if_pos hready, hreq]
      rfl
    · simp only [noticeFor, hreq]
      rfl
  | ok req =>
    cases hholder : m.holder tokenTtl req.token (env.clock w.store.clockReads) with
    | none =>
      refine silent ?_ fun login => ?_
      · simp only [saidIn, if_pos hready, hreq, Except.toOption, Option.bind_some,
          tokenLogin_eq_holder h, hholder]
        rfl
      · simp only [noticeFor, hreq, Except.toOption, Option.bind_some, hholder]
        rfl
    | some sender =>
      have hsaid : saidIn env w (.packet c .message body) = [⟨sender, req.message⟩] := by
        simp only [saidIn, if_pos hready, hreq, Except.toOption, Option.bind_some,
          tokenLogin_eq_holder h, hholder]
        rfl
      have hnotice : noticeFor m (env.clock w.store.clockReads) .message body =
          lineNotice sender req.message := by
        funext login
        simp only [noticeFor, hreq, Except.toOption, Option.bind_some, hholder]
        rfl
      rw [hnotice] at htold
      obtain ⟨hline, hcount⟩ := addressed_line (c := d) w sender req.message
      rw [toldIn_of_said hsaid, ← hcount]
      exact linesOf_pushes htold hline

/-- Whatever packets that are no RESULT are sent for, it is not to answer. -/
def Unasked (w : World) : Prop := ∀ p ∈ w.sent, p.packetType ≠ .result → answeredRequest p = none

theorem Unasked.receive (h : Unasked w) {packetType : PacketType} {body : Bytes}
    (hlive : (w.sessions c).isSome)
    (hup : (w.receive env c packetType body).status ≠ .terminated) :
    Unasked (w.receive env c packetType body) := by
  obtain ⟨pushes, answer, hsent, hall, hto⟩ := receive_sends env packetType body hlive hup
  rw [Unasked, hsent]
  refine List.forall_mem_append.mpr ⟨h, List.forall_mem_append.mpr ⟨?_, ?_⟩⟩
  · exact fun p hp _ => (hall p hp).cause
  · intro p hp hresult
    cases hto with
    | none _ => cases hp
    | some r asLogin _ =>
      obtain rfl := List.mem_singleton.mp hp
      exact absurd rfl hresult

theorem sent_of_no_packet {e : Event} (he : ∀ c packetType body, e ≠ .packet c packetType body) :
    (w.step env e).sent = w.sent := by
  have hstep := step_stepping env w e
  generalize w.step env e = w' at hstep
  cases hstep with
  | packet c packetType body _ _ => exact absurd rfl (he c packetType body)
  | _ => rfl

theorem Unasked.step (h : Unasked w) (e : Event) (hup : (w.step env e).status ≠ .terminated) :
    Unasked (w.step env e) := by
  have quiet : (w.step env e).sent = w.sent → Unasked (w.step env e) := by
    intro hsent
    rw [Unasked, hsent]
    exact h
  cases e with
  | packet c packetType body =>
    by_cases hready : w.status = .running ∧ (w.sessions c).isSome
    · have hreceive : w.step env (.packet c packetType body) = w.receive env c packetType body :=
        if_pos hready
      rw [hreceive] at hup ⊢
      exact h.receive hready.2 hup
    · exact quiet (congrArg World.sent (if_neg hready))
  | restart | connect | disconnect _ | cleanTokens =>
    refine quiet (sent_of_no_packet fun c packetType body heq => ?_)
    cases heq

/-- What one event of the server adds to what a connection is told. -/
theorem step_lines (hclock : Monotone env.clock) (hsha : Function.Injective (sha256 env))
    (h : Represents env w.store m) (e : Event) (hup : (w.step env e).status ≠ .terminated) :
    ∃ new, (w.step env e).sent = w.sent ++ new ∧
      ∀ d, List.Forall₂ TellsLine (linesOf d new) (toldIn env d w e) := by
  have quiet : (w.step env e).sent = w.sent → saidIn env w e = [] →
      ∃ new, (w.step env e).sent = w.sent ++ new ∧
        ∀ d, List.Forall₂ TellsLine (linesOf d new) (toldIn env d w e) := by
    intro hsent hsilent
    refine ⟨[], hsent.trans (List.append_nil _).symm, fun d => ?_⟩
    rw [toldIn_of_silent hsilent]
    exact .nil
  cases e with
  | packet c packetType body =>
    by_cases hready : w.status = .running ∧ (w.sessions c).isSome
    · have hreceive : w.step env (.packet c packetType body) = w.receive env c packetType body :=
        if_pos hready
      rw [hreceive] at hup ⊢
      by_cases hmessage : packetType = .message
      · subst hmessage
        exact receive_with_line hclock hsha h hready.1 hready.2 hup
      · obtain ⟨new, hsent, hnone⟩ := receive_without_line hclock hsha h hmessage hready.2 hup
        refine ⟨new, hsent, fun d => ?_⟩
        have hsilent : saidIn env w (.packet c packetType body) = [] := by
          unfold saidIn
          split
          · rename_i heq
            cases heq
            exact absurd rfl hmessage
          · rfl
        rw [linesOf_eq_nil hnone, toldIn_of_silent hsilent]
        exact .nil
    · refine quiet (congrArg World.sent (if_neg hready)) ?_
      unfold saidIn
      split
      · rename_i heq
        cases heq
        exact if_neg hready
      · rfl
  | restart | connect | disconnect _ | cleanTokens =>
    refine quiet (sent_of_no_packet fun c packetType body heq => ?_) rfl
    cases heq

end

def lineHeard : Callback → Option ChatIncoming
  | .onChatIncoming line => some line
  | _ => none

/-- The lines that the interface of a client has been told. -/
def heardBy (s : WiredSystem) : List ChatIncoming := s.client.callbacks.filterMap lineHeard

theorem lineHeard_calledFor {p : Sent} {line : ChatIncoming} (h : TellsLine p line)
    (hunasked : answeredRequest p = none) (hfits : p.body.length < 2 ^ 32) :
    (calledFor p).bind lineHeard = some line := by
  obtain ⟨htype, hbody⟩ := h
  rw [hbody] at hfits
  rw [calledFor_push hunasked, htype, hbody, pushCallback, deserialize_serialize_of_length hfits]
  rfl

theorem lineHeard_other {p : Sent} (h : p.packetType ≠ .message) :
    (calledFor p).bind lineHeard = none := by
  unfold calledFor
  split
  · rename_i request r _
    cases r <;> rfl
  · unfold pushCallback
    split
    · rename_i htype
      exact absurd htype h
    · cases deserialize DirectMessageIncoming p.body <;> rfl
    all_goals rfl

/-- A client hears a line for each packet with one. -/
theorem heard_of_sent {l : List Sent} {lines : List ChatIncoming}
    (h : List.Forall₂ TellsLine (l.filter isLine) lines)
    (hunasked : ∀ p ∈ l, p.packetType ≠ .result → answeredRequest p = none)
    (hfits : ∀ p ∈ l, p.body.length < 2 ^ 32) :
    (l.filterMap calledFor).filterMap lineHeard = lines := by
  rw [List.filterMap_filterMap]
  induction l generalizing lines with
  | nil => exact (List.forall₂_nil_left_iff.mp h).symm
  | cons p rest ih =>
    obtain ⟨hasked, haskeds⟩ := List.forall_mem_cons.mp hunasked
    obtain ⟨hfit, hfits⟩ := List.forall_mem_cons.mp hfits
    by_cases hline : p.packetType = .message
    · rw [List.filter_cons_of_pos (isLine_iff.mpr hline)] at h
      cases h with
      | cons hfirst hrest =>
        have hheard := lineHeard_calledFor hfirst (hasked (by rw [hline]; rintro ⟨⟩)) hfit
        rw [List.filterMap_cons, hheard, ih hrest haskeds hfits]
    · rw [List.filter_cons_of_neg (mt isLine_iff.mp hline)] at h
      rw [List.filterMap_cons, lineHeard_other hline, ih h haskeds hfits]

/-- What has been sent to a connection fits in its packets. -/
theorem fits_sentSince {w : World} {s : WiredSystem} {t : System} (h : Heard w s t) :
    ∀ p ∈ sentSince w w.nextConn s.world, p.body.length < 2 ^ 32 := by
  obtain ⟨received, hsince, hdelivered⟩ := h.exchanged.accounted.received
  have hholds := h.exchanged.stands.downlink
  intro p hp
  refine hholds.carries.fits (packetOfSent p) ?_
  rw [hholds.sent, hdelivered, ← List.map_append, ← hsince]
  exact List.mem_map_of_mem hp

theorem unasked_run {env : Env} {files : ℕ → Option Bytes} {events : List NetworkEvent}
    (hcalls : ∀ e ∈ events, NulFreeCalls e)
    (hundisturbed : LabelledRuns.Along (Network.step env)
      (fun n e => (n.step env e).Undisturbed) (.new (World.initial env files)) events) :
    Unasked (system env files events).world :=
  invariant_history (P := fun _ w => Unasked w) (fun _ hp => absurd hp List.not_mem_nil)
    (fun _ e _ h hup => h.step e hup) hcalls hundisturbed

/-- The server has sent the lines that it had to. -/
theorem told_run {env : Env} (hclock : Monotone env.clock) (hsha : Function.Injective (sha256 env))
    {files : ℕ → Option Bytes} {events : List NetworkEvent} (hcalls : ∀ e ∈ events, NulFreeCalls e)
    (hundisturbed : LabelledRuns.Along (Network.step env)
      (fun n e => (n.step env e).Undisturbed) (.new (World.initial env files)) events)
    (c : ConnId) :
    List.Forall₂ TellsLine (linesOf c (system env files events).world.sent)
      (told env files c (historyOf env files events)) := by
  refine invariant_history (P := fun history w =>
    List.Forall₂ TellsLine (linesOf c w.sent) (told env files c history)) .nil
    (fun history e hnul h hup => ?_) hcalls hundisturbed
  have hrepresents := represents_run hclock hsha files
    (List.forall_mem_append.mp hnul).1
  obtain ⟨new, hsent, hlines⟩ := step_lines hclock hsha hrepresents e hup
  rw [hsent, linesOf_append, told, shownRun_append]
  simp only [shownRun, List.append_nil]
  exact List.rel_append h (hlines c)

/-- In every run of the system, what a connection is told of the general chat is the general
chat in its order, each line as often as it is due there; and the client at its other end
has heard a part of this from its beginning, and all of it when nothing is under way. -/
theorem one_conversation (env : Env) (hclock : Monotone env.clock)
    (hsha : Function.Injective (sha256 env)) (files : ℕ → Option Bytes)
    (events : List NetworkEvent) (hcalls : ∀ e ∈ events, NulFreeCalls e)
    (hundisturbed : LabelledRuns.Along (Network.step env)
      (fun n e => (n.step env e).Undisturbed) (.new (World.initial env files)) events)
    (c : ConnId) :
    Echoes (said env files (historyOf env files events))
        (told env files c (historyOf env files events)) ∧
      ∀ s, (system env files events).view c = some s →
        heardBy s <+: told env files c (historyOf env files events) ∧
          (AtRest s.downlink → heardBy s = told env files c (historyOf env files events)) := by
  refine ⟨told_echoes env files c _, fun s hview => ?_⟩
  have hconnected : Connected (system env files events) :=
    LabelledRuns.invariant_along (fun _ e h hup => h.step e hup) (connected_new env files)
      hundisturbed
  have hworld := world_of_view hview
  obtain ⟨w, t, rfl, hheard, hsince⟩ := hconnected.listens c s hview
  have hall : ((sentTo w.nextConn s.world).filterMap calledFor).filterMap lineHeard =
      told env files w.nextConn (historyOf env files events) := by
    refine heard_of_sent (hworld ▸ told_run hclock hsha hcalls hundisturbed w.nextConn)
      (fun p hp => ?_) ?_
    · exact unasked_run hcalls hundisturbed p (hworld ▸ List.mem_of_mem_filter hp)
    · rw [hsince]
      exact fits_sentSince hheard
  obtain ⟨⟨received, hreceived, -, hcallbacks⟩, hrest⟩ := hheard.hears
  rw [← hsince] at hreceived hrest
  refine ⟨?_, fun hdown => ?_⟩
  · rw [heardBy, hcallbacks, ← hall]
    exact (hreceived.filterMap calledFor).filterMap lineHeard
  · rw [heardBy, hrest hdown, hall]

/-- "a" and "c" have registered, and "c" hears what "a" says. -/
def overheard : List NetworkEvent :=
  [.connect, .connect, .ends 0 (.call (.registerUser [97] [112])),
    .ends 1 (.call (.registerUser [99] [112]))] ++ carriedUp 1 ++ carriedUp 0 ++
    [.ends 0 (.setToken [97, 97, 97, 97]), .ends 0 (.call (.sendMessageGeneralChat [104]))] ++
    carriedUp 0 ++ carriedDown 1 ++ carriedDown 1

theorem one_conversation_overheard :
    ∃ s, (system Env.plain (fun _ => none) overheard).view 1 = some s ∧
      heardBy s = [⟨[97], [104]⟩] ∧
      heardBy s <+: told Env.plain (fun _ => none) 1
        (historyOf Env.plain (fun _ => none) overheard) := by
  have hsome : ((system Env.plain (fun _ => none) overheard).view 1).isSome := by decide +kernel
  obtain ⟨s, hs⟩ := Option.isSome_iff_exists.mp hsome
  have hheard : ((system Env.plain (fun _ => none) overheard).view 1).map heardBy =
      some [⟨[97], [104]⟩] := by decide +kernel
  rw [hs] at hheard
  exact ⟨s, hs, Option.some.inj hheard, ((one_conversation Env.plain clock_plain_monotone
    Registrations.sha256_plain_injective (fun _ => none) overheard (by decide +kernel)
    (by decide +kernel) 1).2 s hs).1⟩

end Messenger.GeneralChat
