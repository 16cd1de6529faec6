import Messenger.GeneralChat

/-!
Letters come to those for whom they were written, and to nobody else. Whatever a client
hears as a direct message is a letter that the messenger has let through, with its sender
and its text as it was written or cut at a NUL, and the connection had come as its
recipient. And a letter that no longer waits has been sent to a connection that had.
-/
namespace Messenger.PrivateLetters

open Outcomes ClientSession UserRepository HandlerActions HandlePacket ServerSteps ServerSends
  NetworkSession ClientAsyncHandler PendingRequests WiredLinks Simulations LabelledRuns Hearings
  Networks TokenIdentity PlainMessenger Representations Refinement PlainReadings Notices
  Linearizations FinalAnswers GeneralChat

section

variable {L P T X : Type*} [DecidableEq L] [DecidableEq P] [DecidableEq T]

/-- A request only adds letters, and these wait. -/
theorem letters_step (lifetime : ℤ) (m : State L P T X) {a : Asked L P T X}
    (hfetch : ∀ login, a.request ≠ .fetch login) :
    ∃ new, (m.step lifetime a).letters = m.letters ++ new ∧ ∀ x ∈ new, x.waiting = true := by
  have same : ∀ m' : State L P T X, m'.letters = m.letters →
      ∃ new, m'.letters = m.letters ++ new ∧ ∀ x ∈ new, x.waiting = true :=
    fun m' h => ⟨[], h.trans (List.append_nil _).symm, fun _ hx => absurd hx List.not_mem_nil⟩
  unfold State.step
  cases hrequest : a.request with
  | register login password =>
    simp only
    split <;> exact same _ rfl
  | login login password =>
    simp only
    split <;> exact same _ rfl
  | present token => exact same _ rfl
  | logout token => exact same _ rfl
  | befriend token operation target =>
    simp only
    cases m.holder lifetime token a.now with
    | none => exact same _ rfl
    | some login =>
      simp only
      split <;> exact same _ rfl
  | write token recipient text =>
    simp only
    cases m.holder lifetime token a.now with
    | none => exact same _ rfl
    | some login =>
      simp only
      split
      · exact ⟨_, rfl, List.forall_mem_singleton.mpr rfl⟩
      · exact same _ rfl
  | fetch login => exact absurd hrequest (hfetch login)

end

theorem not_fetch_of_plainRequest {packetType : PacketType} {body : Bytes} {q : PlainRequest}
    (h : plainRequest packetType body = some q) (login : Bytes) : q ≠ .fetch login := by
  intro hfetch
  subst hfetch
  cases packetType with
  | result | friendNewRequest | friendRequestAccepted | friendRequestRejected | unnamed => cases h
  | _ =>
    obtain ⟨req, -, heq⟩ := TokenRequests.toOption_map_some h
    cases heq

/-- What is asked by the request in a packet, before anything is fetched. -/
theorem letters_of_request (env : Env) (st : Store) (m : Plain) (packetType : PacketType)
    (body : Bytes) :
    ∃ new, (LabelledRuns.run (State.step tokenTtl) m
        ((plainRequest packetType body).map (ask env st)).toList).letters = m.letters ++ new ∧
      ∀ x ∈ new, x.waiting = true := by
  cases hplain : plainRequest packetType body with
  | none => exact ⟨[], (List.append_nil _).symm, fun _ hx => absurd hx List.not_mem_nil⟩
  | some q => exact letters_step tokenTtl m (not_fetch_of_plainRequest hplain)

/-- The packet carries the letter, whole or cut at a NUL. -/
def Hands (p : Sent) (x : Letter Bytes Bytes) : Prop :=
  p.packetType = .directMessage ∧ ∃ text time,
    (text = x.text ∨ text = getText x.text) ∧
      p.body = serialize (DirectMessageIncoming.mk x.sender text time)

/-- With this event the connection is authenticated as `login`. -/
def Enters (env : Env) (login : Bytes) (conn : ConnId) (w : World) (e : Event) : Prop :=
  ∃ packetType body, e = .packet conn packetType body ∧ (w.sessions conn).isSome ∧
    authenticatesAs env w packetType body = some login

/-- The connection has at some time been authenticated as `login`. -/
def CameAs (env : Env) (files : ℕ → Option Bytes) (history : List Event) (login : Bytes)
    (conn : ConnId) : Prop :=
  Occurred (World.step env) (Enters env login conn) (World.initial env files) history

theorem cameAs_of_authenticated {env : Env} {files : ℕ → Option Bytes} {history : List Event}
    {login : Bytes} {conn : ConnId} (h : AuthenticatedAs env files history login conn) :
    CameAs env files history login conn := by
  obtain ⟨before, packetType, body, after, hevents, -, hlive, hauth⟩ := h
  exact ⟨before, _, after, hevents, packetType, body, rfl, hlive, hauth⟩

structure Posted (env : Env) (files : ℕ → Option Bytes) (history : List Event) (w : World) :
    Prop where
  written : ∀ p ∈ w.sent, p.packetType = .directMessage →
    ∃ x ∈ (played env files history).letters, Hands p x ∧
      CameAs env files history x.recipient p.conn
  handed : ∀ x ∈ (played env files history).letters, x.waiting = false →
    ∃ p ∈ w.sent, Hands p x ∧ CameAs env files history x.recipient p.conn

section

variable {env : Env} {files : ℕ → Option Bytes} {history : List Event} {w w' : World}

theorem posted_new (env : Env) (files : ℕ → Option Bytes) :
    Posted env files [] (World.initial env files) :=
  ⟨fun _ hp => absurd hp List.not_mem_nil, fun _ hx => absurd hx List.not_mem_nil⟩

/-- What was posted before stays so when letters are added that wait, and what is sent on
top hands over letters there are. -/
theorem Posted.grow (h : Posted env files history w) {e : Event} {sent : List Sent}
    (hsent : w'.sent = w.sent ++ sent) {new : List (Letter Bytes Bytes)}
    (hletters : (played env files (history ++ [e])).letters =
      (played env files history).letters ++ new) (hwaiting : ∀ x ∈ new, x.waiting = true)
    (hnew : ∀ p ∈ sent, p.packetType = .directMessage →
      ∃ x ∈ (played env files (history ++ [e])).letters, Hands p x ∧
        CameAs env files (history ++ [e]) x.recipient p.conn) :
    Posted env files (history ++ [e]) w' := by
  constructor
  · rw [hsent]
    refine List.forall_mem_append.mpr ⟨fun p hp htype => ?_, hnew⟩
    obtain ⟨x, hx, hhands, hcame⟩ := h.written p hp htype
    exact ⟨x, hletters ▸ List.mem_append_left _ hx, hhands, hcame.append [e]⟩
  · rw [hletters]
    refine List.forall_mem_append.mpr ⟨fun x hx hidle => ?_, fun x hx hidle => ?_⟩
    · obtain ⟨p, hp, hhands, hcame⟩ := h.handed x hx hidle
      exact ⟨p, hsent ▸ List.mem_append_left _ hp, hhands, hcame.append [e]⟩
    · cases (hwaiting x hx).symm.trans hidle

/-- A welcome sends what waits, and nothing waits any longer. -/
theorem Posted.welcome (h : Posted env files history w) {e : Event} {c : ConnId} {login : Bytes}
    (henters : Enters env login c
      (LabelledRuns.run (World.step env) (World.initial env files) history) e)
    {shown : List (Letter Bytes Bytes)} {new : List Sent} {r : Response}
    (hwaits : HandsWaiting (played env files history) login shown)
    (hsent : w'.sent = w.sent ++ new)
    (hnew : new.map (fun p => (p.conn, p.packetType, p.body)) =
      shown.map (letterPacket c) ++ [(c, .result, r.serialize)])
    (hletters : (played env files (history ++ [e])).letters =
      (played env files history).letters.map fun x =>
        if x.recipient = login then { x with waiting := false } else x) :
    Posted env files (history ++ [e]) w' := by
  have hcame : CameAs env files (history ++ [e]) login c :=
    ⟨history, e, [], rfl, henters⟩
  -- a letter that has been fetched is to the same recipient and says the same
  have after : ∀ x ∈ (played env files history).letters,
      ∃ x' ∈ (played env files (history ++ [e])).letters, x'.sender = x.sender ∧
        x'.recipient = x.recipient ∧ x'.text = x.text := by
    intro x hx
    rw [hletters]
    refine ⟨_, List.mem_map_of_mem hx, ?_⟩
    split <;> exact ⟨rfl, rfl, rfl⟩
  have kept : ∀ p x x', x'.sender = x.sender → x'.text = x.text → Hands p x → Hands p x' := by
    intro p x x' hsender htext hhands
    unfold Hands
    rw [hsender, htext]
    exact hhands
  constructor
  · rw [hsent]
    refine List.forall_mem_append.mpr ⟨fun p hp htype => ?_, fun p hp htype => ?_⟩
    · obtain ⟨x, hx, hhands, hbefore⟩ := h.written p hp htype
      obtain ⟨x', hx', hsender, hrecipient, htext⟩ := after x hx
      exact ⟨x', hx', kept p x x' hsender htext hhands, hrecipient ▸ hbefore.append [e]⟩
    · have hmem : (p.conn, p.packetType, p.body) ∈
          shown.map (letterPacket c) ++ [(c, PacketType.result, r.serialize)] :=
        hnew ▸ List.mem_map_of_mem hp
      rcases List.mem_append.mp hmem with hletter | hresult
      · obtain ⟨x, hx, hpacket⟩ := List.mem_map.mp hletter
        obtain ⟨hold, hmine⟩ := List.mem_filter.mp (hwaits.1.mem_iff.mp hx)
        simp only [Bool.and_eq_true, decide_eq_true_eq] at hmine
        obtain ⟨x', hx', hsender, hrecipient, htext⟩ := after x hold
        refine ⟨x', hx', kept p x x' hsender htext ?_, ?_⟩
        · exact ⟨htype, _, _, Or.inr rfl, (Prod.mk.inj (Prod.mk.inj hpacket).2).2.symm⟩
        · rw [hrecipient, hmine.1, ← (Prod.mk.inj hpacket).1]
          exact hcame
      · have hresult := List.mem_singleton.mp hresult
        have htype' := (Prod.mk.inj (Prod.mk.inj hresult).2).1
        cases htype.symm.trans htype'
  · rw [hletters]
    refine List.forall_mem_map.mpr fun x hx hidle => ?_
    by_cases hmine : x.recipient = login
    · rw [if_pos hmine]
      cases hwaiting : x.waiting with
      | false =>
        obtain ⟨p, hp, hhands, hbefore⟩ := h.handed x hx hwaiting
        exact ⟨p, hsent ▸ List.mem_append_left _ hp, hhands, hbefore.append [e]⟩
      | true =>
        have hshown : x ∈ shown := hwaits.1.mem_iff.mpr
          (List.mem_filter.mpr ⟨hx, by simp [hmine, hwaiting]⟩)
        have hmem : letterPacket c x ∈ new.map fun p => (p.conn, p.packetType, p.body) :=
          hnew ▸ List.mem_append_left _ (List.mem_map_of_mem hshown)
        obtain ⟨p, hp, hpacket⟩ := List.mem_map.mp hmem
        refine ⟨p, hsent ▸ List.mem_append_right _ hp, ?_, ?_⟩
        · exact ⟨(Prod.mk.inj (Prod.mk.inj hpacket).2).1, _, _, Or.inr rfl,
            (Prod.mk.inj (Prod.mk.inj hpacket).2).2⟩
        · rw [(Prod.mk.inj hpacket).1]
          exact hmine.symm ▸ hcame
    · rw [if_neg hmine] at hidle ⊢
      obtain ⟨p, hp, hhands, hbefore⟩ := h.handed x hx hidle
      exact ⟨p, hsent ▸ List.mem_append_left _ hp, hhands, hbefore.append [e]⟩

theorem letter_of_tells {p : Sent} {notice : Notice} (htype : p.packetType = .directMessage)
    (h : Tells p notice) : ∃ sender text, notice = .letter sender text := by
  cases notice with
  | letter sender text => exact ⟨sender, text, rfl⟩
  | line _ _ | asked | accepted | rejected => cases htype.symm.trans h.1

/-- A letter that is announced has been written. -/
theorem letter_written {m : Plain} {st : Store} {packetType : PacketType}
    {body login sender text : Bytes}
    (h : noticeFor m (env.clock st.clockReads) packetType body login =
      some (.letter sender text)) :
    ∃ x ∈ (LabelledRuns.run (State.step tokenTtl) m
        ((plainRequest packetType body).map (ask env st)).toList).letters,
      x.sender = sender ∧ x.recipient = login ∧ x.text = text := by
  have friend : ∀ operation, friendNotice m (env.clock st.clockReads) operation body login ≠
      some (.letter sender text) := by
    intro operation hnotice
    have hletter := eq_noticeOf hnotice
    cases operation <;> cases hletter
  cases packetType with
  | friendRequest => exact absurd h (friend .request)
  | friendAccept => exact absurd h (friend .accept)
  | friendReject => exact absurd h (friend .reject)
  | message =>
    obtain ⟨req, -, hreq⟩ := Option.bind_eq_some_iff.mp h
    obtain ⟨holder, -, hholder⟩ := Option.bind_eq_some_iff.mp hreq
    split at hholder <;> cases hholder
  | directMessage =>
    obtain ⟨req, hreq, hrest⟩ := Option.bind_eq_some_iff.mp h
    obtain ⟨holder, hholder, hnotice⟩ := Option.bind_eq_some_iff.mp hrest
    split at hnotice
    · rename_i hlet
      obtain ⟨rfl, hregistered, hfriends⟩ := hlet
      cases hnotice
      have hplain : plainRequest .directMessage body =
          some (.write req.token req.recipientLogin req.message) := by
        rw [plainRequest, hreq]
        rfl
      rw [hplain]
      refine ⟨⟨sender, req.recipientLogin, req.message, env.clock (st.clockReads + 1), true⟩, ?_,
        rfl, rfl, rfl⟩
      change _ ∈ (m.step tokenTtl (ask env st (.write req.token req.recipientLogin
        req.message))).letters
      simp only [State.step, ask, hholder, if_pos (And.intro hregistered hfriends)]
      exact List.mem_append_right _ (List.mem_singleton_self _)
    · cases hnotice
  | _ => cases h

/-- What a packet that welcomes nobody sends as direct messages is written with it. -/
theorem written_of_pushes {m : Plain} {packetType : PacketType} {body : Bytes}
    (hw : w = LabelledRuns.run (World.step env) (World.initial env files) history)
    (hrunning : w.status = .running) {pushes : List Sent}
    (htold : List.Forall₂ (fun p e => p.conn = e.1 ∧ Tells p e.2) pushes
      (addressed w (noticeFor m (env.clock w.store.clockReads) packetType body)))
    {e : Event} {letters : List (Letter Bytes Bytes)}
    (hletters : letters = (LabelledRuns.run (State.step tokenTtl) m
      ((plainRequest packetType body).map (ask env w.store)).toList).letters) :
    ∀ p ∈ pushes, p.packetType = .directMessage →
      ∃ x ∈ letters, Hands p x ∧ CameAs env files (history ++ [e]) x.recipient p.conn := by
  intro p hp htype
  obtain ⟨informed, hinformed, hconn, htells⟩ := exists_informed htold hp
  obtain ⟨login, hlookup, hnotice⟩ := exists_entry hinformed
  obtain ⟨sender, text, hletter⟩ := letter_of_tells htype htells
  rw [hletter] at hnotice htells
  obtain ⟨x, hx, hsender, hrecipient, htext⟩ := letter_written hnotice
  refine ⟨x, hletters ▸ hx, ?_, ?_⟩
  · obtain ⟨-, time, hbody⟩ := htells
    exact ⟨htype, text, time, Or.inl htext.symm, hsender ▸ hbody⟩
  · have hauthenticated : AuthenticatedAs env files history login informed.1 :=
      authenticated_of_entry (hw ▸ hrunning) (hw ▸ hlookup)
    rw [hrecipient, hconn]
    exact (cameAs_of_authenticated hauthenticated).append [e]

/-- A packet of an authenticating type that welcomes nobody sends no letter. -/
theorem receive_unwelcomed {c : ConnId} {packetType : PacketType} {body : Bytes}
    (hauth : Authenticating packetType) (hnobody : authenticatesAs env w packetType body = none)
    (hlive : (w.sessions c).isSome)
    (hup : (w.receive env c packetType body).status ≠ .terminated) :
    ∃ answer, (w.receive env c packetType body).sent = w.sent ++ answer ∧
      AnswerTo c packetType answer := by
  have hfits := dispatch_fitsRequest env c body packetType
  have hcases := handlePacket_handling env packetType body hlive
  unfold World.receive at hup ⊢
  generalize (handlePacket env c packetType body).run w = result at hcases hup
  cases hcases with
  | thrown e w₁ hrun => exact absurd rfl hup
  | undelivered r login w₁ e handed hrun _ => exact absurd rfl hup
  | answered r w₁ hrun =>
    obtain ⟨answer, hanswer, hto⟩ := withAnswer_sent w₁ c (hfits w _ w₁ hrun)
    exact ⟨answer, hanswer.trans (by rw [(unseen_dispatch hauth hrun).sent]), hto⟩
  | welcomed r login w₁ hrun _ _ =>
    cases hnobody.symm.trans (unseen_of_dispatch hrun).1

theorem handled_of_up {c : ConnId} {packetType : PacketType} {body : Bytes}
    (hup : (w.receive env c packetType body).status ≠ .terminated) :
    ∃ w', (handlePacket env c packetType body).run w = .ok () w' ∧
      w.receive env c packetType body = w' := by
  unfold World.receive at hup ⊢
  cases hrun : (handlePacket env c packetType body).run w with
  | ok u w' => exact ⟨w', rfl, rfl⟩
  | error e w' =>
    rw [hrun] at hup
    exact absurd rfl hup

/-- What one event of the server posts. -/
theorem Posted.step (hclock : Monotone env.clock) (hsha : Function.Injective (sha256 env))
    (hnul : ∀ e ∈ history, NulFreeEvent e)
    (hw : w = LabelledRuns.run (World.step env) (World.initial env files) history)
    (h : Posted env files history w) (e : Event) (he : NulFreeEvent e)
    (hup : (w.step env e).status ≠ .terminated) :
    Posted env files (history ++ [e]) (w.step env e) := by
  have hplayed := played_snoc env files history e
  rw [← hw] at hplayed
  have quiet : (w.step env e).sent = w.sent → Refinement.shown env w e = [] →
      Posted env files (history ++ [e]) (w.step env e) := by
    intro hsent hshown
    rw [hshown, LabelledRuns.run_nil] at hplayed
    have hletters : (played env files (history ++ [e])).letters =
        (played env files history).letters ++ [] := by
      rw [hplayed, List.append_nil]
    exact h.grow (hsent.trans (List.append_nil _).symm) hletters
      (fun _ hx => absurd hx List.not_mem_nil) (fun _ hp => absurd hp List.not_mem_nil)
  cases e with
  | packet c packetType body =>
    by_cases hready : w.status = .running ∧ (w.sessions c).isSome
    · have hrepresents : Represents env w.store (played env files history) := by
        rw [hw]
        exact represents_run hclock hsha files hnul
      have hreceive : w.step env (.packet c packetType body) = w.receive env c packetType body :=
        if_pos hready
      rw [hreceive] at hup ⊢
      simp only [Refinement.shown, if_pos hready, asked, if_neg hup] at hplayed
      cases hlogin : authenticatesAs env w packetType body with
      | some login =>
        rw [hlogin, LabelledRuns.run_append] at hplayed
        obtain ⟨w', hrun, hsame⟩ := handled_of_up hup
        obtain ⟨letters, new, r, hwaits, hsent, hnew⟩ :=
          welcome_read hclock hsha hrepresents hready.2 he hlogin hrun
        rw [hsame]
        refine h.welcome ⟨packetType, body, rfl, hw ▸ hready.2, hw ▸ hlogin⟩ hwaits hsent hnew ?_
        rw [hplayed, ← letters_of_authenticating env w (played env files history) body
          (authenticating_of_authenticatesAs hlogin)]
        rfl
      | none =>
        rw [hlogin, Option.map_none, Option.toList_none, List.append_nil] at hplayed
        obtain ⟨letters, hletters, hwaiting⟩ :=
          letters_of_request env w.store (played env files history) packetType body
        rw [← hplayed] at hletters
        by_cases hauth : Authenticating packetType
        · obtain ⟨answer, hsent, hto⟩ := receive_unwelcomed hauth hlogin hready.2 hup
          exact h.grow hsent hletters hwaiting fun p hp htype =>
            absurd htype (hto.packetType_ne (by decide) p hp)
        · obtain ⟨pushes, answer, hsent, htold, hto⟩ :=
            receive_informs hclock hsha hrepresents hready.2 hauth hup
          refine h.grow hsent hletters hwaiting (List.forall_mem_append.mpr ⟨?_, ?_⟩)
          · exact written_of_pushes hw hready.1 htold (congrArg State.letters hplayed)
          · exact fun p hp htype => absurd htype (hto.packetType_ne (by decide) p hp)
    · exact quiet (congrArg World.sent (if_neg hready)) (if_neg hready)
  | restart | connect | disconnect _ | cleanTokens =>
    refine quiet (sent_of_no_packet fun c packetType body heq => ?_) rfl
    cases heq

end

theorem posted_run {env : Env} (hclock : Monotone env.clock)
    (hsha : Function.Injective (sha256 env)) {files : ℕ → Option Bytes}
    {events : List NetworkEvent} (hcalls : ∀ e ∈ events, NulFreeCalls e)
    (hundisturbed : LabelledRuns.Along (Network.step env)
      (fun n e => (n.step env e).Undisturbed) (.new (World.initial env files)) events) :
    Posted env files (historyOf env files events) (system env files events).world := by
  refine invariant_history (posted_new env files) (fun history e hnul h hup => ?_) hcalls
    hundisturbed
  obtain ⟨hbefore, hlast⟩ := List.forall_mem_append.mp hnul
  exact h.step hclock hsha hbefore rfl e (hlast e (List.mem_singleton_self e)) hup

/-- The client has been told the letter, whole or cut at a NUL. -/
def Told (s : WiredSystem) (x : Letter Bytes Bytes) : Prop :=
  ∃ msg : DirectMessageIncoming, .onDmIncoming msg ∈ s.client.callbacks ∧
    msg.senderLogin = x.sender ∧ (msg.message = x.text ∨ msg.message = getText x.text)

theorem calledFor_hands {p : Sent} {x : Letter Bytes Bytes} (h : Hands p x)
    (hunasked : answeredRequest p = none) (hfits : p.body.length < 2 ^ 32) :
    ∃ msg : DirectMessageIncoming, calledFor p = some (.onDmIncoming msg) ∧
      msg.senderLogin = x.sender ∧ (msg.message = x.text ∨ msg.message = getText x.text) := by
  obtain ⟨htype, text, time, htext, hbody⟩ := h
  rw [hbody] at hfits
  refine ⟨⟨x.sender, text, time⟩, ?_, rfl, htext⟩
  rw [calledFor_push hunasked, htype, hbody, pushCallback, deserialize_serialize_of_length hfits]
  rfl

theorem letter_of_calledFor {p : Sent} {msg : DirectMessageIncoming}
    (h : calledFor p = some (.onDmIncoming msg)) : p.packetType = .directMessage := by
  unfold calledFor at h
  split at h
  · rename_i request r _
    cases r <;> cases h
  · unfold pushCallback at h
    split at h
    · cases hdecode : deserialize ChatIncoming p.body with
      | ok line =>
        rw [hdecode] at h
        cases h
      | error e =>
        rw [hdecode] at h
        cases h
    · assumption
    · cases h
    · cases h
    · cases h
    · cases h

/-- In every run of the system, what a client hears as a direct message is a letter for one
as whom its connection came; and a letter that no longer waits was sent to a connection that
came as its recipient, whose client has heard it when nothing is under way. -/
theorem letters_run (env : Env) (hclock : Monotone env.clock)
    (hsha : Function.Injective (sha256 env)) (files : ℕ → Option Bytes)
    (events : List NetworkEvent) (hcalls : ∀ e ∈ events, NulFreeCalls e)
    (hundisturbed : LabelledRuns.Along (Network.step env)
      (fun n e => (n.step env e).Undisturbed) (.new (World.initial env files)) events) :
    (∀ c s, (system env files events).view c = some s →
      ∀ msg : DirectMessageIncoming, .onDmIncoming msg ∈ s.client.callbacks →
        ∃ x ∈ (played env files (historyOf env files events)).letters,
          msg.senderLogin = x.sender ∧ (msg.message = x.text ∨ msg.message = getText x.text) ∧
            CameAs env files (historyOf env files events) x.recipient c) ∧
      ∀ x ∈ (played env files (historyOf env files events)).letters, x.waiting = false →
        ∃ c, CameAs env files (historyOf env files events) x.recipient c ∧
          ∀ s, (system env files events).view c = some s → AtRest s.downlink → Told s x := by
  have hposted := posted_run hclock hsha hcalls hundisturbed
  have hconnected : Connected (system env files events) :=
    LabelledRuns.invariant_along (fun _ e h hup => h.step e hup) (connected_new env files)
      hundisturbed
  have hunasked : ∀ p ∈ (system env files events).world.sent, p.packetType = .directMessage →
      answeredRequest p = none := by
    intro p hp htype
    refine unasked_run hcalls hundisturbed p hp fun hresult => ?_
    cases htype.symm.trans hresult
  constructor
  · intro c s hview msg hmsg
    obtain ⟨w, t, rfl, hheard, hsince⟩ := hconnected.listens c s hview
    obtain ⟨⟨received, hreceived, -, hcallbacks⟩, -⟩ := hheard.hears
    rw [hcallbacks] at hmsg
    obtain ⟨p, hp, hcall⟩ := List.mem_filterMap.mp hmsg
    have hmine : p ∈ sentTo w.nextConn s.world := hsince ▸ hreceived.subset hp
    obtain ⟨hsent, hconn⟩ := List.mem_filter.mp hmine
    rw [world_of_view hview] at hsent
    have htype := letter_of_calledFor hcall
    obtain ⟨x, hx, hhands, hcame⟩ := hposted.written p hsent htype
    obtain ⟨msg', hcall', hsender, htext⟩ := calledFor_hands hhands (hunasked p hsent htype)
      (fits_sentSince hheard p (hreceived.subset hp))
    cases hcall.symm.trans hcall'
    exact ⟨x, hx, hsender, htext, beq_iff_eq.mp hconn ▸ hcame⟩
  · intro x hx hidle
    obtain ⟨p, hsent, hhands, hcame⟩ := hposted.handed x hx hidle
    refine ⟨p.conn, hcame, fun s hview hdown => ?_⟩
    obtain ⟨w, t, hc, hheard, hsince⟩ := hconnected.listens p.conn s hview
    have hmine : p ∈ sentTo p.conn s.world :=
      List.mem_filter.mpr ⟨(world_of_view hview).symm ▸ hsent, beq_self_eq_true p.conn⟩
    rw [hsince, hc] at hmine
    obtain ⟨msg, hcall, hsender, htext⟩ := calledFor_hands hhands (hunasked p hsent hhands.1)
      (fits_sentSince hheard p hmine)
    refine ⟨msg, ?_, hsender, htext⟩
    rw [hheard.hears.atRest hdown]
    exact List.mem_filterMap.mpr ⟨p, hmine, hcall⟩

/-- "a" and "c" have become friends, and "c" hears what "a" writes to it. -/
def oneLetter : List NetworkEvent :=
  [.connect, .connect, .ends 0 (.call (.registerUser [97] [112])),
    .ends 1 (.call (.registerUser [99] [112]))] ++ carriedUp 0 ++ carriedUp 1 ++
    [.ends 0 (.setToken [97, 97]), .ends 0 (.call (.sendFriendRequest [99]))] ++ carriedUp 0 ++
    [.ends 1 (.setToken [97, 97, 97, 97]), .ends 1 (.call (.acceptFriendRequest [97]))] ++
    carriedUp 1 ++ [.ends 0 (.call (.sendDirectMessage [99] [104]))] ++ carriedUp 0 ++
    carriedDown 1 ++ carriedDown 1 ++ carriedDown 1 ++ carriedDown 1

theorem letters_run_oneLetter :
    ∃ x ∈ (played Env.plain (fun _ => none)
        (historyOf Env.plain (fun _ => none) oneLetter)).letters,
      [97] = x.sender ∧ ([104] = x.text ∨ [104] = getText x.text) ∧
        CameAs Env.plain (fun _ => none) (historyOf Env.plain (fun _ => none) oneLetter)
          x.recipient 1 := by
  have hsome : ((system Env.plain (fun _ => none) oneLetter).view 1).isSome := by
    decide +kernel
  obtain ⟨s, hs⟩ := Option.isSome_iff_exists.mp hsome
  have hheard : ∀ s ∈ (system Env.plain (fun _ => none) oneLetter).view 1,
      .onDmIncoming ⟨[97], [104], 1⟩ ∈ s.client.callbacks := by decide +kernel
  exact (letters_run Env.plain clock_plain_monotone Registrations.sha256_plain_injective
    (fun _ => none) oneLetter (by decide +kernel) (by decide +kernel)).1 1 s hs _ (hheard s hs)

end Messenger.PrivateLetters
