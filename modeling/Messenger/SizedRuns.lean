import Messenger.BodySizes
import Messenger.LongBacklogs
import Messenger.StoredTexts

/-!
The bodies of a whole run. Authentications hand over a backlog and then answer, requests do
as their acts do, and no other packet is answered; so each step sends bodies of the sizes it
calls for, and a run has sent nothing that was too large just when no step called for it. A
history of five texts, each of a size that SQLite stores, is too large.
-/
namespace Messenger.SizedRuns

open ClientSession UserRepository MessageRepository FriendStates HandlerActions HandlePacket
  ServerSteps MalformedBodies MessageRows TokenRequests TableSteps Authentications LongBacklogs
  Reports Conversations EncodedSizes BodySizes StoredTexts

section

variable {env : Env} {c : ConnId} {packetType : PacketType} {body : Bytes} {w w₁ : World}
  {r : Response} {l : Option Bytes}

/-- The RESULT of an authentication: refused, or with the token that was drawn, or just OK. -/
def answerSize (env : Env) (st : Store) (packetType : PacketType) : ℕ :=
  match drawnToken env st packetType with
  | some token => 8 + token.length
  | none => 4

def Answered (env : Env) (st : Store) (packetType : PacketType) (r : Response) :
    Option Bytes → Prop
  | none => r.serialize.length < 2 ^ 32
  | some _ => r.serialize.length = answerSize env st packetType

theorem answered_authentication (hauth : Authenticating packetType)
    (hrun : (dispatch env c packetType body).run w = .ok (some r, l) w₁) :
    Answered env w.store packetType r l := by
  have hrefused : ∀ e, (Response.auth ⟨[], e⟩).serialize.length < 2 ^ 32 :=
    fun e => (length_authResponse [] e).trans_lt (by decide)
  rcases hauth with rfl | rfl | rfl
  · obtain ⟨response, hhandle, hr⟩ := answerAuth_ok hrun
    cases hr
    obtain ⟨req, hreq⟩ := deserialize_of_decode_ok hhandle
    rcases handleRegister_cases env c w hreq with
      ⟨-, hcase⟩ | ⟨-, ⟨salt, hash, store, u, hstore, -, -, hcase⟩ | ⟨e, w', hcase⟩⟩
    · cases hhandle.symm.trans hcase
      exact hrefused _
    · cases hhandle.symm.trans hcase
      subst hstore
      exact length_authResponse _ _
    · cases hhandle.symm.trans hcase
  · obtain ⟨response, hhandle, hr⟩ := answerAuth_ok hrun
    cases hr
    obtain ⟨req, hreq⟩ := deserialize_of_decode_ok hhandle
    rcases handleLogin_cases env c w hreq with
      ⟨-, hcase⟩ | ⟨-, ⟨u, -, -, hcase⟩ | ⟨e, w', hcase⟩⟩
    · cases hhandle.symm.trans hcase
      exact hrefused _
    · cases hhandle.symm.trans hcase
      exact length_authResponse _ _
    · cases hhandle.symm.trans hcase
  · obtain ⟨response, hhandle, hr⟩ := answerAuth_ok hrun
    cases hr
    obtain ⟨req, hreq⟩ := deserialize_of_decode_ok hhandle
    obtain ⟨result, store, -, ⟨login, -, hcase⟩ | ⟨e, -, hcase⟩⟩ :=
      handleTokenVerify_cases env c w hreq
    · cases hhandle.symm.trans hcase
      exact length_errorOnly (TokenVerifyResponse.mk Error.Base.ok)
    · cases hhandle.symm.trans hcase
      exact short_errorOnly (TokenVerifyResponse.mk e)

theorem accounts_backlog {st : Store} {messages : List StoredMessage}
    (hsenders : SendersFound st messages) (c : ConnId) (login : Bytes) :
    Accounts (backlogSizes st messages) (messages.map (backlogPacket st c login)) := by
  have hbody : ∀ el ∈ messages, (backlogPacket st c login el).body = serialize
      (DirectMessageIncoming.mk (nameOf st el.sender) el.message (Int64.ofInt el.timestamp)) := by
    intro el hel
    obtain ⟨senderLogin, hsender⟩ := hsenders el hel
    simp only [backlogPacket, nameOf, hsender]
  have hlength : ∀ el ∈ messages, (backlogPacket st c login el).body.length =
      messageSize (nameOf st el.sender) el.message := by
    intro el hel
    rw [hbody el hel, length_directMessageIncoming]
  refine ⟨?_, ?_, ?_⟩
  · refine List.forall_mem_map.mpr fun el hel => ?_
    exact Or.inr ⟨.directMessageIncoming, _, hbody el hel⟩
  · refine List.forall_mem_map.mpr fun el hel => Or.inr ?_
    rw [hlength el hel]
    exact List.mem_map_of_mem hel
  · refine List.forall_mem_map.mpr fun el hel => ?_
    exact ⟨_, List.mem_map_of_mem hel, hlength el hel⟩

/-- The RESULT comes last, if the backlog can be marked. -/
theorem welcome_sends {login : Bytes}
    (hrun : (dispatch env c packetType body).run w = .ok (some r, some login) w₁)
    (hanswered : Answered env w.store packetType r (some login))
    (hlive : (w₁.sessions c).isSome)
    (hsenders : SendersFound w₁.store (backlog env login w₁.store))
    (hknown : (∃ id, getIdByLogin login w₁.store = .ok id) ∨
      drawnToken env w.store packetType = none) :
    Sends (backlogSizes w₁.store (backlog env login w₁.store) ++
        if (backlog env login w₁.store).length ≤ maxVariableNumber then
          ((drawnToken env w.store packetType).map (fun token => 8 + token.length)).toList
        else []) w₁ (w.receive env c packetType body) := by
  have hcurrent := currentLogin_withLogin hlive login
  have hstore : (withLogin w₁ c login).store = w₁.store := rfl
  have hhanded : Sends (backlogSizes w₁.store (backlog env login w₁.store)) w₁
      (withHanded (withLogin w₁ c login) c (backlog env login w₁.store)) := by
    refine ⟨_, rfl, ?_⟩
    exact accounts_backlog hsenders c _
  have hcases := deliverPending_cases env c (withLogin w₁ c login)
  rw [hcurrent, hstore] at hcases
  unfold World.receive
  rcases hcases with ⟨-, -, hshort, hok⟩ | ⟨handed, hlost, hpre, herror⟩ | ⟨hlong, herror⟩
  · rw [handlePacket_delivered hrun hok, if_pos hshort]
    have hwelcomed : Sends (backlogSizes w₁.store (backlog env login w₁.store)) w₁
        (welcomed env w₁ c login) := hhanded
    refine hwelcomed.trans (sends_answer _ c packetType r ?_)
    unfold Answered answerSize at hanswered
    cases htoken : drawnToken env w.store packetType with
    | none =>
      simp only [htoken] at hanswered
      exact Or.inl ⟨rfl, by omega⟩
    | some token =>
      simp only [htoken] at hanswered
      exact Or.inr (by rw [hanswered]; rfl)
  · rcases hlost with ⟨e, he⟩ | hlost
    · have hempty : backlog env login w₁.store = [] := by
        rw [backlog, he]
      have hnone : drawnToken env w.store packetType = none := by
        refine hknown.resolve_left ?_
        rintro ⟨id, hid⟩
        cases hid.symm.trans he
      rw [hempty, List.prefix_nil] at hpre
      subst hpre
      rw [hempty] at hhanded ⊢
      rw [handlePacket_undelivered hrun herror]
      simp only [hnone, Option.map_none, Option.toList_none, ite_self, List.append_nil]
      exact hhanded
    · exact absurd hsenders hlost
  · rw [handlePacket_undelivered hrun herror]
    simp only [if_neg hlong.not_ge, List.append_nil]
    exact hhanded

theorem nameOf_of_quiet {st st' : Store} (hquiet : Quiet env st st') {id : ℤ}
    (h : hasUser st id) : nameOf st' id = nameOf st id := by
  obtain ⟨u, hu⟩ := Option.isSome_iff_exists.mp h
  simp only [nameOf, getLoginById, hu, hquiet.findUser hu]

/-- The users who have sent a backlog have been there before the packet. -/
theorem sender_of_backlog {st : Store} (hcorresponding : ∀ r ∈ st.db.directMessages.rows,
    hasUser st r.sender ∧ hasUser st r.recipient) {login : Bytes} {el : StoredMessage}
    (h : el ∈ backlog env login st) : hasUser st el.sender := by
  obtain ⟨r, hr, rfl⟩ := row_of_backlog h
  exact (hcorresponding r hr).1

theorem authentication_sends {login : Bytes} (h : Sound env w.store)
    (hlive : (w.sessions c).isSome)
    (hauth : authenticatesAs env w packetType body = some login) :
    Sends (welcomeSizes env w login packetType) w (w.receive env c packetType body) := by
  obtain ⟨r, st, token, hrun, -, hquiet, hfound⟩ := accepted_of_authenticatesAs h c hauth
  have hbacklog : backlog env login st = backlog env login w.store :=
    backlog_of_quiet hquiet (fun r hr => (h.corresponding r hr).2) login
  have hnames : backlogSizes st (backlog env login w.store) =
      backlogSizes w.store (backlog env login w.store) := by
    refine List.map_congr_left fun el hel => ?_
    rw [nameOf_of_quiet hquiet (sender_of_backlog h.corresponding hel)]
  have hknown : (∃ id, getIdByLogin login st = .ok id) ∨
      drawnToken env w.store packetType = none := by
    by_cases hverify : packetType = .tokenVerify
    · subst hverify
      exact Or.inr rfl
    · rcases getIdByLogin_cases login st with ⟨-, id, hid⟩ | ⟨hunknown, -⟩
      · exact Or.inl ⟨id, hid⟩
      · exact absurd (hfound.mpr (Or.inl hverify)) hunknown
  have hsends := welcome_sends hrun
    (answered_authentication (authenticating_of_authenticatesAs hauth) hrun)
    (isSome_withToken hlive st token)
    (sendersFound_backlog (h.corresponding_of_quiet hquiet) env login) hknown
  have hstore : (withToken w c st token).store = st := rfl
  rw [hstore, hbacklog, hnames] at hsends
  exact hsends

theorem refused_sends (h : Sound env w.store) (hauth : Authenticating packetType)
    (hnone : authenticatesAs env w packetType body = none) :
    Sends [] w (w.receive env c packetType body) := by
  by_cases hdecodes : ∀ T, requestStruct packetType = some T → ¬ Malformed T body
  · have hcase := dispatch_authentication h.drawn c hauth hdecodes
    generalize hrun : (dispatch env c packetType body).run w = result at hcase
    cases hcase with
    | refused r st _ _ _ =>
      have hshort : r.serialize.length < 2 ^ 32 := answered_authentication hauth hrun
      unfold World.receive
      rw [handlePacket_answered hrun]
      exact sends_answer { w with store := st } c packetType r (Or.inl ⟨rfl, hshort⟩)
    | accepted r login st token _ hlogin _ _ => cases hnone.symm.trans hlogin
  · push Not at hdecodes
    obtain ⟨T, hT, hbad⟩ := hdecodes
    obtain ⟨e, he⟩ := malformed_iff.mp hbad
    unfold World.receive
    rw [handlePacket_thrown (dispatch_malformed hT he w)]
    exact sends_nothing rfl

/-- LOGOUT, a request that does not decode, and a type that no client sends. -/
theorem dispatch_unrequested (hauth : ¬ Authenticating packetType)
    (hrequest : requestOf env packetType body = none) :
    (∃ e, (dispatch env c packetType body).run w = .error e w) ∨
      ∃ w₁, w₁.sent = w.sent ∧ (dispatch env c packetType body).run w = .ok (none, none) w₁ := by
  have undecoded : ∀ {T : MessageType} {f : T.Value → TokenRequest},
      requestStruct packetType = some T → (T.deserialize body).toOption.map f = none →
      ∃ e, (dispatch env c packetType body).run w = .error e w := by
    intro T f hT hnone
    obtain ⟨e, he⟩ := toOption_map_none hnone
    exact ⟨e, dispatch_malformed hT he w⟩
  cases packetType with
  | register => exact absurd (Or.inl rfl) hauth
  | login => exact absurd (Or.inr (Or.inl rfl)) hauth
  | tokenVerify => exact absurd (Or.inr (Or.inr rfl)) hauth
  | logout =>
    rcases dispatch_logout env c body w with herror | ⟨store, -, hrun⟩
    · exact Or.inl herror
    · exact Or.inr ⟨withoutLogin w c store, rfl, hrun⟩
  | result | friendNewRequest | friendRequestAccepted | friendRequestRejected | unnamed _ =>
    exact Or.inr ⟨w, rfl, rfl⟩
  | _ => exact Or.inl (undecoded rfl hrequest)

theorem unrequested_sends (hauth : ¬ Authenticating packetType)
    (hrequest : requestOf env packetType body = none) :
    Sends [] w (w.receive env c packetType body) := by
  unfold World.receive
  rcases dispatch_unrequested (c := c) (w := w) hauth hrequest with ⟨e, hrun⟩ | ⟨w₁, hsent, hrun⟩
  · rw [handlePacket_thrown hrun]
    exact sends_nothing rfl
  · rw [handlePacket_answered hrun]
    exact sends_nothing hsent

theorem receive_sends (h : Sound env w.store) (hlive : (w.sessions c).isSome) :
    Sends (bodySizes env w packetType body) w (w.receive env c packetType body) := by
  unfold bodySizes
  cases hlogin : authenticatesAs env w packetType body with
  | some login => exact authentication_sends h hlive hlogin
  | none =>
    by_cases hauth : Authenticating packetType
    · have hrequest : requestOf env packetType body = none := by
        rcases hauth with rfl | rfl | rfl <;> rfl
      rw [hrequest]
      exact refused_sends h hauth hlogin
    · cases hrequest : requestOf env packetType body with
      | none => exact unrequested_sends hauth hrequest
      | some t => exact request_sends h c hrequest

theorem step_sends (h : Sound env w.store) (e : Event) :
    Sends (stepSizes env w e) w (w.step env e) := by
  cases e with
  | packet c packetType body =>
    simp only [World.step, stepSizes]
    split
    · rename_i hlive
      exact receive_sends h hlive.2
    · exact sends_nothing rfl
  | connect =>
    simp only [World.step]
    split <;> exact sends_nothing rfl
  | disconnect d =>
    simp only [World.step]
    split <;> exact sends_nothing rfl
  | cleanTokens =>
    simp only [World.step]
    split <;> exact sends_nothing rfl
  | restart =>
    simp only [World.step]
    split <;> exact sends_nothing rfl

theorem length_nameOf_le {st : Store} (h : TextsFit st) (id : ℤ) :
    (nameOf st id).length ≤ maxLength := by
  unfold nameOf
  cases hid : getLoginById id st with
  | ok login => exact length_getLoginById_le h hid
  | error e => exact Nat.zero_le _

theorem messageSize_small {login message : Bytes} (hlogin : login.length ≤ maxLength)
    (hmessage : message.length ≤ maxLength) : messageSize login message < 2 ^ 32 := by
  unfold messageSize maxLength at *
  omega

theorem backlogSizes_small {st : Store} (h : TextsFit st) (env : Env) (login : Bytes) :
    ∀ size ∈ backlogSizes st (backlog env login st), size < 2 ^ 32 := by
  refine List.forall_mem_map.mpr fun el hel => ?_
  obtain ⟨r, hr, rfl⟩ := row_of_backlog hel
  exact messageSize_small (length_nameOf_le h _)
    ((length_getText_le _).trans (h.messages r hr))

theorem pushSizes_small {recipientLogin senderLogin message : Bytes}
    (hsender : senderLogin.length ≤ maxLength) (hmessage : message.length ≤ maxLength) :
    ∀ size ∈ pushSizes w recipientLogin senderLogin message, size < 2 ^ 32 := by
  intro size hsize
  unfold pushSizes at hsize
  split at hsize
  · split at hsize
    · rw [List.mem_singleton.mp hsize]
      exact messageSize_small hsender hmessage
    · cases hsize
  · cases hsize

theorem directMessage_small (h : TextsFit w.store)
    (hwithin : WithinLimit (.packet c .directMessage body)) :
    ∀ size ∈ bodySizes env w .directMessage body, size < 2 ^ 32 := by
  intro size hsize
  cases hreq : deserialize DirectMessageRequest body with
  | error e =>
    simp only [bodySizes, authenticatesAs, requestOf, hreq] at hsize
    cases hsize
  | ok req =>
    have hrequest : requestOf env .directMessage body = some ⟨req.token,
        fun e => .directMessage ⟨e⟩, directMessageAct env req.recipientLogin req.message⟩ := by
      simp only [requestOf, hreq]
      rfl
    simp only [bodySizes, authenticatesAs, hrequest, actSizes, hreq] at hsize
    cases htoken : tokenLogin env req.token w.store with
    | none =>
      rw [htoken] at hsize
      cases hsize
    | some login =>
      rw [htoken] at hsize
      exact pushSizes_small (length_tokenLogin_le h htoken) (length_message_le hwithin hreq)
        size hsize

/-- Where every stored text is within SQLite's limit, only the open sizes can be too large. -/
theorem smallSums_iff (h : TextsFit w.store) (e : Event) (hwithin : WithinLimit e) :
    (∀ size ∈ stepSizes env w e, size < 2 ^ 32) ↔ SmallSums env w e := by
  unfold SmallSums
  cases e with
  | packet c packetType body =>
    simp only [stepSizes, openStepSizes]
    split
    · unfold openSizes
      cases hlogin : authenticatesAs env w packetType body with
      | some login =>
        simp only [bodySizes, hlogin, welcomeSizes]
        rw [List.forall_mem_append]
        exact and_iff_right (backlogSizes_small h env login)
      | none =>
        by_cases htype : packetType = .directMessage
        · subst htype
          rw [if_pos rfl]
          exact iff_of_true (directMessage_small h hwithin)
            fun size hsize => absurd hsize List.not_mem_nil
        · rw [if_neg htype]
    · exact Iff.rfl
  | _ => exact Iff.rfl

/-- What the step sends is sized right exactly when its sums are small. -/
theorem sized_step_iff (h : Sound env w.store) (hfit : TextsFit w.store) (e : Event)
    (hwithin : WithinLimit e) (hsized : ∀ p ∈ w.sent, Sized p) :
    (∀ p ∈ (w.step env e).sent, Sized p) ↔ SmallSums env w e := by
  obtain ⟨new, hsent, hnew⟩ := step_sends h e
  rw [hsent, List.forall_mem_append, and_iff_right hsized, ← smallSums_iff hfit e hwithin]
  constructor
  · intro hall size hsize
    obtain ⟨p, hp, hlength⟩ := hnew.sent size hsize
    exact hlength ▸ (hall p hp).short
  · intro hsmall p hp
    refine sized_of_short (hnew.encodes p hp) ?_
    exact (hnew.sized p hp).elim id (hsmall _)

/-- All bodies have been sized right exactly when every step's sums were small. -/
theorem sized_run_iff (h : Sound env w.store) (hfit : TextsFit w.store) {events : List Event}
    (hwithin : ∀ e ∈ events, WithinLimit e) (hsized : ∀ p ∈ w.sent, Sized p) :
    (∀ p ∈ (LabelledRuns.run (World.step env) w events).sent, Sized p) ↔
      LabelledRuns.Along (World.step env) (SmallSums env) w events := by
  induction events generalizing w with
  | nil => exact iff_of_true hsized trivial
  | cons e rest ih =>
    obtain ⟨hfirst, hlater⟩ := List.forall_mem_cons.mp hwithin
    have hstep := sized_step_iff h hfit e hfirst hsized
    have hrest := ih (w := w.step env e) (sound_step env e h) (textsFit_step env e hfit hfirst)
      hlater
    rw [LabelledRuns.run_cons, LabelledRuns.Along, ← hstep]
    constructor
    · intro hall
      have hafter : ∀ p ∈ (w.step env e).sent, Sized p :=
        fun p hp => hall p ((run_keepsSent env _ rest).subset hp)
      exact ⟨hafter, (hrest hafter).mp hall⟩
    · exact fun hboth => (hrest hboth.1).mpr hboth.2

end

/-- In every run whose packets hand SQLite no text beyond its limit, each body that was passed
to send_packet is shorter than 2^32 bytes with no length or count in it narrowed, and every
client reads the packets that were sent to it, exactly when in each step the lengths of the
texts that a line of the general chat or a list packed added up to less. -/
theorem bodies_sized_iff (env : Env) (files : ℕ → Option Bytes) (events : List Event)
    (hwithin : ∀ e ∈ events, WithinLimit e) :
    ((∀ p ∈ (LabelledRuns.run (World.step env) (World.initial env files) events).sent, Sized p) ∧
        ∀ c, InStep c (LabelledRuns.run (World.step env) (World.initial env files) events)) ↔
      LabelledRuns.Along (World.step env) (SmallSums env) (World.initial env files) events := by
  have hsound : Sound env (World.initial env files).store := sound_reachable ⟨files, [], rfl⟩
  have hnothing : ∀ p ∈ (World.initial env files).sent, Sized p :=
    fun p hp => absurd hp List.not_mem_nil
  rw [← sized_run_iff hsound (textsFit_initial env files) hwithin hnothing]
  exact ⟨fun h => h.1, fun h => ⟨h, fun c => inStep_of_sized h c⟩⟩

/-- "c" writes a text of n bytes to "a". -/
def longMessage (n : ℕ) : DirectMessageRequest := ⟨[97, 97, 97, 97], [97], List.replicate n 104⟩

def longMessageEvent (n : ℕ) : Event := .packet 1 .directMessage (serialize (longMessage n))

/-- "c" asks for its messages with "a". -/
def historyEvent : Event :=
  .packet 1 .messageHistory (serialize (HistoryRequest.mk [97, 97, 97, 97] [97]))

/-- "c" has written k messages of n bytes to "a". -/
structure Talked (n k : ℕ) (w : World) : Prop where
  running : w.status = .running
  writer : (w.sessions 1).isSome
  token : ∀ j ≤ 604800,
    tokenLogin Env.plain [97, 97, 97, 97] { w.store with clockReads := j } = some [99]
  plan : directMessagePlan [97] [99] w.store = .ok (.ok (2, 1))
  self : getIdByLogin [99] w.store = .ok 2
  peer : getIdByLogin [97] w.store = .ok 1
  name : nameOf w.store 2 = [99]
  reads : w.store.clockReads = 5 + 2 * k
  texts : ∀ r ∈ w.store.db.directMessages.rows,
    r.sender = 2 ∧ r.recipient = 1 ∧ r.message = List.replicate n 104
  count : w.store.db.directMessages.rows.length = k

theorem length_longMessage (n : ℕ) : (serialize (longMessage n)).length = 17 + n := by
  simp only [longMessage, serialize, Serializable.fields, length_serializeTuple, length_bytes,
    length_unit, List.length_replicate, List.length_cons, List.length_nil]
  omega

theorem talked_step {n k : ℕ} {w : World} (h : Talked n k w) (hn : 17 + n < 2 ^ 32)
    (hk : 5 + 2 * k ≤ 604800) : Talked n (k + 1) (w.step Env.plain (longMessageEvent n)) := by
  have hlogin : tokenLogin Env.plain [97, 97, 97, 97] w.store = some [99] :=
    h.token w.store.clockReads (h.reads ▸ hk)
  have hreq : deserialize DirectMessageRequest (serialize (longMessage n)) = .ok (longMessage n) :=
    deserialize_serialize_of_length (length_longMessage n ▸ hn)
  have hrequest : requestOf Env.plain .directMessage (serialize (longMessage n)) =
      some ⟨[97, 97, 97, 97], fun e => .directMessage ⟨e⟩,
        directMessageAct Env.plain [97] (List.replicate n 104)⟩ := by
    simp only [requestOf, hreq]
    rfl
  have hact := directMessageAct_run Env.plain [97] (List.replicate n 104) [99]
    { w with store := ticked w.store }
  have hplan : directMessagePlan [97] [99] (ticked w.store) = .ok (.ok (2, 1)) := h.plan
  simp only [hplan] at hact
  have hrun : (dispatch Env.plain 1 .directMessage (serialize (longMessage n))).run w =
      .ok (some (.directMessage ⟨Error.Base.ok⟩), none)
        (withDirectMessage Env.plain { w with store := ticked w.store } [97] [99]
          (List.replicate n 104) 2 1) := by
    rw [dispatch_request 1 hrequest w]
    exact answer_run ((withAccount_some _ _ hlogin).trans hact)
  have hstep : w.step Env.plain (longMessageEvent n) = withAnswer
      (withDirectMessage Env.plain { w with store := ticked w.store } [97] [99]
        (List.replicate n 104) 2 1) 1 .directMessage (some (.directMessage ⟨Error.Base.ok⟩)) :=
    step_of_handled h.running h.writer (handlePacket_answered hrun)
  rw [hstep]
  exact {
    running := h.running
    writer := h.writer
    token := h.token
    plan := h.plan
    self := h.self
    peer := h.peer
    name := h.name
    reads := by
      have hreads : w.store.clockReads + 1 + 1 = 5 + 2 * (k + 1) := by
        rw [h.reads]
        omega
      exact hreads
    texts := by
      intro r hr
      rcases List.mem_append.mp hr with hold | hnew
      · exact h.texts r hold
      · rw [List.mem_singleton.mp hnew]
        exact ⟨rfl, rfl, rfl⟩
    count := (List.length_append).trans (congrArg (· + 1) h.count) }

theorem talked_away (n : ℕ) : Talked n 0
    (LabelledRuns.run (World.step Env.plain) (World.initial Env.plain fun _ => none) away) where
  running := writing_away.running
  writer := writing_away.writer
  token := writing_away.token
  plan := writing_away.plan
  self := by decide
  peer := writing_away.user
  name := by decide
  reads := writing_away.reads
  texts := by
    rw [writing_away.written]
    exact fun r hr => absurd hr List.not_mem_nil
  count := by decide

theorem talked_run {n : ℕ} (hn : 17 + n < 2 ^ 32) (k : ℕ) (hk : 5 + 2 * k ≤ 604800) : Talked n k
    (LabelledRuns.run (World.step Env.plain) (World.initial Env.plain fun _ => none)
      (away ++ List.replicate k (longMessageEvent n))) := by
  induction k with
  | zero =>
    rw [List.replicate_zero, List.append_nil]
    exact talked_away n
  | succ k ih =>
    rw [List.replicate_succ', ← List.append_assoc, LabelledRuns.run_append]
    exact talked_step (ih (by omega)) hn (by omega)

/-- The answer holds every one of them. -/
theorem Talked.historySizes {n k : ℕ} {w : World} (h : Talked n k w) (hk : k ≤ 100) :
    historySizes Env.plain [97] [99] w.store = [8 + k * (21 + n)] := by
  have hall : w.store.db.directMessages.rows.filter (between 2 1) =
      w.store.db.directMessages.rows := by
    refine List.filter_eq_self.mpr fun r hr => ?_
    obtain ⟨hsender, hrecipient, -⟩ := h.texts r hr
    exact between_iff.mpr (Or.inl ⟨hsender, hrecipient⟩)
  have hperm := inOrder_perm Env.plain 2 1 w.store
  rw [conversation, hall] at hperm
  have hcount : (inOrder Env.plain 2 1 w.store).length = k := by
    rw [hperm.length_eq, List.length_map, h.count]
  have hhistory : getHistory Env.plain 2 1 100 w.store = inOrder Env.plain 2 1 w.store :=
    (getHistory_eq 100).trans (List.take_of_length_le (hcount.trans_le hk))
  have hread : getText (List.replicate n 104) = List.replicate n 104 :=
    (getText_eq_self_iff _).mpr fun hzero => by cases List.eq_of_mem_replicate hzero
  have hentry : ∀ size ∈ (inOrder Env.plain 2 1 w.store).map
      (fun m => 4 + messageSize (nameOf w.store m.sender) m.message), size = 21 + n := by
    refine List.forall_mem_map.mpr fun m hm => ?_
    obtain ⟨r, hr, rfl⟩ := List.mem_map.mp (hperm.subset hm)
    obtain ⟨hsender, -, htext⟩ := h.texts r hr
    simp only [readBack, hsender, htext, h.name, hread, messageSize, List.length_replicate,
      List.length_cons, List.length_nil]
    omega
  simp only [BodySizes.historySizes, h.self, h.peer, hhistory]
  rw [List.sum_eq_card_nsmul _ _ hentry, List.length_map, hcount, smul_eq_mul]

theorem Talked.stepSizes {n k : ℕ} {w : World} (h : Talked n k w) (hk : k ≤ 100) :
    stepSizes Env.plain w historyEvent = [8 + k * (21 + n)] := by
  have hlogin : tokenLogin Env.plain [97, 97, 97, 97] w.store = some [99] := by
    refine h.token w.store.clockReads ?_
    rw [h.reads]
    omega
  have hrequest : requestOf Env.plain .messageHistory
      (serialize (HistoryRequest.mk [97, 97, 97, 97] [97])) =
      some ⟨[97, 97, 97, 97], fun e => .history ⟨[], e⟩, historyAct Env.plain [97]⟩ := rfl
  have hact : actSizes Env.plain w [99] .messageHistory
      (serialize (HistoryRequest.mk [97, 97, 97, 97] [97])) =
      BodySizes.historySizes Env.plain [97] [99] w.store := rfl
  simp only [BodySizes.stepSizes, historyEvent, h.running, h.writer, and_self, if_true, bodySizes,
    authenticatesAs, hrequest, hlogin, hact, h.historySizes hk]

theorem wraps_after {n : ℕ} (hn : 17 + n < 2 ^ 32) (hlong : 2 ^ 32 ≤ 8 + 5 * (21 + n)) :
    ¬ ∀ p ∈ (LabelledRuns.run (World.step Env.plain) (World.initial Env.plain fun _ => none)
      (away ++ List.replicate 5 (longMessageEvent n) ++ [historyEvent])).sent, Sized p := by
  intro hsized
  rw [LabelledRuns.run_append, LabelledRuns.run_cons, LabelledRuns.run_nil] at hsized
  have htalked := talked_run hn 5 (by decide)
  generalize hw : LabelledRuns.run (World.step Env.plain) (World.initial Env.plain fun _ => none)
    (away ++ List.replicate 5 (longMessageEvent n)) = w at hsized htalked
  obtain ⟨new, hsent, hnew⟩ := step_sends (sound_reachable ⟨_, _, hw⟩) historyEvent
  rw [htalked.stepSizes (by decide)] at hnew
  obtain ⟨p, hp, hlength⟩ := hnew.sent _ (List.mem_singleton_self _)
  have hshort := (hsized p (hsent ▸ List.mem_append_right _ hp)).short
  omega

theorem withinLimit_longMessage {n : ℕ} (hn : n ≤ maxLength) :
    WithinLimit (longMessageEvent n) := by
  have hfits : 17 + n < 2 ^ 32 := by
    unfold maxLength at hn
    omega
  have hreq : deserialize DirectMessageRequest (serialize (longMessage n)) = .ok (longMessage n) :=
    deserialize_serialize_of_length (length_longMessage n ▸ hfits)
  have htexts : boundTexts .directMessage (serialize (longMessage n)) =
      [[97, 97, 97, 97], [97], List.replicate n 104] := by
    simp only [boundTexts, decodedTexts, hreq]
    rfl
  intro text htext
  simp only [htexts, List.mem_cons, List.not_mem_nil, or_false] at htext
  rcases htext with rfl | rfl | rfl
  · decide
  · decide
  · rwa [List.length_replicate]

theorem withinLimit_talk {n : ℕ} (hn : n ≤ maxLength) (k : ℕ) :
    ∀ e ∈ away ++ List.replicate k (longMessageEvent n) ++ [historyEvent], WithinLimit e := by
  refine List.forall_mem_append.mpr ⟨List.forall_mem_append.mpr ⟨by decide, fun e he => ?_⟩, ?_⟩
  · rw [List.eq_of_mem_replicate he]
    exact withinLimit_longMessage hn
  · decide

/-- Five short texts are no trouble. -/
theorem bodies_sized_iff_short :
    (∀ p ∈ (LabelledRuns.run (World.step Env.plain) (World.initial Env.plain fun _ => none)
        (away ++ List.replicate 5 (longMessageEvent 3) ++ [historyEvent])).sent, Sized p) ∧
      ∀ c, InStep c (LabelledRuns.run (World.step Env.plain)
        (World.initial Env.plain fun _ => none)
        (away ++ List.replicate 5 (longMessageEvent 3) ++ [historyEvent])) :=
  (bodies_sized_iff Env.plain (fun _ => none) _ (withinLimit_talk (by decide) 5)).mpr
    (by decide +kernel)

/-- Not every body is sized right: the history of two friends one of whom has written five
texts of 900 000 000 bytes, each of which SQLite stores. -/
theorem long_history_wraps :
    (∀ e ∈ away ++ List.replicate 5 (longMessageEvent 900000000) ++ [historyEvent],
        WithinLimit e) ∧
      ¬ ∀ p ∈ (LabelledRuns.run (World.step Env.plain) (World.initial Env.plain fun _ => none)
        (away ++ List.replicate 5 (longMessageEvent 900000000) ++ [historyEvent])).sent, Sized p :=
  ⟨withinLimit_talk (by decide) 5, wraps_after (by decide) (by decide)⟩

end Messenger.SizedRuns
