import Messenger.TableSteps

/-!
What is reported of a stored message. A DIRECT_MESSAGE that is accepted adds one row and is
pushed to the recipient's session; from then on deliver_pending, MESSAGE_HISTORY and
CHAT_LIST report what the row holds, as `getText` reads it. The row keeps its text and its
time over any run, so what these paths say can be compared with what was pushed.
-/
namespace Messenger.Reports

open KeyedTables BigEndian Outcomes ClientSession UserRepository MessageRepository FriendStates
  HandlerActions HandlePacket ServerSteps TokenIdentity MessageRows TokenRequests TableSteps

/-- The entry of CHAT_LIST that is made of a row. -/
def lastMessage (userId : ℤ) (st : Store) (r : DirectMessageRow) : LastMessage where
  peerLogin :=
    match getLoginById (peerOf userId r) st with
    | .ok login => login
    | .error _ => []
  message := getText r.message
  timestamp := r.createAt

theorem getLastMessages_eq (env : Env) (userId : ℤ) (st : Store) :
    getLastMessages env userId st =
      (env.sqlite.orderBy (fun r => -r.createAt) (lastRows env userId st)).map
        (lastMessage userId st) := rfl

/-- The text and the time that deliver_pending, MESSAGE_HISTORY and CHAT_LIST report of the
row with this id; all three put the time on the wire as an `int64_t`. -/
inductive Reported (env : Env) (st : Store) (row : ℤ) : Bytes → Int64 → Prop where
  | pending (login : Bytes) (el : StoredMessage) (hel : el ∈ backlog env login st)
      (hrow : el.id = row) : Reported env st row el.message (Int64.ofInt el.timestamp)
  | history (user peer limit : ℤ) (m : DirectMessage) (hm : m ∈ getHistory env user peer limit st)
      (hrow : m.id = row) : Reported env st row m.message (Int64.ofInt m.timestamp)
  | chat (user : ℤ) (r : DirectMessageRow) (hr : r ∈ lastRows env user st) (hrow : r.id = row) :
      Reported env st row (lastMessage user st r).message
        (Int64.ofInt (lastMessage user st r).timestamp)

section

variable {env : Env} {st : Store}

theorem row_of_backlog {login : Bytes} {el : StoredMessage} (h : el ∈ backlog env login st) :
    ∃ r ∈ st.db.directMessages.rows, el = ⟨r.id, r.sender, r.createAt, getText r.message⟩ := by
  unfold backlog at h
  cases hid : getIdByLogin login st with
  | error e =>
    rw [hid] at h
    exact absurd h List.not_mem_nil
  | ok id =>
    rw [hid] at h
    obtain ⟨r, hr, rfl⟩ := List.mem_map.mp h
    exact ⟨r, List.mem_of_mem_filter ((env.sqlite.orderBy_perm _ _).subset hr), rfl⟩

/-- CHAT_LIST shows a latest message with each peer. -/
theorem latest_of_lastRows {user : ℤ} {r : DirectMessageRow} (h : r ∈ lastRows env user st) :
    (r ∈ st.db.directMessages.rows ∧ (r.sender = user ∨ r.recipient = user)) ∧
      ∀ other ∈ st.db.directMessages.rows, (other.sender = user ∨ other.recipient = user) →
        peerOf user other = peerOf user r → other.createAt ≤ r.createAt := by
  obtain ⟨peer, hpeer, hmax⟩ := List.mem_filterMap.mp h
  obtain ⟨own, hown, hpeerOf⟩ := List.mem_map.mp (List.mem_dedup.mp hpeer)
  generalize hgroup : (st.db.directMessages.rows.filter
      (fun r => r.sender == user || r.recipient == user)).filter
      (fun r => peerOf user r == peer) = group at hmax
  have hmem : ∀ r, r ∈ group ↔ (r ∈ st.db.directMessages.rows ∧
      (r.sender = user ∨ r.recipient = user)) ∧ peerOf user r = peer := by
    intro r
    rw [← hgroup, List.mem_filter, List.mem_filter, Bool.or_eq_true, beq_iff_eq, beq_iff_eq,
      beq_iff_eq]
  have hne : group ≠ [] := by
    refine List.ne_nil_of_mem ((hmem own).mpr ⟨?_, hpeerOf⟩)
    rwa [List.mem_filter, Bool.or_eq_true, beq_iff_eq, beq_iff_eq] at hown
  obtain ⟨bare, hbare, hattains, hlatest⟩ :=
    env.sqlite.maxRow_attains DirectMessageRow.createAt group hne
  have hsame : bare = r := by
    have hkept := (Option.filter_eq_some_iff.mp hmax).1
    exact Option.some.inj (hattains.symm.trans hkept)
  subst hsame
  obtain ⟨hrow, hpeerBare⟩ := (hmem bare).mp hbare
  refine ⟨hrow, fun other hother hinvolved hpeers => ?_⟩
  exact hlatest other ((hmem other).mpr ⟨⟨hother, hinvolved⟩, hpeers.trans hpeerBare⟩)

/-- Every report is read off a row. -/
theorem row_of_report {row : ℤ} {text : Bytes} {time : Int64} (h : Reported env st row text time) :
    ∃ r ∈ st.db.directMessages.rows, r.id = row ∧ text = getText r.message ∧
      time = Int64.ofInt r.createAt := by
  cases h with
  | pending login el hel hrow =>
    obtain ⟨r, hr, rfl⟩ := row_of_backlog hel
    exact ⟨r, hr, hrow, rfl, rfl⟩
  | history user peer limit m hm hrow =>
    obtain ⟨r, hr, rfl⟩ := List.mem_map.mp hm
    exact ⟨r, List.mem_of_mem_filter ((env.sqlite.orderBy_perm _ _).subset (mem_of_limited hr)),
      hrow, rfl, rfl⟩
  | chat user r hr hrow => exact ⟨r, (latest_of_lastRows hr).1.1, hrow, rfl, rfl⟩

end

/-- The id is taken, and whoever bears it is this message. -/
structure Holds (row : DirectMessageRow) (st : Store) : Prop where
  taken : row.id ≤ st.db.directMessages.seq
  same : ∀ r ∈ st.db.directMessages.rows, r.id = row.id →
    r.createAt = row.createAt ∧ r.message = row.message

theorem holds_step (env : Env) {row : DirectMessageRow} {w : World} (e : Event)
    (hsound : Sound env w.store) (h : Holds row w.store) : Holds row (w.step env e).store := by
  have hstep := step_tableStep env e hsound.normalised
  generalize w.step env e = w' at hstep
  cases hstep with
  | kept e w' ids _ hmessages =>
    constructor
    · rw [hmessages]
      exact h.taken
    · intro r hr hid
      rw [hmessages] at hr
      obtain ⟨old, hold, hunmarked, htime⟩ := unmarked_row hr
      rw [htime, hunmarked.message]
      exact h.same old hold (hunmarked.id.symm.trans hid)
  | befriended c packetType body x y call w' _ _ _ _ _ hmessages _ =>
    exact ⟨hmessages ▸ h.taken, hmessages ▸ h.same⟩
  | stored c body req login sender recipient _ _ _ _ _ =>
    rw [withAnswer_store]
    constructor
    · exact h.taken.trans (Int.le_add_one le_rfl)
    · intro r hr hid
      rcases List.mem_append.mp hr with hold | hnew
      · exact h.same r hold hid
      · rw [List.mem_singleton.mp hnew] at hid
        have htaken := h.taken
        have hnext : w.store.db.directMessages.seq + 1 = row.id := hid
        omega

theorem holds_run (env : Env) {row : DirectMessageRow} {w : World} (hsound : Sound env w.store)
    (h : Holds row w.store) (events : List Event) :
    Holds row (LabelledRuns.run (World.step env) w events).store :=
  (LabelledRuns.invariant (P := fun w : World => Sound env w.store ∧ Holds row w.store)
    (fun _ e hboth => ⟨sound_step env e hboth.1, holds_step env e hboth.1 hboth.2⟩)
    ⟨hsound, h⟩ events).2

/-- The course of a DIRECT_MESSAGE that is answered OK. -/
theorem accepted_run {env : Env} {w : World} {c : ConnId} {body : Bytes}
    (hlive : (w.sessions c).isSome)
    (haccepted : AnsweredWith env w c .directMessage body (.directMessage ⟨Error.Base.ok⟩)) :
    ∃ req login sender recipient, deserialize DirectMessageRequest body = .ok req ∧
      directMessagePlan req.recipientLogin login w.store = .ok (.ok (sender, recipient)) ∧
      (handlePacket env c .directMessage body).run w = .ok ()
        (withAnswer (withDirectMessage env { w with store := ticked w.store } req.recipientLogin
          login req.message sender recipient) c .directMessage
          (some (.directMessage ⟨Error.Base.ok⟩))) := by
  obtain ⟨w', before, hrun, hsent⟩ := id haccepted
  cases hrequest : requestOf env .directMessage body with
  | none =>
    obtain ⟨e, he⟩ := toOption_map_none hrequest
    have hthrown : (dispatch env c .directMessage body).run w = .error e w :=
      MalformedBodies.run_answer (MalformedBodies.run_decode_bind he _ w)
    cases hrun.symm.trans (handlePacket_thrown hthrown)
  | some t =>
    have hdispatch := dispatch_request c hrequest w
    obtain ⟨req, hreq, rfl⟩ := toOption_map_some hrequest
    cases hlogin : tokenLogin env req.token w.store with
    | none =>
      obtain ⟨e, st, hlook, hact⟩ := withAccount_none (fun e => .directMessage ⟨e⟩)
        (directMessageAct env req.recipientLogin req.message) hlogin
      have hend := hdispatch.trans (answer_run hact)
      have hcases := handlePacket_handling env .directMessage body hlive
      rw [hrun] at hcases
      cases hcases with
      | answered r w₁ hend' =>
        obtain rfl := response_of_sent hend' rfl hsent
        cases hend.symm.trans hend'
        cases ok_of_lookedUp_error hlook
      | welcomed r l w₁ hend' _ _ => cases hend.symm.trans hend'
    | some login =>
      have houtcome : outcome ((directMessageAct env req.recipientLogin req.message login).run
          { w with store := ticked w.store }) = .ok (.directMessage ⟨Error.Base.ok⟩) :=
        (answered_iff_outcome hlive hrequest hlogin _).mp haccepted
      have hcases := directMessageAct_messaging env req.recipientLogin req.message login
        { w with store := ticked w.store }
      generalize hact : (directMessageAct env req.recipientLogin req.message login).run
        { w with store := ticked w.store } = result at hcases houtcome
      cases hcases with
      | thrown e _ => cases houtcome
      | refused e _ hrefused =>
        cases houtcome
        cases hrefused
      | accepted sender recipient hplan =>
        refine ⟨req, login, sender, recipient, hreq, hplan, ?_⟩
        have hend := hdispatch.trans (answer_run ((withAccount_some _ _ hlogin).trans hact))
        exact handlePacket_answered hend

/-- What handle_packet has done with a message that it accepts: one more row, and packets
pushed before the RESULT. -/
structure Accepts (env : Env) (w : World) (c : ConnId) (body : Bytes) (row : DirectMessageRow)
    (pushes : List Sent) (w' : World) : Prop where
  handled : (handlePacket env c .directMessage body).run w = .ok () w'
  stored : w'.store.db.directMessages.rows = w.store.db.directMessages.rows ++ [row]
  sent : w'.sent = w.sent ++ pushes ++ [⟨c, .result, serialize (DirectMessageResponse.mk
    Error.Base.ok), .result .directMessage (.directMessage ⟨Error.Base.ok⟩), w'.currentLogin c⟩]

/-- The packet's body carries this time. -/
def CarriesTime (p : Sent) (time : Int64) : Prop :=
  ∃ senderLogin message, p.body = serialize (DirectMessageIncoming.mk senderLogin message time)

def CarriesText (p : Sent) (text : Bytes) : Prop :=
  ∃ senderLogin time, p.body = serialize (DirectMessageIncoming.mk senderLogin text time)

theorem serialize_incoming (d : DirectMessageIncoming) :
    serialize d = packI64 (pack (pack [] d.senderLogin) d.message) d.timestamp := by
  change TupleSerializer.serializeTuple (pack (pack [] d.senderLogin) d.message)
    (d.timestamp, ()) = _
  rfl

/-- The last eight bytes of a DIRECT_MESSAGE are its time. -/
theorem time_of_serialize {d d' : DirectMessageIncoming} (h : serialize d = serialize d') :
    d.timestamp = d'.timestamp := by
  rw [serialize_incoming, serialize_incoming, packI64_eq, packI64_eq] at h
  have hbytes := congrArg ofBytes (List.append_inj' h (by rw [toBytes_length, toBytes_length])).2
  have hsize : 2 ^ 64 = 256 ^ 8 := by decide
  have hlt : ∀ n : UInt64, n.toNat < 256 ^ 8 := fun n => n.toNat_lt.trans_eq hsize
  rw [ofBytes_toBytes, ofBytes_toBytes, Nat.mod_eq_of_lt (hlt _), Nat.mod_eq_of_lt (hlt _)]
    at hbytes
  exact Int64.toBitVec.inj (congrArg UInt64.toBitVec (UInt64.toNat_inj.mp hbytes))

theorem CarriesTime.unique {p : Sent} {time time' : Int64} (h : CarriesTime p time)
    (h' : CarriesTime p time') : time = time' := by
  obtain ⟨senderLogin, message, hbody⟩ := h
  obtain ⟨senderLogin', message', hbody'⟩ := h'
  exact time_of_serialize (hbody.symm.trans hbody')

/-- What is pushed of a message, and the row that reports of it are read off. -/
structure Published (env : Env) (w : World) (req : DirectMessageRequest) (row : DirectMessageRow)
    (pushes : List Sent) (w' : World) : Prop where
  sound : Sound env w'.store
  holds : Holds row w'.store
  id : row.id = w.store.db.directMessages.seq + 1
  time : row.createAt = env.clock (w.store.clockReads + 1)
  text : row.message = req.message
  waiting : Reported env w'.store row.id (getText row.message) (Int64.ofInt row.createAt)
  offline : pushes = [] ↔ w.getSession req.recipientLogin = none
  pushed : ∀ p ∈ pushes, ∃ senderLogin, p.body =
    serialize (DirectMessageIncoming.mk senderLogin req.message (Int64.ofInt row.id))

section

variable {w : World} {recipientLogin senderLogin message : Bytes}

theorem pushed_eq_nil_iff :
    pushed w recipientLogin senderLogin message = [] ↔ w.getSession recipientLogin = none := by
  unfold pushed
  cases w.getSession recipientLogin <;> simp

theorem body_of_pushed {p : Sent} (h : p ∈ pushed w recipientLogin senderLogin message) :
    p.body = serialize (DirectMessageIncoming.mk senderLogin message
      (Int64.ofInt (w.store.db.directMessages.seq + 1))) := by
  unfold pushed at h
  cases hentry : w.getSession recipientLogin with
  | none =>
    rw [hentry] at h
    exact absurd h List.not_mem_nil
  | some sess =>
    rw [hentry] at h
    rw [List.mem_singleton.mp h]
    rfl

end

/-- The row of a message that has just been stored. -/
def newRow (st : Store) (sender recipient now : ℤ) (message : Bytes) : DirectMessageRow :=
  ⟨st.db.directMessages.seq + 1, sender, recipient, now, message, 0⟩

theorem holds_newRow (st : Store) (sender recipient now : ℤ) (message : Bytes) :
    Holds (newRow st sender recipient now message)
      (withMessage st sender recipient now message) where
  taken := le_rfl
  same := by
    intro r hr hid
    rcases List.mem_append.mp hr with hold | hnew
    · have hbounded := st.db.directMessages.bounded r hold
      have hnext : r.id = st.db.directMessages.seq + 1 := hid
      omega
    · rw [List.mem_singleton.mp hnew]
      exact ⟨rfl, rfl⟩

/-- The new row waits in the backlog of its recipient. -/
theorem waiting_newRow (env : Env) (st : Store) {recipientLogin : Bytes} {recipient : ℤ}
    (hrecipient : getIdByLogin recipientLogin st = .ok recipient) (sender now : ℤ)
    (message : Bytes) :
    Reported env (withMessage st sender recipient now message)
      (newRow st sender recipient now message).id (getText message) (Int64.ofInt now) := by
  have hid : getIdByLogin recipientLogin (withMessage st sender recipient now message) =
    .ok recipient := hrecipient
  have hundelivered : newRow st sender recipient now message ∈
      undeliveredRows recipient (withMessage st sender recipient now message) :=
    List.mem_filter.mpr ⟨List.mem_append_right _ (List.mem_singleton.mpr rfl), by simp [newRow]⟩
  refine Reported.pending recipientLogin
    ⟨st.db.directMessages.seq + 1, sender, now, getText message⟩ ?_ rfl
  unfold backlog
  rw [hid]
  exact List.mem_map.mpr ⟨_, (env.sqlite.orderBy_perm _ _).symm.subset hundelivered, rfl⟩

theorem published_of_accepted {env : Env} {w : World} (hsound : Sound env w.store)
    (hrunning : w.status = .running) {c : ConnId} (hlive : (w.sessions c).isSome) {body : Bytes}
    {req : DirectMessageRequest} (hreq : deserialize DirectMessageRequest body = .ok req)
    (haccepted : AnsweredWith env w c .directMessage body (.directMessage ⟨Error.Base.ok⟩)) :
    ∃ row pushes w', Accepts env w c body row pushes w' ∧
      Published env w req row pushes w' := by
  obtain ⟨req', login, sender, recipient, hreq', hplan, hrun⟩ := accepted_run hlive haccepted
  cases hreq.symm.trans hreq'
  obtain ⟨-, hrecipient, -⟩ := directMessagePlan_ok hplan
  have hsound' := sound_step env (.packet c .directMessage body) hsound
  rw [step_of_handled hrunning hlive hrun] at hsound'
  have haccepts : Accepts env w c body
      (newRow w.store sender recipient (env.clock (w.store.clockReads + 1)) req.message)
      (pushed { w with store := ticked w.store } req.recipientLogin login req.message) _ :=
    ⟨hrun, rfl, rfl⟩
  refine ⟨_, _, _, haccepts, ?_⟩
  exact {
    sound := hsound'
    holds := holds_newRow (ticked w.store) _ _ _ _
    id := rfl
    time := rfl
    text := rfl
    waiting := waiting_newRow env (ticked w.store) hrecipient _ _ _
    offline := pushed_eq_nil_iff
    pushed := fun p hp => ⟨login, body_of_pushed hp⟩ }

/-- Each push bears the time that is stored, and the one that is reported after any events. -/
def TimesAgree (env : Env) (w' : World) (row : DirectMessageRow) (pushes : List Sent) : Prop :=
  ∀ p ∈ pushes, CarriesTime p (Int64.ofInt row.createAt) ∧
    ∀ later text time,
      Reported env (LabelledRuns.run (World.step env) w' later).store row.id text time →
        CarriesTime p time

/-- Each push bears this text, and so does every report after any events. -/
def TextsAgree (env : Env) (w' : World) (row : DirectMessageRow) (pushes : List Sent)
    (text : Bytes) : Prop :=
  (∀ p ∈ pushes, CarriesText p text) ∧
    ∀ later reported time,
      Reported env (LabelledRuns.run (World.step env) w' later).store row.id reported time →
        reported = text

section

variable {env : Env} {w w' : World} {req : DirectMessageRequest} {row : DirectMessageRow}
  {pushes : List Sent}

/-- After any events a report says what the row has held from the start. -/
theorem Published.reported (h : Published env w req row pushes w') {later : List Event}
    {text : Bytes} {time : Int64}
    (hreported : Reported env (LabelledRuns.run (World.step env) w' later).store row.id text time) :
    text = getText req.message ∧ time = Int64.ofInt row.createAt := by
  obtain ⟨r, hr, hid, htext, htime⟩ := row_of_report hreported
  obtain ⟨hcreateAt, hmessage⟩ := (holds_run env h.sound h.holds later).same r hr hid
  exact ⟨by rw [htext, hmessage, h.text], by rw [htime, hcreateAt]⟩

theorem Published.timesAgree_iff (h : Published env w req row pushes w') :
    TimesAgree env w' row pushes ↔ w.getSession req.recipientLogin = none ∨
      Int64.ofInt (w.store.db.directMessages.seq + 1) =
        Int64.ofInt (env.clock (w.store.clockReads + 1)) := by
  rw [← h.offline, ← h.id, ← h.time]
  constructor
  · intro hagree
    cases pushes with
    | nil => exact Or.inl rfl
    | cons p rest =>
      obtain ⟨senderLogin, hbody⟩ := h.pushed p List.mem_cons_self
      have hid : CarriesTime p (Int64.ofInt row.id) := ⟨senderLogin, _, hbody⟩
      exact Or.inr (hid.unique (hagree p List.mem_cons_self).1)
  · rintro (hoffline | htime) p hp
    · rw [hoffline] at hp
      exact absurd hp List.not_mem_nil
    · obtain ⟨senderLogin, hbody⟩ := h.pushed p hp
      rw [htime] at hbody
      refine ⟨⟨senderLogin, _, hbody⟩, fun later text time hreported => ?_⟩
      rw [(h.reported hreported).2]
      exact ⟨senderLogin, _, hbody⟩

theorem Published.textsAgree_iff (h : Published env w req row pushes w') :
    TextsAgree env w' row pushes req.message ↔ 0 ∉ req.message := by
  rw [← getText_eq_self_iff]
  constructor
  · intro hagree
    have hwaiting := hagree.2 [] _ _ h.waiting
    rwa [h.text] at hwaiting
  · intro hnul
    refine ⟨fun p hp => ?_, fun later text time hreported => ?_⟩
    · obtain ⟨senderLogin, hbody⟩ := h.pushed p hp
      exact ⟨senderLogin, _, hbody⟩
    · rw [(h.reported hreported).1, hnul]

end

/-- The push bears the id of the new row for a time. So it agrees with what is stored and
reported exactly when nobody is there to be pushed to, or the id happens to be the time. -/
theorem pushed_time_iff (env : Env) (w : World) (hreach : World.Reachable env w)
    (hrunning : w.status = .running) (c : ConnId) (hlive : (w.sessions c).isSome) (body : Bytes)
    (req : DirectMessageRequest) (hreq : deserialize DirectMessageRequest body = .ok req)
    (haccepted : AnsweredWith env w c .directMessage body (.directMessage ⟨Error.Base.ok⟩)) :
    ∃ row pushes w', Accepts env w c body row pushes w' ∧
      row.createAt = env.clock (w.store.clockReads + 1) ∧
      (TimesAgree env w' row pushes ↔ w.getSession req.recipientLogin = none ∨
        Int64.ofInt (w.store.db.directMessages.seq + 1) =
          Int64.ofInt (env.clock (w.store.clockReads + 1))) := by
  obtain ⟨row, pushes, w', haccepts, hpublished⟩ :=
    published_of_accepted (sound_reachable hreach) hrunning hlive hreq haccepted
  exact ⟨row, pushes, w', haccepts, hpublished.time, hpublished.timesAgree_iff⟩

/-- "a" and "c" are friends and both are online; "c" writes to "a". -/
def bothOnline : World :=
  LabelledRuns.run (World.step Env.plain) (World.initial Env.plain fun _ => none) twoFriends

def messageBody (text : Bytes) : Bytes :=
  serialize (DirectMessageRequest.mk [97, 97, 97, 97] [97] text)

theorem reachable_bothOnline : World.Reachable Env.plain bothOnline := ⟨_, _, rfl⟩

theorem pushed_time_iff_first :
    ∃ row pushes w', Accepts Env.plain bothOnline 1 (messageBody [104]) row pushes w' ∧
      row.createAt = 6 ∧
      (TimesAgree Env.plain w' row pushes ↔ bothOnline.getSession [97] = none ∨
        Int64.ofInt 1 = Int64.ofInt 6) :=
  pushed_time_iff Env.plain bothOnline reachable_bothOnline (by decide) 1 (by decide) _
    ⟨[97, 97, 97, 97], [97], [104]⟩ (by decide) ⟨_, _, rfl, rfl⟩

/-- The first message is stored at second 6 and pushed with the time 1. -/
theorem pushed_time_is_row_id :
    World.Reachable Env.plain bothOnline ∧
      AnsweredWith Env.plain bothOnline 1 .directMessage (messageBody [104])
        (.directMessage ⟨Error.Base.ok⟩) ∧
      ¬ ∀ row pushes w', Accepts Env.plain bothOnline 1 (messageBody [104]) row pushes w' →
        TimesAgree Env.plain w' row pushes := by
  have haccepted : AnsweredWith Env.plain bothOnline 1 .directMessage (messageBody [104])
      (.directMessage ⟨Error.Base.ok⟩) := ⟨_, _, rfl, rfl⟩
  have hreq : deserialize DirectMessageRequest (messageBody [104]) =
      .ok ⟨[97, 97, 97, 97], [97], [104]⟩ := by decide
  refine ⟨reachable_bothOnline, haccepted, fun hagree => ?_⟩
  obtain ⟨row, pushes, w', haccepts, hpublished⟩ :=
    published_of_accepted (sound_reachable reachable_bothOnline) (by decide) (by decide) hreq
      haccepted
  exact absurd (hpublished.timesAgree_iff.mp (hagree _ _ _ haccepts)) (by decide)

/-- What is stored is read back as a C string, and what is pushed is not: the two agree with
the message exactly when it has no NUL. -/
theorem text_kept_iff (env : Env) (w : World) (hreach : World.Reachable env w)
    (hrunning : w.status = .running) (c : ConnId) (hlive : (w.sessions c).isSome) (body : Bytes)
    (req : DirectMessageRequest) (hreq : deserialize DirectMessageRequest body = .ok req)
    (haccepted : AnsweredWith env w c .directMessage body (.directMessage ⟨Error.Base.ok⟩)) :
    ∃ row pushes w', Accepts env w c body row pushes w' ∧ row.message = req.message ∧
      (TextsAgree env w' row pushes req.message ↔ 0 ∉ req.message) := by
  obtain ⟨row, pushes, w', haccepts, hpublished⟩ :=
    published_of_accepted (sound_reachable hreach) hrunning hlive hreq haccepted
  exact ⟨row, pushes, w', haccepts, hpublished.text, hpublished.textsAgree_iff⟩

theorem text_kept_iff_plain :
    ∃ row pushes w', Accepts Env.plain bothOnline 1 (messageBody [104]) row pushes w' ∧
      row.message = [104] ∧ (TextsAgree Env.plain w' row pushes [104] ↔ 0 ∉ ([104] : Bytes)) :=
  text_kept_iff Env.plain bothOnline reachable_bothOnline (by decide) 1 (by decide) _
    ⟨[97, 97, 97, 97], [97], [104]⟩ (by decide) ⟨_, _, rfl, rfl⟩

/-- "h NUL i" is pushed whole and reported as "h". -/
theorem text_cut_at_nul :
    World.Reachable Env.plain bothOnline ∧
      AnsweredWith Env.plain bothOnline 1 .directMessage (messageBody [104, 0, 105])
        (.directMessage ⟨Error.Base.ok⟩) ∧
      ¬ ∀ row pushes w', Accepts Env.plain bothOnline 1 (messageBody [104, 0, 105]) row pushes w' →
        TextsAgree Env.plain w' row pushes [104, 0, 105] := by
  have haccepted : AnsweredWith Env.plain bothOnline 1 .directMessage (messageBody [104, 0, 105])
      (.directMessage ⟨Error.Base.ok⟩) := ⟨_, _, rfl, rfl⟩
  have hreq : deserialize DirectMessageRequest (messageBody [104, 0, 105]) =
      .ok ⟨[97, 97, 97, 97], [97], [104, 0, 105]⟩ := by decide
  refine ⟨reachable_bothOnline, haccepted, fun hagree => ?_⟩
  obtain ⟨row, pushes, w', haccepts, hpublished⟩ :=
    published_of_accepted (sound_reachable reachable_bothOnline) (by decide) (by decide) hreq
      haccepted
  exact absurd (hpublished.textsAgree_iff.mp (hagree _ _ _ haccepts)) (by decide)

end Messenger.Reports
