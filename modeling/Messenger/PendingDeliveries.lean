import Messenger.LongBacklogs
import Messenger.UserRows

/-!
What deliver_pending hands over. The rows that wait for a user are selected, looked up,
sent in order of time and marked, and the four steps agree on which rows these are: one
packet for each, before the RESULT, and the mark on these rows alone. What is marked does
not wait again, so the next authentication delivers what has been stored in between.
-/
namespace Messenger.PendingDeliveries

open KeyedTables Outcomes ClientSession UserRepository MessageRepository FriendStates
  HandlerActions HandlePacket ServerSteps MessageRows TokenRequests TableSteps Authentications
  LongBacklogs UserRows

/-- The row waits for the user with this id. -/
def Waits (id : ℤ) (r : DirectMessageRow) : Prop := r.recipient = id ∧ r.delivered = 0

instance (id : ℤ) (r : DirectMessageRow) : Decidable (Waits id r) :=
  inferInstanceAs (Decidable (_ ∧ _))

def waiting (id : ℤ) (db : Database) : List DirectMessageRow :=
  db.directMessages.rows.filter (fun r => Waits id r)

/-- The packet brings the message of the row to the connection. -/
structure Carries (db : Database) (c : ConnId) (r : DirectMessageRow) (p : Sent) : Prop where
  conn : p.conn = c
  packetType : p.packetType = .directMessage
  body : ∃ sender ∈ db.users.rows, sender.id = r.sender ∧
    p.body = serialize (DirectMessageIncoming.mk sender.login r.message (Int64.ofInt r.createAt))

/-- One packet for each row that waits, in order of time, and then the mark. -/
structure Delivers (w w' : World) (c : ConnId) (user : UserRow) : Prop where
  sends : ∃ rows pushes, rows.Perm (waiting user.id w.store.db) ∧
    rows.Pairwise (fun r r' => r.createAt ≤ r'.createAt) ∧
    List.Forall₂ (Carries w.store.db c) rows pushes ∧ w'.sent = w.sent ++ pushes
  marks : w'.store.db.directMessages.rows = w.store.db.directMessages.rows.map
    (fun r => if Waits user.id r then { r with delivered := 1 } else r)
  users : w'.store.db.users = w.store.db.users
  friendships : w'.store.db.friendships = w.store.db.friendships
  sessions : w'.store.db.sessions = w.store.db.sessions

/-- No login and no text of a message has a NUL in it. -/
structure NulFree (db : Database) : Prop where
  logins : ∀ u ∈ db.users.rows, 0 ∉ u.login
  texts : ∀ r ∈ db.directMessages.rows, 0 ∉ r.message

/-- What waits for the user fits in one statement and comes out as it went in. -/
structure Deliverable (db : Database) (id : ℤ) : Prop where
  few : (waiting id db).length ≤ maxVariableNumber
  senders : ∀ r ∈ waiting id db, ∀ u, db.findUser r.sender = some u → 0 ∉ u.login
  texts : ∀ r ∈ waiting id db, 0 ∉ r.message

theorem undeliveredRows_eq (id : ℤ) (st : Store) : undeliveredRows id st = waiting id st.db := by
  refine List.filter_congr fun r _ => ?_
  rw [Bool.eq_iff_iff, Bool.and_eq_true, beq_iff_eq, beq_iff_eq, decide_eq_true_iff, Waits]

theorem NulFree.deliverable {db : Database} (h : NulFree db) {id : ℤ}
    (hfew : (waiting id db).length ≤ maxVariableNumber) : Deliverable db id where
  few := hfew
  senders := fun _ _ u hu => h.logins u (List.mem_of_find?_eq_some hu)
  texts := fun r hr => h.texts r (List.mem_of_mem_filter hr)

theorem not_waits_delivered (id : ℤ) (r : DirectMessageRow) :
    ¬ Waits id { r with delivered := 1 } :=
  fun h => Int.one_ne_zero h.2

theorem mem_waiting {id : ℤ} {db : Database} {r : DirectMessageRow} :
    r ∈ waiting id db ↔ r ∈ db.directMessages.rows ∧ Waits id r := by
  rw [waiting, List.mem_filter, decide_eq_true_iff]

section

variable {env : Env} {c : ConnId} {w : World} {user : UserRow}

theorem backlog_eq (env : Env) {login : Bytes} {st : Store}
    (hfind : st.db.findLogin login = some user) :
    backlog env login st =
      (env.sqlite.orderBy DirectMessageRow.createAt (waiting user.id st.db)).map
        (fun r => ⟨r.id, r.sender, r.createAt, getText r.message⟩) := by
  simp only [backlog, getIdByLogin, hfind, getUndelivered, undeliveredRows_eq]

/-- The ids collected on the way are those of the rows that wait. -/
theorem marked_iff {login : Bytes} {st : Store} (hfind : st.db.findLogin login = some user)
    {r : DirectMessageRow} (hr : r ∈ st.db.directMessages.rows) :
    ((backlog env login st).map StoredMessage.id).contains r.id = true ↔ Waits user.id r := by
  rw [List.contains_iff_mem, mem_backlog_iff]
  constructor
  · rintro ⟨u, hu, r', hr', hid, hwaits⟩
    cases hfind.symm.trans hu
    rwa [← st.db.directMessages.eq_of_key_eq hr' hr hid]
  · intro hwaits
    exact ⟨user, hfind, r, hr, rfl, hwaits⟩

/-- Each packet of the backlog carries its row. -/
theorem carries_backlogPacket {r : DirectMessageRow} {asLogin : Bytes}
    (hsender : hasUser w.store r.sender)
    (hlogin : ∀ u, w.store.db.findUser r.sender = some u → 0 ∉ u.login) (htext : 0 ∉ r.message) :
    Carries w.store.db c r
      (backlogPacket w.store c asLogin ⟨r.id, r.sender, r.createAt, getText r.message⟩) where
  conn := rfl
  packetType := rfl
  body := by
    obtain ⟨sender, hsender⟩ := Option.isSome_iff_exists.mp hsender
    refine ⟨sender, List.mem_of_find?_eq_some hsender, by simpa using List.find?_some hsender, ?_⟩
    simp only [backlogPacket, getLoginById, hsender,
      (getText_eq_self_iff _).mpr (hlogin sender hsender), (getText_eq_self_iff _).mpr htext]

theorem deliverPending_delivers (env : Env)
    (hcorresponding : ∀ r ∈ w.store.db.directMessages.rows,
      hasUser w.store r.sender ∧ hasUser w.store r.recipient)
    (hfind : w.store.db.findLogin (w.currentLogin c) = some user)
    (hready : Deliverable w.store.db user.id) :
    (deliverPending env c).run w = .ok ()
        (withDeliveredBacklog w c (backlog env (w.currentLogin c) w.store)) ∧
      Delivers w (withDeliveredBacklog w c (backlog env (w.currentLogin c) w.store)) c user := by
  have hbacklog := backlog_eq env hfind
  constructor
  · have hlength : (backlog env (w.currentLogin c) w.store).length ≤ maxVariableNumber := by
      rw [hbacklog, List.length_map, (env.sqlite.orderBy_perm _ _).length_eq]
      exact hready.few
    rcases deliverPending_cases env c w with
      ⟨-, -, -, hok⟩ | ⟨handed, ⟨e, hunknown⟩ | hlost, -, -⟩ | ⟨hlong, -⟩
    · exact hok
    · rw [getIdByLogin, hfind] at hunknown
      cases hunknown
    · exact absurd (sendersFound_backlog hcorresponding env _) hlost
    · exact absurd hlength hlong.not_ge
  · constructor
    · refine ⟨env.sqlite.orderBy DirectMessageRow.createAt (waiting user.id w.store.db),
        (backlog env (w.currentLogin c) w.store).map
          (backlogPacket w.store c (w.currentLogin c)),
        env.sqlite.orderBy_perm _ _, env.sqlite.orderBy_sorted _ _, ?_, rfl⟩
      rw [hbacklog, List.map_map, List.forall₂_map_right_iff, List.forall₂_same]
      intro r hr
      have hwaits : r ∈ waiting user.id w.store.db := (env.sqlite.orderBy_perm _ _).subset hr
      obtain ⟨hsender, -⟩ := hcorresponding r (mem_waiting.mp hwaits).1
      exact carries_backlogPacket hsender (hready.senders r hwaits) (hready.texts r hwaits)
    · refine List.map_congr_left fun r hr => ?_
      simp only [marked_iff hfind hr]
    · rfl
    · rfl
    · rfl

end

/-- What an authentication does: the switch, the backlog, the RESULT. -/
structure Authenticated (env : Env) (w w' : World) (c : ConnId) (packetType : PacketType)
    (body login : Bytes) (user : UserRow) (r : Response) (w₁ w₂ : World) : Prop where
  dispatched : (dispatch env c packetType body).run w = .ok (some r, some login) w₁
  known : w₁.store.db.findLogin login = some user
  unsent : w₁.sent = w.sent
  messages : w₁.store.db.directMessages = w.store.db.directMessages
  ran : (deliverPending env c).run (withLogin w₁ c login) = .ok () w₂
  delivers : Delivers (withLogin w₁ c login) w₂ c user
  handled : (handlePacket env c packetType body).run w = .ok () w'
  stored : w'.store = w₂.store
  answered : w'.sent = w₂.sent ++ [⟨c, .result, r.serialize, .result packetType r, login⟩]

/-- The RESULT is all that the authentication sends. -/
def AnsweredOnly (env : Env) (w : World) (c : ConnId) (packetType : PacketType)
    (body login : Bytes) : Prop :=
  ∃ r w', (handlePacket env c packetType body).run w = .ok () w' ∧
    w'.sent = w.sent ++ [⟨c, .result, r.serialize, .result packetType r, login⟩]

/-- The step stores a direct message to the user with this id. -/
def StoresFor (env : Env) (id : ℤ) (w : World) (e : Event) : Prop :=
  ∃ r ∈ (w.step env e).store.db.directMessages.rows, r.recipient = id ∧
    ∀ old ∈ w.store.db.directMessages.rows, old.id ≠ r.id

section

variable {env : Env} {c : ConnId} {packetType : PacketType} {body login : Bytes} {w : World}

/-- A login that a token leads to is that of a user, if no login has a NUL in it. -/
theorem known_of_tokenLogin {st : Store} (hnames : ∀ u ∈ st.db.users.rows, 0 ∉ u.login)
    {token : Bytes} (h : tokenLogin env token st = some login) :
    (st.db.findLogin login).isSome := by
  unfold tokenLogin at h
  split at h
  · cases h
  · split at h
    · cases h
    · obtain ⟨q, hq, hlogin⟩ := Option.map_eq_some_iff.mp h
      have hmem : q ∈ st.db.users.rows := List.mem_of_find?_eq_some hq
      rw [(getText_eq_self_iff _).mpr (hnames q hmem)] at hlogin
      exact List.find?_isSome.mpr ⟨q, hmem, beq_iff_eq.mpr hlogin⟩

theorem known_of_authenticatesAs (hnames : ∀ u ∈ w.store.db.users.rows, 0 ∉ u.login)
    (hauth : authenticatesAs env w packetType body = some login) :
    packetType ≠ .tokenVerify ∨ (w.store.db.findLogin login).isSome := by
  by_cases htype : packetType = .tokenVerify
  · subst htype
    simp only [authenticatesAs] at hauth
    split at hauth
    · exact Or.inr (known_of_tokenLogin hnames hauth)
    · cases hauth
  · exact Or.inl htype

/-- What waits for a user has been waiting before the authentication. -/
theorem deliverable_of_quiet {st st' : Store} {user : UserRow} (hquiet : Quiet env st st')
    (hcorresponding : ∀ r ∈ st.db.directMessages.rows,
      hasUser st r.sender ∧ hasUser st r.recipient)
    (hknown : st'.db.findLogin login = some user)
    (hready : ∀ u, st.db.findLogin login = some u → Deliverable st.db u.id) :
    Deliverable st'.db user.id := by
  have hsame : waiting user.id st'.db = waiting user.id st.db := by
    rw [waiting, waiting, hquiet.messages]
  have hbefore : ∀ r ∈ waiting user.id st'.db, Deliverable st.db user.id := by
    intro r hr
    obtain ⟨hrow, hwaits⟩ := mem_waiting.mp (hsame ▸ hr)
    exact hready user (findLogin_before hquiet (fun r hr => (hcorresponding r hr).2) hknown hrow
      hwaits.1)
  constructor
  · cases hwaiting : waiting user.id st'.db with
    | nil => exact Nat.zero_le _
    | cons r rest =>
      rw [← hwaiting, hsame]
      exact (hbefore r (hwaiting ▸ List.mem_cons_self)).few
  · intro r hr u hu
    have hr' : r ∈ waiting user.id st.db := hsame ▸ hr
    obtain ⟨v, hv⟩ := Option.isSome_iff_exists.mp (hcorresponding r (mem_waiting.mp hr').1).1
    cases hu.symm.trans (hquiet.findUser hv)
    exact (hbefore r hr).senders r hr' u hv
  · exact fun r hr => (hbefore r hr).texts r (hsame ▸ hr)

theorem authenticated {env : Env} (h : Sound env w.store) (hlive : (w.sessions c).isSome)
    (hauth : authenticatesAs env w packetType body = some login)
    (hknown : packetType ≠ .tokenVerify ∨ (w.store.db.findLogin login).isSome)
    (hready : ∀ u, w.store.db.findLogin login = some u → Deliverable w.store.db u.id) :
    ∃ user r w₁ w₂ w', Authenticated env w w' c packetType body login user r w₁ w₂ := by
  obtain ⟨r, st, token, hrun, -, hquiet, hfound⟩ := accepted_of_authenticatesAs h c hauth
  obtain ⟨user, huser⟩ := Option.isSome_iff_exists.mp (hfound.mpr hknown)
  have hcurrent := currentLogin_withLogin (isSome_withToken hlive st token) login
  have hcorresponding := h.corresponding_of_quiet hquiet
  have hfind : (withLogin (withToken w c st token) c login).store.db.findLogin
      ((withLogin (withToken w c st token) c login).currentLogin c) = some user := by
    rw [hcurrent]
    exact huser
  obtain ⟨hran, hdelivers⟩ := deliverPending_delivers env hcorresponding hfind
    (deliverable_of_quiet hquiet h.corresponding huser hready)
  rw [hcurrent] at hran hdelivers
  have hhandled : (handlePacket env c packetType body).run w = .ok ()
      (withAnswer (welcomed env (withToken w c st token) c login) c packetType (some r)) :=
    handlePacket_delivered hrun hran
  refine ⟨user, r, _, _, _, ⟨hrun, huser, rfl, hquiet.messages, hran, hdelivers, hhandled, ?_,
    ?_⟩⟩
  · rw [withAnswer_store]
    rfl
  · have hanswer : (welcomed env (withToken w c st token) c login).currentLogin c = login :=
      hcurrent
    simp only [withAnswer, hanswer]
    rfl

end

theorem waiting_eq_nil_iff {id : ℤ} {db : Database} :
    waiting id db = [] ↔ ∀ r ∈ db.directMessages.rows, ¬ Waits id r := by
  simp only [waiting, List.filter_eq_nil_iff, decide_eq_true_iff]

/-- What has been delivered does not wait. -/
theorem Delivers.nothing_waits {w w' : World} {c : ConnId} {user : UserRow}
    (h : Delivers w w' c user) : waiting user.id w'.store.db = [] := by
  rw [waiting_eq_nil_iff, h.marks]
  intro r hr hwaits
  obtain ⟨old, -, rfl⟩ := List.mem_map.mp hr
  split at hwaits
  · exact not_waits_delivered _ old hwaits
  · contradiction

/-- Nothing comes to wait without being stored. -/
theorem nothing_waits_step {env : Env} {id : ℤ} {w : World} {e : Event}
    (hsound : Sound env w.store) (h : waiting id w.store.db = [])
    (hstore : ¬ StoresFor env id w e) : waiting id (w.step env e).store.db = [] := by
  rw [waiting_eq_nil_iff] at h ⊢
  have hstep := step_tableStep env e hsound.normalised
  unfold StoresFor at hstore
  generalize w.step env e = w' at hstep hstore
  cases hstep with
  | kept e w' ids _ hmessages =>
    intro r hr hwaits
    rw [hmessages] at hr
    obtain ⟨old, hold, rfl⟩ := List.mem_map.mp hr
    split at hwaits
    · exact not_waits_delivered _ old hwaits
    · exact h old hold hwaits
  | befriended c packetType body x y call w' _ _ _ _ _ hmessages _ =>
    rw [hmessages]
    exact h
  | stored c body req login sender recipient _ _ _ _ _ =>
    rw [withAnswer_store] at hstore ⊢
    intro r hr hwaits
    rcases List.mem_append.mp hr with hold | hnew
    · exact h r hold hwaits
    · refine hstore ⟨r, hr, hwaits.1, fun old hold hid => ?_⟩
      have hbounded := w.store.db.directMessages.bounded old hold
      have hnext : r.id = w.store.db.directMessages.seq + 1 := by
        rw [List.mem_singleton.mp hnew]
        rfl
      omega

/-- A user for whom nothing waits. -/
structure Served (env : Env) (login : Bytes) (user : UserRow) (w : World) : Prop where
  sound : Sound env w.store
  known : w.store.db.findLogin login = some user
  served : waiting user.id w.store.db = []

theorem served_run {env : Env} {login : Bytes} {user : UserRow} {w : World} {events : List Event}
    (h : Served env login user w)
    (hquiet : LabelledRuns.Along (World.step env)
      (fun w e => ¬ StoresFor env user.id w e) w events) :
    Served env login user (LabelledRuns.run (World.step env) w events) := by
  refine LabelledRuns.invariant_along (fun w e hserved hstore => ?_) h hquiet
  exact ⟨sound_step env e hserved.sound, (step_grows env w e).findLogin hserved.known,
    nothing_waits_step hserved.sound hserved.served hstore⟩

theorem Authenticated.served {env : Env} {w w' w₁ w₂ : World} {c : ConnId}
    {packetType : PacketType} {body login : Bytes} {user : UserRow} {r : Response}
    (h : Authenticated env w w' c packetType body login user r w₁ w₂)
    (hsound : Sound env w'.store) : Served env login user w' where
  sound := hsound
  known := by
    have husers : w'.store.db.users = w₁.store.db.users := by
      rw [h.stored]
      exact h.delivers.users
    rw [Database.findLogin, husers]
    exact h.known
  served := by
    rw [h.stored]
    exact h.delivers.nothing_waits

/-- A user for whom nothing waits is sent the RESULT alone. -/
theorem Served.answered {env : Env} {w : World} {c : ConnId} {packetType : PacketType}
    {body login : Bytes} {user : UserRow} (h : Served env login user w)
    (hlive : (w.sessions c).isSome)
    (hauth : authenticatesAs env w packetType body = some login) :
    AnsweredOnly env w c packetType body login := by
  have hready : ∀ u, w.store.db.findLogin login = some u → Deliverable w.store.db u.id := by
    intro u hu
    cases h.known.symm.trans hu
    constructor
    · rw [h.served]
      exact Nat.zero_le _
    · rw [h.served]
      exact fun r hr => absurd hr List.not_mem_nil
    · rw [h.served]
      exact fun r hr => absurd hr List.not_mem_nil
  obtain ⟨user', r, w₁, w₂, w', hauthenticated⟩ := authenticated h.sound hlive hauth
    (Or.inr (Option.isSome_iff_exists.mpr ⟨user, h.known⟩)) hready
  obtain ⟨rows, pushes, hperm, -, hcarries, hsent⟩ := hauthenticated.delivers.sends
  have hsame : user' = user := by
    have hquiet := (unseen_of_dispatch hauthenticated.dispatched).2.quiet
    exact Option.some.inj (hauthenticated.known.symm.trans (hquiet.findLogin h.known))
  have hnothing : waiting user'.id (withLogin w₁ c login).store.db = [] := by
    have hmessages : (withLogin w₁ c login).store.db.directMessages =
      w.store.db.directMessages := hauthenticated.messages
    rw [hsame, waiting, hmessages]
    exact h.served
  rw [hnothing, List.perm_nil] at hperm
  subst hperm
  cases hcarries
  refine ⟨r, w', hauthenticated.handled, ?_⟩
  have hunsent : (withLogin w₁ c login).sent = w.sent := hauthenticated.unsent
  rw [hauthenticated.answered, hsent, List.append_nil, hunsent]

/-- The authentication delivers what waits, and until a message to the user is stored the next
one has nothing to deliver. -/
def DeliversOnce (env : Env) (w : World) (c : ConnId) (packetType : PacketType)
    (body login : Bytes) : Prop :=
  ∃ user r w₁ w₂ w', Authenticated env w w' c packetType body login user r w₁ w₂ ∧
    ∀ events, LabelledRuns.Along (World.step env)
        (fun w e => ¬ StoresFor env user.id w e) w' events →
      ∀ c' packetType' body' w'', LabelledRuns.run (World.step env) w' events = w'' →
        (w''.sessions c').isSome → authenticatesAs env w'' packetType' body' = some login →
        AnsweredOnly env w'' c' packetType' body' login

/-- In every reachable state without NULs in its texts, deliver_pending sends each row that
waits for the user of its session once, in order of time, marks these rows and changes
nothing else; in an authentication it does so before the RESULT, and once. -/
theorem pending_delivered_once (env : Env) (w : World) (hw : World.Reachable env w)
    (hclean : NulFree w.store.db) :
    (∀ c user, w.store.db.findLogin (w.currentLogin c) = some user →
      (waiting user.id w.store.db).length ≤ maxVariableNumber →
      ∃ w', (deliverPending env c).run w = .ok () w' ∧ Delivers w w' c user) ∧
    (w.status = .running → ∀ c packetType body login, (w.sessions c).isSome →
      authenticatesAs env w packetType body = some login →
      (∀ u, w.store.db.findLogin login = some u →
        (waiting u.id w.store.db).length ≤ maxVariableNumber) →
      DeliversOnce env w c packetType body login) := by
  have hsound := sound_reachable hw
  constructor
  · intro c user hfind hfew
    exact ⟨_, deliverPending_delivers env hsound.corresponding hfind (hclean.deliverable hfew)⟩
  · intro hrunning c packetType body login hlive hauth hfew
    obtain ⟨user, r, w₁, w₂, w', h⟩ := authenticated hsound hlive hauth
      (known_of_authenticatesAs hclean.logins hauth)
      (fun u hu => hclean.deliverable (hfew u hu))
    refine ⟨user, r, w₁, w₂, w', h, ?_⟩
    rintro events hquiet c' packetType' body' w'' rfl hlive' hauth'
    have hstep : w.step env (.packet c packetType body) = w' :=
      step_of_handled hrunning hlive h.handled
    have hsound' : Sound env w'.store := hstep ▸ sound_step env _ hsound
    exact (served_run (h.served hsound') hquiet).answered hlive' hauth'

/-- Two messages wait for "a", and one for "c". -/
theorem pending_delivered_once_two :
    ∃ w, LabelledRuns.run (World.step Env.plain) (World.initial Env.plain fun _ => none)
        wroteBack = w ∧ (backlog Env.plain [97] w.store).map StoredMessage.id = [2, 3] ∧
      (backlog Env.plain [99] w.store).map StoredMessage.id = [1] ∧
      DeliversOnce Env.plain w 2 .login (serialize (AuthRequest.mk [97] [112])) [97] :=
  ⟨_, rfl, by decide +kernel, by decide +kernel,
    (pending_delivered_once Env.plain _ ⟨_, _, rfl⟩ ⟨by decide +kernel, by decide +kernel⟩).2
      (by decide +kernel) 2 .login _ [97] (by decide +kernel) (by decide +kernel)
      (by decide +kernel)⟩

end Messenger.PendingDeliveries
