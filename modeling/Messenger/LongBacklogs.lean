import Messenger.Authentications

/-!
Authentications with a backlog. The backlog is marked in one statement that has one
parameter for each message, so a REGISTER, LOGIN or TOKEN_VERIFY that succeeds completes
exactly when the backlog is not longer than a statement may have parameters. Nothing bounds
a backlog: each message to a user who is away makes it longer.
-/
namespace Messenger.LongBacklogs

open KeyedTables Outcomes ClientSession UserRepository MessageRepository FriendStates
  HandlerActions HandlePacket ServerSteps MalformedBodies MessageRows TokenIdentity
  TokenRequests TableSteps Authentications

/-- What an authentication that completes has done. -/
structure Completed (w w' : World) (c : ConnId) (packetType : PacketType) (login : Bytes) :
    Prop where
  delivered : ∀ id, getIdByLogin login w'.store = .ok id → ∀ row ∈ undeliveredRows id w.store,
    { row with delivered := 1 } ∈ w'.store.db.directMessages.rows
  online : w'.getSession login = some c
  answered : ∃ before r, r.error = Error.Base.ok ∧
    w'.sent = before ++ [⟨c, .result, r.serialize, .result packetType r, login⟩]

def Completes (env : Env) (w : World) (c : ConnId) (packetType : PacketType)
    (body login : Bytes) : Prop :=
  ∃ w', (handlePacket env c packetType body).run w = .ok () w' ∧
    Completed w w' c packetType login

/-- Every row of the backlog is marked. -/
theorem marked_of_welcomed {env : Env} {w w₁ : World} {c : ConnId} {login : Bytes} {id : ℤ}
    (hmessages : w₁.store.db.directMessages = w.store.db.directMessages)
    (hid : getIdByLogin login (welcomed env w₁ c login).store = .ok id) {row : DirectMessageRow}
    (hrow : row ∈ undeliveredRows id w.store) :
    { row with delivered := 1 } ∈
      (welcomed env w₁ c login).store.db.directMessages.rows := by
  obtain ⟨hmem, hwaits⟩ := List.mem_filter.mp hrow
  rw [Bool.and_eq_true, beq_iff_eq, beq_iff_eq] at hwaits
  have hlogin : getIdByLogin login w₁.store = .ok id := hid
  have hmem₁ : row ∈ w₁.store.db.directMessages.rows := hmessages ▸ hmem
  have hlisted : row.id ∈ (backlog env login w₁.store).map StoredMessage.id := by
    refine (mem_backlog_iff env).mpr ?_
    unfold getIdByLogin at hlogin
    cases hu : w₁.store.db.findLogin login with
    | none =>
      rw [hu] at hlogin
      cases hlogin
    | some u =>
      rw [hu] at hlogin
      cases hlogin
      exact ⟨u, hu, row, hmem₁, rfl, hwaits⟩
  refine List.mem_map.mpr ⟨row, hmem₁, ?_⟩
  rw [if_pos (List.contains_iff_mem.mpr hlisted)]

theorem completed_welcomed {env : Env} {w w₁ : World} {c : ConnId} {packetType : PacketType}
    {login : Bytes} {r : Response}
    (hmessages : w₁.store.db.directMessages = w.store.db.directMessages)
    (hlive : (w₁.sessions c).isSome) (herror : r.error = Error.Base.ok) :
    Completed w (withAnswer (welcomed env w₁ c login) c packetType (some r)) c packetType
      login where
  delivered := fun _ hid _ hrow => marked_of_welcomed hmessages hid hrow
  online := by
    obtain ⟨s, hs⟩ := Option.isSome_iff_exists.mp hlive
    simp [World.getSession, World.lock, withAnswer, welcomed, withDeliveredBacklog, withHanded,
      withLogin, hs]
  answered := by
    have hcurrent : (welcomed env w₁ c login).currentLogin c = login :=
      currentLogin_withLogin hlive login
    refine ⟨(welcomed env w₁ c login).sent, r, herror, ?_⟩
    simp only [withAnswer, hcurrent]

theorem completes_iff {env : Env} {w : World} (h : Sound env w.store) {c : ConnId}
    (hlive : (w.sessions c).isSome) {packetType : PacketType} {body login : Bytes}
    (hauth : authenticatesAs env w packetType body = some login) :
    Completes env w c packetType body login ↔
      (backlog env login w.store).length ≤ maxVariableNumber ∧
        (packetType ≠ .tokenVerify ∨ (w.store.db.findLogin login).isSome) := by
  obtain ⟨r, st, token, hrun, herror, hquiet, hknown⟩ := accepted_of_authenticatesAs h c hauth
  have hwelcome := accepted_welcoming h hlive hquiet hrun
  have hbacklog : backlog env login (withToken w c st token).store = backlog env login w.store :=
    backlog_of_quiet hquiet (fun r hr => (h.corresponding r hr).2) login
  have hstopped : ∀ {e w'}, (handlePacket env c packetType body).run w = .error e w' →
      ¬ Completes env w c packetType body login := by
    rintro e w' herror' ⟨w'', hok, -⟩
    cases herror'.symm.trans hok
  rw [← hbacklog, ← hknown]
  generalize hresult : (handlePacket env c packetType body).run w = result at hwelcome
  cases hwelcome with
  | unknown w' hunknown =>
    refine iff_of_false (hstopped hresult) fun hboth => ?_
    rw [show st.db.findLogin login = none from hunknown] at hboth
    cases hboth.2
  | overlong w' _ hlong => exact iff_of_false (hstopped hresult) fun hboth => hlong.not_ge hboth.1
  | welcomed hsome hshort =>
    refine iff_of_true ⟨_, hresult, ?_⟩ ⟨hshort, hsome⟩
    exact completed_welcomed hquiet.messages (isSome_withToken hlive st token) herror

/-- In every reachable state a packet that authenticates a user is handled to its end, with
the backlog marked, the session online and the RESULT sent, exactly when the backlog fits in
one statement and a verified token's login is that of a user. -/
theorem authentication_completes_iff (env : Env) (w : World) (hw : World.Reachable env w)
    (c : ConnId) (hlive : (w.sessions c).isSome) (packetType : PacketType) (body login : Bytes)
    (hauth : authenticatesAs env w packetType body = some login) :
    Completes env w c packetType body login ↔
      (backlog env login w.store).length ≤ maxVariableNumber ∧
        (packetType ≠ .tokenVerify ∨ (w.store.db.findLogin login).isSome) :=
  completes_iff (sound_reachable hw) hlive hauth

/-- The row of the message that "c" writes to "a" after i others. -/
def writtenRow (i : ℕ) : DirectMessageRow := ⟨i + 1, 2, 1, 6 + 2 * i, [104], 0⟩

/-- "c" has written n messages to "a", who is away; connection 2 is open for its return. -/
structure Writing (n : ℕ) (w : World) : Prop where
  running : w.status = .running
  writer : (w.sessions 1).isSome
  reader : (w.sessions 2).isSome
  token : ∀ k ≤ 604800,
    tokenLogin Env.plain [97, 97, 97, 97] { w.store with clockReads := k } = some [99]
  plan : directMessagePlan [97] [99] w.store = .ok (.ok (2, 1))
  opens : verifyPassword Env.plain [97] [112] w.store = true
  user : getIdByLogin [97] w.store = .ok 1
  reads : w.store.clockReads = 5 + 2 * n
  ids : w.store.db.directMessages.seq = n
  written : w.store.db.directMessages.rows = (List.range n).map writtenRow

/-- All that has been written is waiting. -/
theorem Writing.waiting {n : ℕ} {w : World} (h : Writing n w) :
    (undeliveredRows 1 w.store).length = n := by
  have hall : undeliveredRows 1 w.store = w.store.db.directMessages.rows := by
    refine List.filter_eq_self.mpr fun r hr => ?_
    rw [h.written] at hr
    obtain ⟨i, -, rfl⟩ := List.mem_map.mp hr
    rfl
  rw [hall, h.written, List.length_map, List.length_range]

/-- One more message. -/
theorem writing_step {n : ℕ} {w : World} (h : Writing n w) (hn : 5 + 2 * n ≤ 604800) :
    Writing (n + 1) (w.step Env.plain messageEvent) := by
  have hlogin : tokenLogin Env.plain [97, 97, 97, 97] w.store = some [99] :=
    h.token w.store.clockReads (h.reads ▸ hn)
  have hrequest : requestOf Env.plain .directMessage
      (serialize (DirectMessageRequest.mk [97, 97, 97, 97] [97] [104])) =
      some ⟨[97, 97, 97, 97], fun e => .directMessage ⟨e⟩,
        directMessageAct Env.plain [97] [104]⟩ := rfl
  have hact := directMessageAct_run Env.plain [97] [104] [99] { w with store := ticked w.store }
  have hplan : directMessagePlan [97] [99] (ticked w.store) = .ok (.ok (2, 1)) := h.plan
  simp only [hplan] at hact
  have hrun : (dispatch Env.plain 1 .directMessage
      (serialize (DirectMessageRequest.mk [97, 97, 97, 97] [97] [104]))).run w =
      .ok (some (.directMessage ⟨Error.Base.ok⟩), none)
        (withDirectMessage Env.plain { w with store := ticked w.store } [97] [99] [104] 2 1) := by
    rw [dispatch_request 1 hrequest w]
    exact answer_run ((withAccount_some _ _ hlogin).trans hact)
  have hstep : w.step Env.plain messageEvent = withAnswer
      (withDirectMessage Env.plain { w with store := ticked w.store } [97] [99] [104] 2 1) 1
      .directMessage (some (.directMessage ⟨Error.Base.ok⟩)) := by
    exact step_of_handled h.running h.writer (handlePacket_answered hrun)
  rw [hstep]
  exact {
    running := h.running
    writer := h.writer
    reader := h.reader
    token := h.token
    plan := h.plan
    opens := h.opens
    user := h.user
    reads := by
      have hreads : w.store.clockReads + 1 + 1 = 5 + 2 * (n + 1) := by
        rw [h.reads]
        omega
      exact hreads
    ids := by
      have hids : w.store.db.directMessages.seq + 1 = (n + 1 : ℕ) := by
        rw [h.ids]
        rfl
      exact hids
    written := by
      have hnew : (⟨w.store.db.directMessages.seq + 1, 2, 1,
          (w.store.clockReads + 1 : ℕ), [104], 0⟩ : DirectMessageRow) = writtenRow n := by
        rw [h.ids, h.reads, writtenRow]
        congr 1
        omega
      rw [List.range_succ, List.map_append, List.map_singleton, ← h.written, ← hnew]
      rfl }

/-- "a" has gone away and connection 2 is open. -/
def away : List Event := twoFriends ++ [.disconnect 0, .connect]

theorem writing_away : Writing 0
    (LabelledRuns.run (World.step Env.plain) (World.initial Env.plain fun _ => none) away) where
  running := by decide
  writer := by decide
  reader := by decide
  token := by
    intro k hk
    generalize hw : LabelledRuns.run (World.step Env.plain)
      (World.initial Env.plain fun _ => none) away = w
    have hcheck : w.store.db.findToken [97, 97, 97, 97] = some ⟨[97, 97, 97, 97], 2, 2⟩ := by
      rw [← hw]
      decide
    have huser : (w.store.db.findUser 2).map (fun q => getText q.login) = some [99] := by
      rw [← hw]
      decide
    have hyoung : ¬ (Env.plain.clock k - 2 > tokenTtl) := by
      have hclock : Env.plain.clock k = k := rfl
      rw [hclock, tokenTtl]
      omega
    simp only [tokenLogin, hcheck, if_neg hyoung, huser]
  plan := by decide
  opens := by decide
  user := by decide
  reads := by decide
  ids := by decide
  written := by decide

/-- "a" writes to "c" and goes away, and "c" writes to "a" twice. -/
def wroteBack : List Event :=
  twoFriends ++ [.packet 0 .directMessage (serialize (DirectMessageRequest.mk [97, 97] [99] [105])),
    .disconnect 0, .connect, messageEvent, messageEvent]

/-- Of three messages the two for "a" are delivered. -/
theorem authentication_completes_iff_two :
    ∃ w, LabelledRuns.run (World.step Env.plain) (World.initial Env.plain fun _ => none)
        wroteBack = w ∧ w.store.db.directMessages.rows.length = 3 ∧
      (backlog Env.plain [97] w.store).map StoredMessage.timestamp = [8, 10] ∧
      Completes Env.plain w 2 .login (serialize (AuthRequest.mk [97] [112])) [97] :=
  ⟨_, rfl, by decide +kernel, by decide +kernel,
    (authentication_completes_iff Env.plain _ ⟨_, _, rfl⟩ 2 (by decide +kernel) .login _ [97]
      (by decide +kernel)).mpr ⟨by decide +kernel, Or.inl (by decide)⟩⟩

theorem writing_run (n : ℕ) (hn : 5 + 2 * n ≤ 604800) : Writing n
    (LabelledRuns.run (World.step Env.plain) (World.initial Env.plain fun _ => none)
      (away ++ List.replicate n messageEvent)) := by
  induction n with
  | zero =>
    rw [List.replicate_zero, List.append_nil]
    exact writing_away
  | succ n ih =>
    rw [List.replicate_succ', ← List.append_assoc, LabelledRuns.run_append]
    exact writing_step (ih (by omega)) (by omega)

/-- After n messages the login of their recipient is accepted, but does not complete if n is
too many. -/
theorem stopped_after {n : ℕ} (hn : 5 + 2 * n ≤ 604800) (hlong : maxVariableNumber < n) :
    ∃ w, World.Reachable Env.plain w ∧ w.status = .running ∧ (w.sessions 2).isSome ∧
      authenticatesAs Env.plain w .login (serialize (AuthRequest.mk [97] [112])) = some [97] ∧
      (backlog Env.plain [97] w.store).length = n ∧
      ¬ Completes Env.plain w 2 .login (serialize (AuthRequest.mk [97] [112])) [97] := by
  have h := writing_run n hn
  generalize hw : LabelledRuns.run (World.step Env.plain) (World.initial Env.plain fun _ => none)
    (away ++ List.replicate n messageEvent) = w at h
  have hauth : authenticatesAs Env.plain w .login (serialize (AuthRequest.mk [97] [112])) =
      some [97] := by
    have hreq : deserialize AuthRequest (serialize (AuthRequest.mk [97] [112])) =
        .ok ⟨[97], [112]⟩ := rfl
    simp only [authenticatesAs, hreq, h.opens, if_true]
  have hlength : (backlog Env.plain [97] w.store).length = n := by
    simp only [backlog, h.user, getUndelivered, List.length_map]
    rw [(Env.plain.sqlite.orderBy_perm _ _).length_eq]
    exact h.waiting
  refine ⟨w, ⟨_, _, hw⟩, h.running, h.reader, hauth, hlength, ?_⟩
  rw [completes_iff (sound_reachable ⟨_, _, hw⟩) h.reader hauth, hlength]
  exact fun hshort => hlong.not_ge hshort.1

/-- Not every authentication completes: that of a user to whom a friend has written 32767
messages ends the server. -/
theorem long_backlog_ends_server :
    ∃ w, World.Reachable Env.plain w ∧ w.status = .running ∧ (w.sessions 2).isSome ∧
      authenticatesAs Env.plain w .login (serialize (AuthRequest.mk [97] [112])) = some [97] ∧
      (backlog Env.plain [97] w.store).length = 32767 ∧
      ¬ Completes Env.plain w 2 .login (serialize (AuthRequest.mk [97] [112])) [97] :=
  stopped_after (by decide) (by decide)

end Messenger.LongBacklogs
