import Messenger.TokenRequests
import Messenger.TokenIdentity
import Messenger.FriendStates
import Messenger.MessageRows
import Messenger.MalformedBodies

/-!
What a step of the server does to the tables of friendships and messages. They change in
two ways only: a request about friends carries out its command, and a direct message
between friends adds a row. Everything else leaves both alone, up to the delivered flags.
-/
namespace Messenger.TableSteps

open KeyedTables Outcomes ClientSession UserRepository MessageRepository FriendStates
  HandlerActions HandlePacket ServerSteps MalformedBodies MessageRows TokenIdentity TokenRequests

structure KeepsTables (st st' : Store) : Prop where
  friendships : st'.db.friendships = st.db.friendships
  messages : st'.db.directMessages = st.db.directMessages

theorem KeepsTables.refl (st : Store) : KeepsTables st st := ⟨rfl, rfl⟩

theorem KeepsTables.trans {st st' st'' : Store} (h : KeepsTables st st')
    (h' : KeepsTables st' st'') : KeepsTables st st'' :=
  ⟨h'.friendships.trans h.friendships, h'.messages.trans h.messages⟩

theorem keepsTables_of_moves {α : Type} {m : ServerM α} {w : World}
    (h : Moves (fun w w' : World => KeepsTables w.store w'.store) m w) :
    KeepsTables w.store (final (m.run w)).store :=
  h.preserves (P := fun w' : World => KeepsTables w.store w'.store)
    (fun _ _ hstep hw => hw.trans hstep) (.refl _)

theorem LookedUp.keepsTables {env : Env} {token : Bytes} {st st' : Store}
    {r : Except ErrorCode Bytes} (h : LookedUp env token st r st') : KeepsTables st st' := by
  cases h <;> exact ⟨rfl, rfl⟩

theorem AccountAction.keepsTables {env : Env} {packetType : PacketType} {body : Bytes}
    {w w' : World} (h : AccountAction env packetType body w w') :
    KeepsTables w.store w'.store := by
  cases h with
  | register req _ _ =>
    rcases registerUser_cases env req.login req.password w.store with ⟨-, hrun⟩ | ⟨-, hrun⟩
    · rw [hrun]
      exact .refl _
    · rw [hrun]
      exact ⟨rfl, rfl⟩
  | verify login password =>
    rcases verifyUser_cases env login password w.store with
      ⟨-, hrun⟩ | ⟨-, ⟨u, -, -, hrun⟩ | ⟨e, hrun⟩⟩
    · rw [hrun]
      exact .refl _
    · rw [hrun]
      exact ⟨rfl, rfl⟩
    · rw [hrun]
      exact ⟨rfl, rfl⟩
  | lookup token =>
    obtain ⟨r, st', hrun, hlook⟩ := getLoginByToken_lookedUp env token w.store
    rw [hrun]
    exact LookedUp.keepsTables hlook
  | token c t => exact .refl _

theorem dispatch_authenticating {env : Env} (self : ConnId) {packetType : PacketType}
    (body : Bytes) (w : World) (h : Authenticating packetType) :
    KeepsTables w.store (final ((dispatch env self packetType body).run w)).store :=
  keepsTables_of_moves ((dispatch_accountActions env self body w h).mono
    fun _ _ hstep => AccountAction.keepsTables hstep)

theorem dispatch_logout_keepsTables (env : Env) (self : ConnId) (body : Bytes) (w : World) :
    KeepsTables w.store (final ((dispatch env self .logout body).run w)).store := by
  refine keepsTables_of_moves (moves_bind ?_ fun _ _ _ => moves_pure _ _)
  refine moves_bind (moves_decode body) fun req w₁ _ => ?_
  refine moves_bind (moves_lift ⟨rfl, rfl⟩) fun _ w₂ _ => ?_
  exact moves_modify ⟨rfl, rfl⟩

section

variable {env : Env} {body : Bytes}

theorem toOption_map_none {α β : Type} {x : Except Exn α} {f : α → β}
    (h : x.toOption.map f = none) : ∃ e, x = .error e := by
  cases x with
  | ok a => cases h
  | error e => exact ⟨e, rfl⟩

/-- A packet of another type, or one that does not decode, leaves the state alone. -/
theorem dispatch_without_request (self : ConnId) {packetType : PacketType}
    (h : requestOf env packetType body = none) (hauth : ¬ Authenticating packetType)
    (hlogout : packetType ≠ .logout) (w : World) :
    final ((dispatch env self packetType body).run w) = w := by
  have undecoded : ∀ {Derived Args : Type} [Serializable Derived Args] [TupleSerializer Args]
      {f : Derived → TokenRequest} {rest : Derived → ServerM Response},
      (deserialize Derived body).toOption.map f = none →
      final ((answer (decode Derived body >>= rest)).run w) = w := by
    intro Derived Args _ _ f rest hnone
    obtain ⟨e, he⟩ := toOption_map_none hnone
    rw [run_answer (run_decode_bind he rest w)]
    rfl
  cases packetType with
  | register => exact absurd (Or.inl rfl) hauth
  | login => exact absurd (Or.inr (Or.inl rfl)) hauth
  | tokenVerify => exact absurd (Or.inr (Or.inr rfl)) hauth
  | logout => exact absurd rfl hlogout
  | message => exact undecoded h
  | upload => exact undecoded h
  | download => exact undecoded h
  | friendRequest => exact undecoded h
  | friendAccept => exact undecoded h
  | friendReject => exact undecoded h
  | friendList => exact undecoded h
  | messageHistory => exact undecoded h
  | directMessage => exact undecoded h
  | chatList => exact undecoded h
  | _ => rfl

end

/-- The command of a request about friends, by its actor and the user it names. -/
def friendCall : PacketType → Option (ℤ → ℤ → FriendCall)
  | .friendRequest => some .sendRequest
  | .friendAccept => some .acceptRequest
  | .friendReject => some .rejectRequest
  | _ => none

theorem friendCall_ends {packetType : PacketType} {call : ℤ → ℤ → FriendCall}
    (h : friendCall packetType = some call) (x y : ℤ) :
    (call x y).command.actor = x ∧ (call x y).command.peer = y := by
  cases packetType with
  | friendRequest =>
    cases h
    exact ⟨rfl, rfl⟩
  | friendAccept =>
    cases h
    exact ⟨rfl, rfl⟩
  | friendReject =>
    cases h
    exact ⟨rfl, rfl⟩
  | _ => cases h

theorem friendCall_messages (call : FriendCall) (st : Store) :
    (final (call.program.run st)).db.directMessages = st.db.directMessages := by
  cases call with
  | sendRequest x y => exact (FriendRepository.sendRequest_quiet Env.plain x y st).messages
  | acceptRequest y x => exact (FriendRepository.acceptRequest_quiet Env.plain y x st).messages
  | rejectRequest y x => exact (FriendRepository.rejectRequest_quiet Env.plain y x st).messages

/-- The request about friends is made for the user with id `x` and names the one with id
`y`: its token stands for a login of `x`. -/
structure Befriends (env : Env) (w : World) (body : Bytes) (x y : ℤ) : Prop where
  named : ∃ req login, deserialize FriendRequest body = .ok req ∧
    tokenLogin env req.token w.store = some login ∧
    getIdByLogin login w.store = .ok x ∧ getIdByLogin req.targetLogin w.store = .ok y

/-- How the switch leaves the two tables. -/
inductive Tables (env : Env) (w : World) (packetType : PacketType) (body : Bytes) :
    EStateM.Result Exn World (Option Response × Option Bytes) → Prop where
  | kept (result : EStateM.Result Exn World (Option Response × Option Bytes))
      (h : KeepsTables w.store (final result).store) : Tables env w packetType body result
  | befriended (x y : ℤ) (call : ℤ → ℤ → FriendCall) (w₁ : World)
      (hbefriends : Befriends env w body x y) (hcall : friendCall packetType = some call)
      (hcarries : CarriesOut (call x y).command w.store Error.Base.ok w₁.store)
      (hmessages : w₁.store.db.directMessages = w.store.db.directMessages) :
      Tables env w packetType body (.ok (some (.friend ⟨Error.Base.ok⟩), none) w₁)
  | stored (req : DirectMessageRequest) (login : Bytes) (sender recipient : ℤ)
      (htype : packetType = .directMessage)
      (hreq : deserialize DirectMessageRequest body = .ok req)
      (hlogin : tokenLogin env req.token w.store = some login)
      (hplan : directMessagePlan req.recipientLogin login w.store =
        .ok (.ok (sender, recipient))) :
      Tables env w packetType body (.ok (some (.directMessage ⟨Error.Base.ok⟩), none)
        (withDirectMessage env { w with store := ticked w.store } req.recipientLogin login
          req.message sender recipient))

theorem eq_ok_of_ok {e : ErrorCode} (h : e.ok = true) : e = Error.Base.ok := by
  obtain ⟨value⟩ := e
  have hvalue : value = 1 := beq_iff_eq.mp h
  rw [hvalue]
  rfl

theorem friendIds_ok {senderLogin targetLogin : Bytes} {st : Store} {x y : ℤ}
    (h : friendIds senderLogin targetLogin st = .ok (x, y)) :
    getIdByLogin senderLogin st = .ok x ∧ getIdByLogin targetLogin st = .ok y := by
  unfold friendIds at h
  cases htarget : getIdByLogin targetLogin st with
  | error e =>
    rw [htarget] at h
    cases h
  | ok target =>
    cases hsender : getIdByLogin senderLogin st with
    | error e =>
      rw [htarget, hsender] at h
      cases h
    | ok sender =>
      rw [htarget, hsender] at h
      cases h
      exact ⟨rfl, rfl⟩

theorem usersExist_of_friendIds {packetType : PacketType} {call : ℤ → ℤ → FriendCall}
    (hcall : friendCall packetType = some call) {senderLogin targetLogin : Bytes} {st : Store}
    {x y : ℤ} (h : friendIds senderLogin targetLogin st = .ok (x, y)) :
    (call x y).UsersExist st := by
  obtain ⟨hx, hy⟩ := friendIds_ok h
  obtain ⟨hactor, hpeer⟩ := friendCall_ends hcall x y
  refine ⟨?_, ?_⟩
  · rw [hactor]
    exact isSome_findUser_of_getIdByLogin hx
  · rw [hpeer]
    exact isSome_findUser_of_getIdByLogin hy

theorem withNotice_store (w : World) (notice : PacketType) (login : Bytes) :
    (withNotice w notice login).store = w.store := by
  unfold withNotice
  cases w.getSession login <;> rfl

section

variable {env : Env} {self : ConnId} {body : Bytes} {w : World}

theorem answer_run {m : ServerM Response} {r : Response} {w' : World}
    (h : m.run w = .ok r w') : (answer m).run w = .ok (some r, none) w' := by
  rw [answer, EStateM.run_bind, h]
  rfl

/-- A friend request of any kind, after the lookup. -/
theorem friendAct_tables {packetType notice : PacketType} (call : ℤ → ℤ → FriendCall)
    (hn : Normalised w.store.db.friendships.rows) (hcall : friendCall packetType = some call)
    {req : FriendRequest} (hreq : deserialize FriendRequest body = .ok req) {login : Bytes}
    (hlogin : tokenLogin env req.token w.store = some login) :
    Tables env w packetType body
      ((answer (friendAct env (fun x y => (call x y).program) notice req.targetLogin login)).run
        { w with store := ticked w.store }) := by
  cases hids : friendIds login req.targetLogin (ticked w.store) with
  | error e =>
    obtain ⟨-, hrun⟩ := friendAct_refused env (fun x y => (call x y).program) notice
      (w := { w with store := ticked w.store }) hids
    rw [answer_run hrun]
    exact .kept _ ⟨rfl, rfl⟩
  | ok ids =>
    obtain ⟨x, y⟩ := ids
    obtain ⟨hx, hy⟩ := friendIds_ok hids
    have hticked : Normalised (ticked w.store).db.friendships.rows := hn
    obtain ⟨e, st', hprogram, hcarries⟩ :=
      (call x y).carriesOut hticked (usersExist_of_friendIds hcall hids)
    have hrun := friendAct_run env (fun x y => (call x y).program) notice
      (w := { w with store := ticked w.store }) hids
    simp only [hprogram] at hrun
    cases he : e.ok with
    | true =>
      obtain rfl := eq_ok_of_ok he
      rw [if_pos he] at hrun
      rw [answer_run hrun]
      refine .befriended x y call _ ⟨req, login, hreq, hlogin, hx, hy⟩ hcall ?_ ?_
      · rw [withNotice_store]
        exact ⟨hcarries.verdict, hcarries.map, fun h => absurd rfl h, hcarries.others,
          hcarries.normalised, hcarries.users⟩
      · rw [withNotice_store]
        have hmessages := friendCall_messages (call x y) (ticked w.store)
        rw [hprogram] at hmessages
        exact hmessages
    | false =>
      rw [if_neg (by simp [he])] at hrun
      have hne : e ≠ Error.Base.ok := by
        rintro rfl
        simp at he
      rw [hcarries.refused hne] at hrun
      rw [answer_run hrun]
      exact .kept _ ⟨rfl, rfl⟩

theorem answer_store (m : ServerM Response) (w : World) :
    (final ((answer m).run w)).store = (final (m.run w)).store := by
  rw [answer, EStateM.run_bind]
  cases m.run w <;> rfl

/-- An act that works outward only. -/
theorem outward_tables {packetType : PacketType} {m : ServerM Response}
    (h : Moves Outward m { w with store := ticked w.store }) :
    Tables env w packetType body ((answer m).run { w with store := ticked w.store }) := by
  refine .kept _ ?_
  have hkept := keepsTables_of_moves (h.mono
    (B := fun w w' : World => KeepsTables w.store w'.store) fun w₁ w₂ (hstep : Outward w₁ w₂) => by
      rw [hstep.store]
      exact .refl _)
  rw [answer_store]
  exact ⟨hkept.friendships, hkept.messages⟩

/-- An act that only reads. -/
theorem reading_tables {packetType : PacketType} {m : ServerM Response} {x : Except Exn Response}
    (h : m.run { w with store := ticked w.store } =
      answeredFrom x { w with store := ticked w.store }) :
    Tables env w packetType body ((answer m).run { w with store := ticked w.store }) := by
  refine .kept _ ?_
  rw [answer_store, h]
  cases x <;> exact ⟨rfl, rfl⟩

theorem directMessageAct_tables {req : DirectMessageRequest}
    (hreq : deserialize DirectMessageRequest body = .ok req) {login : Bytes}
    (hlogin : tokenLogin env req.token w.store = some login) :
    Tables env w .directMessage body
      ((answer (directMessageAct env req.recipientLogin req.message login)).run
        { w with store := ticked w.store }) := by
  have hcases := directMessageAct_messaging env req.recipientLogin req.message login
    { w with store := ticked w.store }
  generalize hrun : (directMessageAct env req.recipientLogin req.message login).run
    { w with store := ticked w.store } = result at hcases
  cases hcases with
  | thrown e _ =>
    rw [run_answer hrun]
    exact .kept _ ⟨rfl, rfl⟩
  | refused e _ _ =>
    rw [answer_run hrun]
    exact .kept _ ⟨rfl, rfl⟩
  | accepted sender recipient hplan =>
    rw [answer_run hrun]
    exact .stored req login sender recipient rfl hreq hlogin hplan

/-- The switch, for every packet. -/
theorem dispatch_tables (env : Env) (self : ConnId) (packetType : PacketType) (body : Bytes)
    {w : World} (hn : Normalised w.store.db.friendships.rows) :
    Tables env w packetType body ((dispatch env self packetType body).run w) := by
  by_cases hauth : Authenticating packetType
  · exact .kept _ (dispatch_authenticating self body w hauth)
  by_cases hlogout : packetType = .logout
  · subst hlogout
    exact .kept _ (dispatch_logout_keepsTables env self body w)
  cases hreq : requestOf env packetType body with
  | none =>
    refine .kept _ ?_
    rw [dispatch_without_request self hreq hauth hlogout w]
    exact .refl _
  | some t =>
    rw [dispatch_request self hreq w]
    cases hlogin : tokenLogin env t.token w.store with
    | none =>
      obtain ⟨e, st', hlook, hrun⟩ := withAccount_none t.refuse t.act hlogin
      rw [answer_run hrun]
      exact .kept _ (LookedUp.keepsTables hlook)
    | some login =>
      have hact := withAccount_some t.refuse t.act hlogin
      have hanswer : (answer (withAccount env t.token t.refuse t.act)).run w =
          (answer (t.act login)).run { w with store := ticked w.store } := by
        simp only [answer, EStateM.run_bind, hact]
      rw [hanswer]
      cases packetType with
      | message =>
        obtain ⟨req, -, rfl⟩ := toOption_map_some hreq
        exact outward_tables (moves_bind (broadcast_moves _ _ _) fun _ _ _ => moves_pure _ _)
      | upload =>
        obtain ⟨req, -, rfl⟩ := toOption_map_some hreq
        exact outward_tables (moves_bind (encryptAES_moves env _ _ _) fun _ _ _ =>
          moves_bind (bytesToFile_moves env _ _ _) fun _ _ _ => moves_pure _ _)
      | download =>
        obtain ⟨req, -, rfl⟩ := toOption_map_some hreq
        exact outward_tables (moves_bind (fileToBytes_moves env _ _) fun _ _ _ =>
          moves_bind (decryptAES_moves env _ _ _) fun _ _ _ => moves_pure _ _)
      | friendRequest =>
        obtain ⟨req, hdecoded, rfl⟩ := toOption_map_some hreq
        exact friendAct_tables .sendRequest hn rfl hdecoded hlogin
      | friendAccept =>
        obtain ⟨req, hdecoded, rfl⟩ := toOption_map_some hreq
        exact friendAct_tables .acceptRequest hn rfl hdecoded hlogin
      | friendReject =>
        obtain ⟨req, hdecoded, rfl⟩ := toOption_map_some hreq
        exact friendAct_tables .rejectRequest hn rfl hdecoded hlogin
      | friendList =>
        obtain ⟨req, -, rfl⟩ := toOption_map_some hreq
        exact reading_tables (friendListAct_run login _)
      | messageHistory =>
        obtain ⟨req, -, rfl⟩ := toOption_map_some hreq
        exact reading_tables (historyAct_run env req.peerLogin login _)
      | directMessage =>
        obtain ⟨req, hdecoded, rfl⟩ := toOption_map_some hreq
        exact directMessageAct_tables hdecoded hlogin
      | chatList =>
        obtain ⟨req, -, rfl⟩ := toOption_map_some hreq
        exact reading_tables (chatListAct_run env login _)
      | _ => cases hreq

end

section

variable {env : Env} {c : ConnId} {packetType : PacketType} {body : Bytes} {w : World}
  {t : TokenRequest}

theorem awaits_of_request (h : requestOf env packetType body = some t) :
    awaitsResult packetType = true ∧ ¬ Authenticating packetType := by
  have plain : ∀ p : PacketType, p ≠ .register → p ≠ .login → p ≠ .tokenVerify →
      ¬ Authenticating p := by
    rintro p hregister hlogin hverify (hp | hp | hp)
    · exact hregister hp
    · exact hlogin hp
    · exact hverify hp
  cases packetType with
  | register | login | tokenVerify | logout | result | friendNewRequest
  | friendRequestAccepted | friendRequestRejected | unnamed => cases h
  | _ => exact ⟨rfl, plain _ (by decide) (by decide) (by decide)⟩

/-- A request with a valid token is answered with what its act returns. -/
theorem answered_iff_outcome (hlive : (w.sessions c).isSome)
    (hrequest : requestOf env packetType body = some t) {login : Bytes}
    (hlogin : tokenLogin env t.token w.store = some login) (r : Response) :
    AnsweredWith env w c packetType body r ↔
      outcome ((t.act login).run { w with store := ticked w.store }) = .ok r := by
  obtain ⟨hawaits, hplain⟩ := awaits_of_request hrequest
  have hdispatch : (dispatch env c packetType body).run w =
      (answer (t.act login)).run { w with store := ticked w.store } := by
    rw [dispatch_request c hrequest w]
    simp only [answer, EStateM.run_bind, withAccount_some t.refuse t.act hlogin]
  constructor
  · rintro ⟨w', before, hrun, hsent⟩
    have hcases := handlePacket_handling env packetType body hlive
    rw [hrun] at hcases
    cases hcases with
    | answered r' w₁ hend =>
      obtain rfl := response_of_sent hend hawaits hsent
      rw [hdispatch, answer, EStateM.run_bind] at hend
      cases hact : (t.act login).run { w with store := ticked w.store } with
      | ok r₁ w₂ =>
        rw [hact] at hend
        cases hend
        rfl
      | error e w₂ =>
        rw [hact] at hend
        cases hend
    | welcomed r' l w₁ hend _ _ =>
      exact absurd (authenticating_of_authenticatesAs (unseen_of_dispatch hend).1) hplain
  · intro hact
    obtain ⟨w₁, hact⟩ := outcome_eq_ok.mp hact
    have hend : (dispatch env c packetType body).run w = .ok (some r, none) w₁ :=
      hdispatch.trans (answer_run hact)
    have hsent := dispatch_keepsSent env c packetType body w
    rw [hend] at hsent
    obtain ⟨before, hbefore⟩ := hsent
    refine ⟨withAnswer w₁ c packetType (some r), before, handlePacket_answered hend, ?_⟩
    rw [hbefore]
    rfl

end

/-- How a step leaves the two tables. -/
inductive TableStep (env : Env) (w : World) : Event → World → Prop where
  | kept (e : Event) (w' : World) (ids : List ℤ)
      (hfriendships : w'.store.db.friendships = w.store.db.friendships)
      (hmessages : w'.store.db.directMessages = (withDelivered w.store ids).db.directMessages) :
      TableStep env w e w'
  | befriended (c : ConnId) (packetType : PacketType) (body : Bytes) (x y : ℤ)
      (call : ℤ → ℤ → FriendCall) (w' : World) (hrunning : w.status = .running)
      (hlive : (w.sessions c).isSome) (hbefriends : Befriends env w body x y)
      (hcall : friendCall packetType = some call)
      (hcarries : CarriesOut (call x y).command w.store Error.Base.ok w'.store)
      (hmessages : w'.store.db.directMessages = w.store.db.directMessages)
      (hanswered : AnsweredWith env w c packetType body (.friend ⟨Error.Base.ok⟩)) :
      TableStep env w (.packet c packetType body) w'
  | stored (c : ConnId) (body : Bytes) (req : DirectMessageRequest) (login : Bytes)
      (sender recipient : ℤ) (hrunning : w.status = .running) (hlive : (w.sessions c).isSome)
      (hreq : deserialize DirectMessageRequest body = .ok req)
      (hlogin : tokenLogin env req.token w.store = some login)
      (hplan : directMessagePlan req.recipientLogin login w.store =
        .ok (.ok (sender, recipient))) :
      TableStep env w (.packet c .directMessage body)
        (withAnswer (withDirectMessage env { w with store := ticked w.store } req.recipientLogin
          login req.message sender recipient) c .directMessage
          (some (.directMessage ⟨Error.Base.ok⟩)))

theorem TableStep.of_keeps {env : Env} {w w' : World} (e : Event)
    (h : KeepsTables w.store w'.store) : TableStep env w e w' := by
  refine .kept e w' [] h.friendships ?_
  rw [withDelivered_nil]
  exact h.messages

theorem withDelivered_messages {st st' : Store}
    (h : st'.db.directMessages = st.db.directMessages) (ids : List ℤ) :
    (withDelivered st' ids).db.directMessages = (withDelivered st ids).db.directMessages := by
  simp only [withDelivered, h]

theorem withAnswer_store (w : World) (c : ConnId) (packetType : PacketType)
    (r : Option Response) : (withAnswer w c packetType r).store = w.store := by
  cases r <;> rfl

theorem receive_tableStep (env : Env) {w : World} (c : ConnId) (packetType : PacketType)
    (body : Bytes) (hn : Normalised w.store.db.friendships.rows) (hrunning : w.status = .running)
    (hlive : (w.sessions c).isSome) :
    TableStep env w (.packet c packetType body) (w.receive env c packetType body) := by
  have htables := dispatch_tables env c packetType body hn
  have hsent := dispatch_keepsSent env c packetType body w
  have hcases := handlePacket_handling env packetType body hlive
  unfold World.receive
  generalize hhandled : (handlePacket env c packetType body).run w = result at hcases
  cases hcases with
  | thrown e w₁ hrun =>
    rw [hrun] at htables
    cases htables with
    | kept _ h => exact .of_keeps _ h
  | answered r w₁ hrun =>
    rw [hrun] at htables hsent
    cases htables with
    | kept _ h =>
      refine .of_keeps _ ?_
      rw [withAnswer_store]
      exact h
    | befriended x y call _ hbefriends hcall hcarries hmessages =>
      obtain ⟨before, hbefore⟩ := hsent
      refine .befriended c packetType body x y call _ hrunning hlive hbefriends hcall hcarries
        hmessages ⟨_, before, hhandled, ?_⟩
      rw [hbefore]
      rfl
    | stored req login sender recipient htype hreq hlogin hplan =>
      subst htype
      exact .stored c body req login sender recipient hrunning hlive hreq hlogin hplan
  | undelivered r l w₁ e handed hrun _ =>
    rw [hrun] at htables
    cases htables with
    | kept _ h => exact .of_keeps _ ⟨h.friendships, h.messages⟩
  | welcomed r l w₁ hrun _ _ =>
    rw [hrun] at htables
    cases htables with
    | kept _ h =>
      refine .kept _ _ ((backlog env l w₁.store).map StoredMessage.id) ?_ ?_
      · rw [withAnswer_store]
        exact h.friendships
      · rw [withAnswer_store]
        exact withDelivered_messages h.messages _

theorem step_tableStep (env : Env) {w : World} (e : Event)
    (hn : Normalised w.store.db.friendships.rows) : TableStep env w e (w.step env e) := by
  have hstep := step_stepping env w e
  generalize w.step env e = w' at hstep
  cases hstep with
  | idle e => exact .of_keeps _ ⟨rfl, rfl⟩
  | restart => exact .of_keeps _ ⟨rfl, rfl⟩
  | connect _ => exact .of_keeps _ ⟨rfl, rfl⟩
  | packet c packetType body hrunning hlive =>
    exact receive_tableStep env c packetType body hn hrunning hlive
  | disconnect c _ => exact .of_keeps _ ⟨rfl, rfl⟩
  | cleanTokens _ => exact .of_keeps _ ⟨rfl, rfl⟩

/-- What every reachable store keeps: friendships between users who exist, messages between
accepted friends, and no token that has not been drawn. -/
structure Sound (env : Env) (st : Store) : Prop where
  normalised : Normalised st.db.friendships.rows
  befriended : ∀ f ∈ st.db.friendships.rows, hasUser st f.user1 ∧ hasUser st f.user2
  corresponding : ∀ r ∈ st.db.directMessages.rows, hasUser st r.sender ∧ hasUser st r.recipient
  friends : ∀ r ∈ st.db.directMessages.rows,
    friendMap st.db.friendships.rows s(r.sender, r.recipient) = .accepted
  drawn : ∀ s ∈ st.db.sessions, ∃ n < st.uuidsDrawn, s.token = env.uuid n

/-- Senders and recipients are there after an authentication as well. -/
theorem Sound.corresponding_of_quiet {env : Env} {st st' : Store} (h : Sound env st)
    (hquiet : Quiet env st st') : ∀ r ∈ st'.db.directMessages.rows,
      hasUser st' r.sender ∧ hasUser st' r.recipient := by
  rw [hquiet.messages]
  exact fun r hr => ⟨isSome_findUser hquiet.toGrows (h.corresponding r hr).1,
    isSome_findUser hquiet.toGrows (h.corresponding r hr).2⟩

theorem directMessagePlan_ok {recipientLogin senderLogin : Bytes} {st : Store}
    {sender recipient : ℤ}
    (h : directMessagePlan recipientLogin senderLogin st = .ok (.ok (sender, recipient))) :
    getIdByLogin senderLogin st = .ok sender ∧ getIdByLogin recipientLogin st = .ok recipient ∧
      (FriendRepository.areFriends sender recipient st).ok = true := by
  unfold directMessagePlan at h
  cases hrecipient : getIdByLogin recipientLogin st with
  | error e =>
    rw [hrecipient] at h
    cases h
  | ok b =>
    cases hsender : getIdByLogin senderLogin st with
    | error e =>
      rw [hrecipient, hsender] at h
      cases h
    | ok a =>
      simp only [hrecipient, hsender] at h
      split at h
      · cases h
        exact ⟨rfl, rfl, by assumption⟩
      · cases h

/-- A carried out command leaves users of the pair or rows that were there. -/
theorem CarriesOut.users_of_mem {c : Command ℤ} {st st' : Store} {e : ErrorCode}
    (h : CarriesOut c st e st') {f : FriendshipRow} (hf : f ∈ st'.db.friendships.rows) :
    f ∈ st.db.friendships.rows ∨ (f.user1, f.user2) = ends c.pair := by
  cases hpair : f.hasPair (ends c.pair) with
  | true => exact Or.inr (hasPair_iff.mp hpair)
  | false =>
    have hother : f ∈ st'.db.friendships.rows.filter (fun r => !r.hasPair (ends c.pair)) :=
      List.mem_filter.mpr ⟨hf, by simp [hpair]⟩
    rw [h.others] at hother
    exact Or.inl (List.mem_of_mem_filter hother)

theorem drawn_of_grows {env : Env} {st st' : Store} (hgrows : Grows env st st')
    (h : ∀ s ∈ st.db.sessions, ∃ n < st.uuidsDrawn, s.token = env.uuid n) :
    ∀ s ∈ st'.db.sessions, ∃ n < st'.uuidsDrawn, s.token = env.uuid n := by
  intro s hs
  rcases hgrows.tokens s hs with hold | ⟨n, -, hn, htoken⟩
  · obtain ⟨n, hn, htoken⟩ := h s hold
    exact ⟨n, hn.trans_le hgrows.uuids, htoken⟩
  · exact ⟨n, hn, htoken⟩

/-- Marking changes the flag only. -/
theorem unmarked_row {st : Store} {ids : List ℤ} {r : DirectMessageRow}
    (h : r ∈ (withDelivered st ids).db.directMessages.rows) :
    ∃ old ∈ st.db.directMessages.rows, SameMessage old r ∧ r.createAt = old.createAt := by
  obtain ⟨old, hold, rfl⟩ := List.mem_map.mp h
  refine ⟨old, hold, ?_⟩
  split <;> exact ⟨⟨rfl, rfl, rfl, rfl⟩, rfl⟩

theorem sound_step (env : Env) {w : World} (e : Event) (h : Sound env w.store) :
    Sound env (w.step env e).store := by
  have hgrows := step_grows env w e
  have hdrawn := drawn_of_grows hgrows h.drawn
  have huser : ∀ id, hasUser w.store id → hasUser (w.step env e).store id :=
    fun id hid => isSome_findUser hgrows hid
  have hstep := step_tableStep env e h.normalised
  generalize w.step env e = w' at hdrawn huser hstep
  cases hstep with
  | kept e w' ids hfriendships hmessages =>
    have hrows : ∀ r ∈ w'.store.db.directMessages.rows, ∃ old ∈ w.store.db.directMessages.rows,
        r.sender = old.sender ∧ r.recipient = old.recipient := by
      intro r hr
      rw [hmessages] at hr
      obtain ⟨old, hold, hsame, -⟩ := unmarked_row hr
      exact ⟨old, hold, hsame.sender, hsame.recipient⟩
    constructor
    · rw [hfriendships]
      exact h.normalised
    · rw [hfriendships]
      exact fun f hf => ⟨huser _ (h.befriended f hf).1, huser _ (h.befriended f hf).2⟩
    · intro r hr
      obtain ⟨old, hold, hsender, hrecipient⟩ := hrows r hr
      rw [hsender, hrecipient]
      exact ⟨huser _ (h.corresponding old hold).1, huser _ (h.corresponding old hold).2⟩
    · intro r hr
      obtain ⟨old, hold, hsender, hrecipient⟩ := hrows r hr
      rw [hsender, hrecipient, hfriendships]
      exact h.friends old hold
    · exact hdrawn
  | befriended c packetType body x y call w' _ _ hbefriends hcall hcarries hmessages _ =>
    obtain ⟨req, login, -, -, hx, hy⟩ := hbefriends.named
    obtain ⟨hactor, hpeer⟩ := friendCall_ends hcall x y
    constructor
    · exact hcarries.normalised
    · intro f hf
      rcases CarriesOut.users_of_mem hcarries hf with hold | hnew
      · exact ⟨huser _ (h.befriended f hold).1, huser _ (h.befriended f hold).2⟩
      · have hpair : (f.user1, f.user2) = normalize x y := by
          rw [hnew, Command.pair, hactor, hpeer, normalize_eq]
        have hboth := forall_normalize.mpr ⟨huser x (isSome_findUser_of_getIdByLogin hx),
          huser y (isSome_findUser_of_getIdByLogin hy)⟩
        rwa [← hpair] at hboth
    · rw [hmessages]
      exact fun r hr => ⟨huser _ (h.corresponding r hr).1, huser _ (h.corresponding r hr).2⟩
    · rw [hmessages]
      intro r hr
      rw [hcarries.map]
      exact Command.exec_accepted (FriendCall.required_ne_accepted _) (h.friends r hr)
    · exact hdrawn
  | stored c body req login sender recipient _ _ _ _ hplan =>
    obtain ⟨hsender, hrecipient, hok⟩ := directMessagePlan_ok hplan
    rw [withAnswer_store] at *
    constructor
    · exact h.normalised
    · exact h.befriended
    · intro r hr
      rcases List.mem_append.mp hr with hold | hnew
      · exact h.corresponding r hold
      · rw [List.mem_singleton.mp hnew]
        exact ⟨isSome_findUser_of_getIdByLogin hsender,
          isSome_findUser_of_getIdByLogin hrecipient⟩
    · intro r hr
      rcases List.mem_append.mp hr with hold | hnew
      · exact h.friends r hold
      · rw [List.mem_singleton.mp hnew]
        exact (areFriends_ok_iff h.normalised).mp hok
    · exact hdrawn

theorem normalised_nil : Normalised [] := ⟨by simp, by simp, by simp, by simp⟩

theorem sound_initial (env : Env) (files : ℕ → Option Bytes) :
    Sound env (World.initial env files).store where
  normalised := normalised_nil
  befriended := fun _ hf => absurd hf List.not_mem_nil
  corresponding := fun _ hr => absurd hr List.not_mem_nil
  friends := fun _ hr => absurd hr List.not_mem_nil
  drawn := fun _ hs => absurd hs List.not_mem_nil

theorem sound_run (env : Env) (files : ℕ → Option Bytes) (events : List Event) :
    Sound env (LabelledRuns.run (World.step env) (World.initial env files) events).store :=
  LabelledRuns.invariant (P := fun w : World => Sound env w.store)
    (fun _ e h => sound_step env e h) (sound_initial env files) events

theorem sound_reachable {env : Env} {w : World} (h : World.Reachable env w) :
    Sound env w.store := by
  obtain ⟨files, events, rfl⟩ := h
  exact sound_run env files events

end Messenger.TableSteps
