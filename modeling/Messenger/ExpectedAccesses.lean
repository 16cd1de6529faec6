import Messenger.Authentications

/-!
Accesses to std::expected. An ill-founded `.value()` throws and an ill-founded `.error()`
reads an inactive member; both end the handler where the program stops at such a read. Ids
of friends, of senders and of logins that were just looked up are all there. What is not
always there is a user with the login read back for a token, and a user with the login a
client names as its peer.
-/
namespace Messenger.ExpectedAccesses

open KeyedTables Outcomes ClientSession UserRepository MessageRepository FriendStates
  HandlerActions HandlePacket ServerSteps MalformedBodies MessageRows TokenRequests TableSteps
  Authentications

/-- What the model throws where an expected is accessed wrongly. -/
def Misuse (e : Exn) : Prop := e = .badExpectedAccess ∨ e = .undefinedBehaviour

/-- A read of an inactive member stops the program, and so it is seen. -/
def stopping (env : Env) : Env := { env with inactive := none }

def Misused {α : Type} (result : EStateM.Result Exn World α) : Prop :=
  ∃ e w, result = .error e w ∧ Misuse e

theorem misused_ok {α : Type} (a : α) (w : World) :
    ¬ Misused (.ok a w : EStateM.Result Exn World α) := by
  rintro ⟨e, w', h, -⟩
  cases h

theorem misused_error {α : Type} (e : Exn) (w : World) :
    Misused (.error e w : EStateM.Result Exn World α) ↔ Misuse e := by
  constructor
  · rintro ⟨e', w', h, hmisuse⟩
    cases h
    exact hmisuse
  · exact fun h => ⟨e, w, rfl, h⟩

/-- The users that a packet makes its handler rely on exist. -/
def UsersFound (env : Env) (w : World) (packetType : PacketType) (body : Bytes) : Prop :=
  match packetType with
  | .friendList => ∀ req login, deserialize FriendListRequest body = .ok req →
      tokenLogin env req.token w.store = some login → (w.store.db.findLogin login).isSome
  | .chatList => ∀ req login, deserialize ChatListRequest body = .ok req →
      tokenLogin env req.token w.store = some login → (w.store.db.findLogin login).isSome
  | .messageHistory => ∀ req login, deserialize HistoryRequest body = .ok req →
      tokenLogin env req.token w.store = some login → (w.store.db.findLogin login).isSome ∧
        (w.store.db.findLogin req.peerLogin).isSome
  | .directMessage => ∀ req login, deserialize DirectMessageRequest body = .ok req →
      tokenLogin env req.token w.store = some login →
        (w.store.db.findLogin req.recipientLogin).isSome → (w.store.db.findLogin login).isSome
  | .tokenVerify => ∀ req login, deserialize TokenVerifyRequest body = .ok req →
      tokenLogin env req.oldToken w.store = some login → (w.store.db.findLogin login).isSome
  | _ => True

def Proper (e : Exn) : Prop := ¬ Misuse e

theorem not_misused_of_throws {α : Type} {m : ServerM α} (h : Throws Proper m) (w : World) :
    ¬ Misused (m.run w) := by
  rintro ⟨e, w', hrun, hmisuse⟩
  exact h _ _ _ hrun hmisuse

theorem broadcastLoop_throws (senderLogin : Bytes) (packetType : PacketType) (body : Bytes)
    (entries : List (Bytes × ConnId)) :
    Throws Proper (SessionManager.broadcastLoop senderLogin packetType body entries) := by
  induction entries with
  | nil => exact throws_pure _
  | cons entry rest ih =>
    refine throws_bind throws_get fun w => throws_ite ?_ ih
    cases w.lock entry.2 with
    | some sess => exact throws_bind (throws_modify _) fun _ => ih
    | none => exact ih

theorem messageAct_throws (message login : Bytes) : Throws Proper (messageAct message login) :=
  throws_bind (throws_bind throws_get fun _ => broadcastLoop_throws _ _ _ _) fun _ =>
    throws_pure _

theorem encryptAES_throws (env : Env) (plaintext key : Bytes) :
    Throws Proper (encryptAES env plaintext key) := by
  refine throws_ite (throws_throw nofun) ?_
  refine throws_bind throws_get fun w => throws_bind (throws_modify _) fun _ => ?_
  split
  · exact throws_throw nofun
  · split
    · exact throws_throw nofun
    · exact throws_throw nofun
    · exact throws_throw nofun
    · exact throws_throw nofun
    · exact throws_ite (throws_pure _) (throws_throw nofun)

theorem uploadAct_throws (env : Env) (fileName fileData : Bytes) :
    Throws Proper (uploadAct env fileName fileData) := by
  refine throws_bind (encryptAES_throws env _ _) fun encrypted => throws_bind ?_ fun _ =>
    throws_pure _
  unfold bytesToFile
  split
  · exact throws_pure _
  · exact throws_ite (throws_modify _) (throws_pure _)

theorem downloadAct_throws (env : Env) (fileName : Bytes) :
    Throws Proper (downloadAct env fileName) := by
  refine throws_bind (throws_bind throws_get fun w => ?_) fun bytes => throws_bind ?_ fun _ =>
    throws_pure _
  · split
    · exact throws_throw nofun
    · split
      · exact throws_throw nofun
      · exact throws_ite (throws_throw nofun) (throws_ite (throws_pure _) (throws_pure _))
  · refine throws_ite (throws_throw nofun) (throws_ite (throws_throw nofun) ?_)
    split
    · exact throws_throw nofun
    · exact throws_throw nofun
    · exact throws_throw nofun
    · exact throws_throw nofun
    · exact throws_ite (throws_pure _) (throws_throw nofun)

theorem mapM_ok {α β : Type} {f : α → Except Exn β} {as : List α}
    (h : ∀ a ∈ as, ∃ b, f a = .ok b) : ∃ bs, as.mapM f = .ok bs := by
  induction as with
  | nil => exact ⟨[], rfl⟩
  | cons a rest ih =>
    obtain ⟨b, hb⟩ := h a List.mem_cons_self
    obtain ⟨bs, hbs⟩ := ih fun x hx => h x (List.mem_cons_of_mem _ hx)
    refine ⟨b :: bs, ?_⟩
    rw [List.mapM_cons, hb, hbs]
    rfl

theorem misused_answeredFrom {α : Type} {x : Except Exn α} {w : World} :
    Misused (answeredFrom x w) ↔ ∃ e, x = .error e ∧ Misuse e := by
  cases x with
  | ok a => simp [answeredFrom, misused_ok]
  | error e => simp [answeredFrom, misused_error]

theorem getLoginById_of_hasUser {st : Store} {id : ℤ} (h : hasUser st id) :
    ∃ login, expectValue (getLoginById id st) = .ok login := by
  obtain ⟨u, hu⟩ := Option.isSome_iff_exists.mp h
  exact ⟨getText u.login, by simp only [getLoginById, hu, expectValue]⟩

theorem loginsIn_ok {ids : List ℤ} {st : Store} (h : ∀ id ∈ ids, hasUser st id) :
    ∃ logins, loginsIn ids st = .ok logins :=
  mapM_ok fun id hid => getLoginById_of_hasUser (h id hid)

theorem entriesIn_ok {messages : List DirectMessage} {st : Store}
    (h : ∀ m ∈ messages, hasUser st m.sender) : ∃ entries, entriesIn messages st = .ok entries := by
  refine mapM_ok fun m hm => ?_
  obtain ⟨login, hlogin⟩ := getLoginById_of_hasUser (h m hm)
  exact ⟨_, by rw [hlogin]; rfl⟩

section

variable {env : Env} {w : World} (h : Sound env w.store)

include h

theorem users_of_getFriends (id : ℤ) :
    ∀ el ∈ FriendRepository.getFriends id w.store, hasUser w.store el := by
  intro el hel
  obtain ⟨f, hf, rfl⟩ := List.mem_map.mp hel
  obtain ⟨huser1, huser2⟩ := h.befriended f (List.mem_of_mem_filter hf)
  split
  · exact huser2
  · exact huser1

theorem users_of_getPendingIncoming (id : ℤ) :
    ∀ el ∈ FriendRepository.getPendingIncoming id w.store, hasUser w.store el := by
  intro el hel
  obtain ⟨f, hf, rfl⟩ := List.mem_map.mp hel
  have hrow := List.mem_of_mem_filter hf
  obtain ⟨huser1, huser2⟩ := h.befriended f hrow
  rcases h.normalised.initiator f hrow with hinit | hinit
  · rw [hinit]
    exact huser1
  · rw [hinit]
    exact huser2

theorem senders_of_getHistory (user1 user2 limit : ℤ) :
    ∀ m ∈ getHistory env user1 user2 limit w.store, hasUser w.store m.sender := by
  intro m hm
  obtain ⟨r, hr, rfl⟩ := List.mem_map.mp hm
  have hsorted := mem_of_limited hr
  exact (h.corresponding r
    (List.mem_of_mem_filter ((env.sqlite.orderBy_perm _ _).subset hsorted))).1

theorem friendListAct_misused_iff (senderLogin : Bytes) :
    Misused ((friendListAct senderLogin).run w) ↔
      ¬ (w.store.db.findLogin senderLogin).isSome := by
  rw [friendListAct_run, misused_answeredFrom, friendListAnswer]
  rcases getIdByLogin_cases senderLogin w.store with ⟨hknown, id, hid⟩ | ⟨hunknown, he⟩
  · obtain ⟨friends, hfriends⟩ := loginsIn_ok (users_of_getFriends h id)
    obtain ⟨pending, hpending⟩ := loginsIn_ok (users_of_getPendingIncoming h id)
    refine iff_of_false ?_ (not_not.mpr hknown)
    rintro ⟨e, he, -⟩
    simp only [hid, expectValue, ok_bind, hfriends, hpending] at he
    cases he
  · rw [he]
    exact iff_of_true ⟨_, rfl, Or.inl rfl⟩ hunknown

theorem historyAct_misused_iff (peerLogin senderLogin : Bytes) :
    Misused ((historyAct env peerLogin senderLogin).run w) ↔
      ¬ ((w.store.db.findLogin senderLogin).isSome ∧ (w.store.db.findLogin peerLogin).isSome) := by
  rw [historyAct_run, misused_answeredFrom, historyAnswer]
  rcases getIdByLogin_cases senderLogin w.store with ⟨hknown, sender, hsender⟩ | ⟨hunknown, he⟩
  · rw [hsender]
    rcases getIdByLogin_cases peerLogin w.store with ⟨hpeer, peer, hid⟩ | ⟨hpeer, he⟩
    · obtain ⟨entries, hentries⟩ := entriesIn_ok (senders_of_getHistory h sender peer 100)
      refine iff_of_false ?_ (not_not.mpr ⟨hknown, hpeer⟩)
      rintro ⟨e, he, -⟩
      simp only [hid, expectValue, ok_bind, hentries] at he
      cases he
    · rw [he]
      exact iff_of_true ⟨_, rfl, Or.inl rfl⟩ fun hboth => hpeer hboth.2
  · rw [he]
    exact iff_of_true ⟨_, rfl, Or.inl rfl⟩ fun hboth => hunknown hboth.1

omit h in
theorem chatListAct_misused_iff (hstops : env.inactive = none) (login : Bytes) :
    Misused ((chatListAct env login).run w) ↔ ¬ (w.store.db.findLogin login).isSome := by
  rw [chatListAct_run, misused_answeredFrom, chatListAnswer]
  rcases getIdByLogin_cases login w.store with ⟨hknown, id, hid⟩ | ⟨hunknown, he⟩
  · rw [hid]
    refine iff_of_false ?_ (not_not.mpr hknown)
    rintro ⟨e, he, -⟩
    cases he
  · rw [he, hstops]
    exact iff_of_true ⟨_, rfl, Or.inr rfl⟩ hunknown

omit h in
theorem directMessageAct_misused_iff (recipientLogin message senderLogin : Bytes) :
    Misused ((directMessageAct env recipientLogin message senderLogin).run w) ↔
      ¬ ((w.store.db.findLogin recipientLogin).isSome →
        (w.store.db.findLogin senderLogin).isSome) := by
  rw [directMessageAct_run, directMessagePlan]
  rcases getIdByLogin_cases recipientLogin w.store with ⟨hknown, id, hid⟩ | ⟨hunknown, he⟩
  · rw [hid]
    rcases getIdByLogin_cases senderLogin w.store with ⟨hsender, id', hid'⟩ | ⟨hsender, he⟩
    · rw [hid']
      refine iff_of_false ?_ (not_not.mpr fun _ => hsender)
      by_cases hfriends : (FriendRepository.areFriends id' id w.store).ok = true
      · simp only [if_pos hfriends]
        exact misused_ok _ _
      · simp only [if_neg hfriends]
        exact misused_ok _ _
    · rw [he]
      exact iff_of_true ((misused_error _ _).mpr (Or.inl rfl)) fun himp => hsender (himp hknown)
  · rw [he]
    exact iff_of_false (misused_ok _ _) (not_not.mpr fun hsome => absurd hsome hunknown)

/-- Requests about friends look up both logins before they use their ids. -/
theorem friendAct_not_misused (packetType : PacketType) {notice : PacketType}
    {call : ℤ → ℤ → FriendCall} (hcall : friendCall packetType = some call)
    (targetLogin senderLogin : Bytes) :
    ¬ Misused
      ((friendAct env (fun x y => (call x y).program) notice targetLogin senderLogin).run w) := by
  cases hids : friendIds senderLogin targetLogin w.store with
  | error e =>
    rw [(friendAct_refused env _ notice hids).2]
    exact misused_ok _ _
  | ok ids =>
    obtain ⟨x, y⟩ := ids
    obtain ⟨e, st', hprogram, -⟩ :=
      (call x y).carriesOut h.normalised (usersExist_of_friendIds hcall hids)
    rw [friendAct_run env _ notice hids]
    simp only [hprogram]
    split
    · exact misused_ok _ _
    · exact misused_ok _ _

end

theorem misused_answer {m : ServerM Response} {w : World} :
    Misused ((answer m).run w) ↔ Misused (m.run w) := by
  rw [answer, EStateM.run_bind]
  cases hm : m.run w with
  | ok r w₁ => exact iff_of_false (misused_ok _ _) (misused_ok _ _)
  | error e w₁ => rw [misused_error, misused_error]

/-- A handler that authenticates nobody ends as its switch does. -/
theorem handlePacket_misused_iff {env : Env} {self : ConnId} {packetType : PacketType}
    {body : Bytes} {w : World} (hlive : (w.sessions self).isSome)
    (hplain : ¬ Authenticating packetType) :
    Misused ((handlePacket env self packetType body).run w) ↔
      Misused ((dispatch env self packetType body).run w) := by
  have hcases := handlePacket_handling env packetType body hlive
  generalize (handlePacket env self packetType body).run w = result at hcases
  cases hcases with
  | thrown e w₁ hrun => rw [hrun, misused_error, misused_error]
  | answered r w₁ hrun =>
    rw [hrun]
    exact iff_of_false (misused_ok _ _) (misused_ok _ _)
  | undelivered r login w₁ e handed hrun _ =>
    exact absurd (authenticating_of_authenticatesAs (unseen_of_dispatch hrun).1) hplain
  | welcomed r login w₁ hrun _ _ =>
    exact absurd (authenticating_of_authenticatesAs (unseen_of_dispatch hrun).1) hplain

theorem usersFound_iff_known {env : Env} {packetType : PacketType} {body login : Bytes}
    {w : World} (hlogin : authenticatesAs env w packetType body = some login) :
    UsersFound env w packetType body ↔
      packetType ≠ .tokenVerify ∨ (w.store.db.findLogin login).isSome := by
  rcases authenticating_of_authenticatesAs hlogin with rfl | rfl | rfl
  · exact iff_of_true trivial (Or.inl (by decide))
  · exact iff_of_true trivial (Or.inl (by decide))
  · cases hreq : deserialize TokenVerifyRequest body with
    | error e =>
      simp only [authenticatesAs, hreq] at hlogin
      cases hlogin
    | ok req =>
      simp only [authenticatesAs, hreq] at hlogin
      constructor
      · exact fun h => Or.inr (h req login hreq hlogin)
      · rintro (hne | hknown) req' login' hreq' hlogin'
        · exact absurd rfl hne
        · cases hreq.symm.trans hreq'
          cases hlogin.symm.trans hlogin'
          exact hknown

/-- An authentication reads the id of the login it has accepted. -/
theorem authenticating_misused_iff {env : Env} {self : ConnId} {packetType : PacketType}
    {body : Bytes} {w : World} (h : Sound env w.store) (hlive : (w.sessions self).isSome)
    (hauth : Authenticating packetType)
    (hdecodes : ∀ T, requestStruct packetType = some T → ¬ Malformed T body) :
    ¬ Misused ((handlePacket env self packetType body).run w) ↔
      UsersFound env w packetType body := by
  have hcase := dispatch_authentication h.drawn self hauth hdecodes
  generalize hrun : (dispatch env self packetType body).run w = result at hcase
  cases hcase with
  | refused r st herror hnone hstore =>
    have hok : (handlePacket env self packetType body).run w =
        .ok () (withAnswer { w with store := st } self packetType (some r)) :=
      handlePacket_answered hrun
    rw [hok]
    refine iff_of_true (misused_ok _ _) ?_
    rcases hauth with rfl | rfl | rfl
    · trivial
    · trivial
    · intro req login hreq hlogin
      simp only [authenticatesAs, hreq, hlogin] at hnone
      cases hnone
  | accepted r login st token herror hlogin hquiet hknown =>
    have hwelcome := accepted_welcoming h hlive hquiet hrun
    rw [usersFound_iff_known hlogin, ← hknown]
    generalize (handlePacket env self packetType body).run w = result at hwelcome
    cases hwelcome with
    | unknown w' hunknown =>
      have hnone : ¬ (st.db.findLogin login).isSome := by
        rw [show st.db.findLogin login = none from hunknown]
        simp
      exact iff_of_false (not_not.mpr ((misused_error _ _).mpr (Or.inl rfl))) hnone
    | overlong w' hsome _ =>
      have hproper : ¬ Misuse (.sqliteException "too many SQL variables") := by simp [Misuse]
      exact iff_of_true (fun hbad => hproper ((misused_error _ _).mp hbad)) hsome
    | welcomed hsome _ => exact iff_of_true (misused_ok _ _) hsome

section

variable {env : Env} {self : ConnId} {packetType : PacketType} {body : Bytes} {w : World}

/-- A request with a token accesses wrongly what its act does, if the token stands for
somebody at all. -/
theorem request_misused_iff {t : TokenRequest} (h : requestOf env packetType body = some t)
    {P : Bytes → Prop} (hact : ∀ login,
      Misused ((t.act login).run { w with store := ticked w.store }) ↔ ¬ P login) :
    ¬ Misused ((dispatch env self packetType body).run w) ↔
      ∀ login, tokenLogin env t.token w.store = some login → P login := by
  rw [dispatch_request self h w, misused_answer]
  cases hlogin : tokenLogin env t.token w.store with
  | none =>
    obtain ⟨e, st', -, hrun⟩ := withAccount_none t.refuse t.act hlogin
    rw [hrun]
    exact iff_of_true (misused_ok _ _) nofun
  | some login =>
    rw [withAccount_some t.refuse t.act hlogin, hact login, not_not]
    constructor
    · rintro hP login' hsame
      cases hsame
      exact hP
    · exact fun hall => hall login rfl

theorem forall_decoded_iff {Derived : Type} {x : Except Exn Derived} {req : Derived}
    (hx : x = .ok req) {f : Derived → Option Bytes} {P : Derived → Bytes → Prop} :
    (∀ login, f req = some login → P req login) ↔
      ∀ req login, x = .ok req → f req = some login → P req login := by
  constructor
  · intro h req' login hreq' hlogin
    cases hx.symm.trans hreq'
    exact h login hlogin
  · exact fun h login hlogin => h req login hx hlogin

/-- An act that never accesses wrongly. -/
theorem request_not_misused {t : TokenRequest} (h : requestOf env packetType body = some t)
    (hact : ∀ login, ¬ Misused ((t.act login).run { w with store := ticked w.store })) :
    ¬ Misused ((dispatch env self packetType body).run w) :=
  (request_misused_iff h (P := fun _ => True) fun login =>
    iff_of_false (hact login) (not_not.mpr trivial)).mpr fun _ _ => trivial

end

theorem Sound.ticked {env : Env} {st : Store} (h : Sound env st) : Sound env (ticked st) :=
  ⟨h.normalised, h.befriended, h.corresponding, h.friends, h.drawn⟩

theorem sound_stopping {env : Env} {st : Store} (h : Sound env st) : Sound (stopping env) st :=
  ⟨h.normalised, h.befriended, h.corresponding, h.friends, h.drawn⟩

/-- The requests with a token. -/
theorem dispatch_misused_iff {env : Env} (self : ConnId) {packetType : PacketType} {body : Bytes}
    {w : World} {t : TokenRequest} (h : Sound env w.store)
    (hstops : packetType = .chatList → env.inactive = none)
    (hrequest : requestOf env packetType body = some t) :
    ¬ Misused ((dispatch env self packetType body).run w) ↔
      UsersFound env w packetType body := by
  have hticked : Sound env (World.store { w with store := ticked w.store }) := Sound.ticked h
  cases packetType with
  | message =>
    obtain ⟨req, -, rfl⟩ := toOption_map_some hrequest
    exact iff_of_true (request_not_misused hrequest fun login =>
      not_misused_of_throws (messageAct_throws _ _) _) trivial
  | upload =>
    obtain ⟨req, -, rfl⟩ := toOption_map_some hrequest
    exact iff_of_true (request_not_misused hrequest fun login =>
      not_misused_of_throws (uploadAct_throws env _ _) _) trivial
  | download =>
    obtain ⟨req, -, rfl⟩ := toOption_map_some hrequest
    exact iff_of_true (request_not_misused hrequest fun login =>
      not_misused_of_throws (downloadAct_throws env _) _) trivial
  | friendRequest =>
    obtain ⟨req, -, rfl⟩ := toOption_map_some hrequest
    exact iff_of_true (request_not_misused hrequest fun login =>
      friendAct_not_misused hticked .friendRequest rfl req.targetLogin login) trivial
  | friendAccept =>
    obtain ⟨req, -, rfl⟩ := toOption_map_some hrequest
    exact iff_of_true (request_not_misused hrequest fun login =>
      friendAct_not_misused hticked .friendAccept rfl req.targetLogin login) trivial
  | friendReject =>
    obtain ⟨req, -, rfl⟩ := toOption_map_some hrequest
    exact iff_of_true (request_not_misused hrequest fun login =>
      friendAct_not_misused hticked .friendReject rfl req.targetLogin login) trivial
  | friendList =>
    obtain ⟨req, hreq, rfl⟩ := toOption_map_some hrequest
    exact (request_misused_iff hrequest fun login =>
      friendListAct_misused_iff hticked login).trans
        (forall_decoded_iff hreq (f := fun req => tokenLogin env req.token w.store)
          (P := fun _ login => (w.store.db.findLogin login).isSome))
  | messageHistory =>
    obtain ⟨req, hreq, rfl⟩ := toOption_map_some hrequest
    exact (request_misused_iff hrequest fun login =>
      historyAct_misused_iff hticked req.peerLogin login).trans
        (forall_decoded_iff hreq (f := fun req => tokenLogin env req.token w.store)
          (P := fun req login => (w.store.db.findLogin login).isSome ∧
            (w.store.db.findLogin req.peerLogin).isSome))
  | directMessage =>
    obtain ⟨req, hreq, rfl⟩ := toOption_map_some hrequest
    exact (request_misused_iff hrequest fun login =>
      directMessageAct_misused_iff req.recipientLogin req.message login).trans
        (forall_decoded_iff hreq (f := fun req => tokenLogin env req.token w.store)
          (P := fun req login => (w.store.db.findLogin req.recipientLogin).isSome →
            (w.store.db.findLogin login).isSome))
  | chatList =>
    obtain ⟨req, hreq, rfl⟩ := toOption_map_some hrequest
    exact (request_misused_iff hrequest fun login =>
      chatListAct_misused_iff (hstops rfl) login).trans
        (forall_decoded_iff hreq (f := fun req => tokenLogin env req.token w.store)
          (P := fun _ login => (w.store.db.findLogin login).isSome))
  | _ => cases hrequest

/-- The packets that authenticate nobody and carry no token, or none that can be read. -/
theorem dispatch_without_request_not_misused {env : Env} (self : ConnId)
    {packetType : PacketType} {body : Bytes} (w : World)
    (hrequest : requestOf env packetType body = none) (hauth : ¬ Authenticating packetType)
    (hdecodes : ∀ T, requestStruct packetType = some T → ¬ Malformed T body) :
    ¬ Misused ((dispatch env self packetType body).run w) ∧
      UsersFound env w packetType body := by
  have undecoded : ∀ {Derived Args : Type} [Serializable Derived Args] [TupleSerializer Args]
      {f : Derived → TokenRequest}, (deserialize Derived body).toOption.map f = none →
      ¬ ∃ req, deserialize Derived body = .ok req := by
    intro Derived Args _ _ f hnone ⟨req, hreq⟩
    rw [hreq] at hnone
    cases hnone
  cases packetType with
  | register => exact absurd (Or.inl rfl) hauth
  | login => exact absurd (Or.inr (Or.inl rfl)) hauth
  | tokenVerify => exact absurd (Or.inr (Or.inr rfl)) hauth
  | message => exact absurd (not_forall_not.mp (hdecodes _ rfl)) (undecoded hrequest)
  | upload => exact absurd (not_forall_not.mp (hdecodes _ rfl)) (undecoded hrequest)
  | download => exact absurd (not_forall_not.mp (hdecodes _ rfl)) (undecoded hrequest)
  | friendRequest => exact absurd (not_forall_not.mp (hdecodes _ rfl)) (undecoded hrequest)
  | friendAccept => exact absurd (not_forall_not.mp (hdecodes _ rfl)) (undecoded hrequest)
  | friendReject => exact absurd (not_forall_not.mp (hdecodes _ rfl)) (undecoded hrequest)
  | friendList => exact absurd (not_forall_not.mp (hdecodes _ rfl)) (undecoded hrequest)
  | messageHistory => exact absurd (not_forall_not.mp (hdecodes _ rfl)) (undecoded hrequest)
  | directMessage => exact absurd (not_forall_not.mp (hdecodes _ rfl)) (undecoded hrequest)
  | chatList => exact absurd (not_forall_not.mp (hdecodes _ rfl)) (undecoded hrequest)
  | logout =>
    obtain ⟨req, hreq⟩ : ∃ req, deserialize LogoutRequest body = .ok req :=
      not_forall_not.mp (hdecodes .logoutRequest rfl)
    refine ⟨?_, trivial⟩
    simp only [dispatch, handleLogout, EStateM.run_bind, decode_run hreq]
    exact misused_ok _ _
  | _ => exact ⟨misused_ok _ _, trivial⟩

/-- In every reachable state a packet that decodes is handled without a wrong access to an
expected, by its handler and by the welcome, exactly when the users it relies on exist. The
state may have been reached through wrong accesses that the program survived. -/
theorem accesses_right_iff (env : Env) (w : World) (hw : World.Reachable env w) (c : ConnId)
    (hlive : (w.sessions c).isSome) (packetType : PacketType) (body : Bytes)
    (hdecodes : ∀ T, requestStruct packetType = some T → ¬ Malformed T body) :
    ¬ Misused ((handlePacket (stopping env) c packetType body).run w) ↔
      UsersFound env w packetType body := by
  have h := sound_stopping (sound_reachable hw)
  change _ ↔ UsersFound (stopping env) w packetType body
  by_cases hauth : Authenticating packetType
  · exact authenticating_misused_iff h hlive hauth hdecodes
  rw [handlePacket_misused_iff hlive hauth]
  cases hrequest : requestOf (stopping env) packetType body with
  | some t => exact dispatch_misused_iff c h (fun _ => rfl) hrequest
  | none =>
    obtain ⟨hright, hfound⟩ := dispatch_without_request_not_misused c w hrequest hauth hdecodes
    exact iff_of_true hright hfound

/-- "a" has registered on connection 0. -/
def registered : World :=
  LabelledRuns.run (World.step Env.plain) (World.initial Env.plain fun _ => none)
    [.connect, registerEvent 0 [97]]

/-- "a" asks for its messages with this login. -/
def historyBody (peerLogin : Bytes) : Bytes := serialize (HistoryRequest.mk [97, 97] peerLogin)

theorem accesses_right_iff_history :
    ¬ Misused ((handlePacket (stopping Env.plain) 0 .messageHistory (historyBody [97])).run
      registered) := by
  have hdecodes : ∀ T, requestStruct .messageHistory = some T →
      ¬ Malformed T (historyBody [97]) := by
    intro T hT hbad
    cases hT
    exact hbad ⟨[97, 97], [97]⟩ rfl
  refine (accesses_right_iff Env.plain registered ⟨_, _, rfl⟩ 0 (by decide) .messageHistory
    (historyBody [97]) hdecodes).mpr ?_
  rintro req login hreq hlogin
  cases hreq
  cases hlogin
  decide

/-- Not every access is right: a client asks for its messages with somebody who does not
exist, and the exception ends the server. -/
theorem unknown_peer_ends_server :
    World.Reachable Env.plain registered ∧ registered.status = .running ∧
      (registered.sessions 0).isSome ∧
      (∀ T, requestStruct .messageHistory = some T → ¬ Malformed T (historyBody [122])) ∧
      Misused ((handlePacket (stopping Env.plain) 0 .messageHistory (historyBody [122])).run
        registered) ∧
      (registered.step Env.plain (.packet 0 .messageHistory (historyBody [122]))).status =
        .terminated := by
  refine ⟨⟨_, _, rfl⟩, by decide, by decide, ?_, ⟨.badExpectedAccess, _, rfl, Or.inl rfl⟩,
    by decide⟩
  intro T hT hbad
  cases hT
  exact hbad ⟨[97, 97], [122]⟩ rfl

end Messenger.ExpectedAccesses
