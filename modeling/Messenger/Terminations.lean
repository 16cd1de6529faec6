import Messenger.ExpectedAccesses
import Messenger.LongBacklogs
import Messenger.StoredFiles
import Messenger.BodySizes

/-!
All the ways a client can end the server. A packet is handled to its end exactly when its
body decodes, the users it relies on exist, the backlog of the user it logs in fits in one
statement, and an upload can be encrypted or a download read and decrypted. Nothing else
that a client does ends the server, in whatever state it is.
-/
namespace Messenger.Terminations

open KeyedTables Outcomes ClientSession UserRepository MessageRepository FriendStates
  HandlerActions HandlePacket ServerSteps MalformedBodies TokenRequests TableSteps
  Authentications ExpectedAccesses StoredFiles

def Returned {α : Type} (result : EStateM.Result Exn World α) : Prop :=
  ∃ a w, result = .ok a w

theorem returned_ok {α : Type} (a : α) (w : World) :
    Returned (.ok a w : EStateM.Result Exn World α) := ⟨a, w, rfl⟩

theorem not_returned_error {α : Type} (e : Exn) (w : World) :
    ¬ Returned (.error e w : EStateM.Result Exn World α) := by
  rintro ⟨a, w', h⟩
  cases h

theorem returned_answeredFrom {α : Type} {x : Except Exn α} {w : World} :
    Returned (answeredFrom x w) ↔ ∃ a, x = .ok a := by
  cases x with
  | ok a => exact iff_of_true (returned_ok a w) ⟨a, rfl⟩
  | error e => exact iff_of_false (not_returned_error e w) nofun

/-- Where only wrong accesses are thrown, what does not return has accessed wrongly. -/
theorem returned_iff_not_misused {α : Type} {result : EStateM.Result Exn World α}
    (h : ∀ e w, result = .error e w → Misuse e) : Returned result ↔ ¬ Misused result := by
  cases result with
  | ok a w => exact iff_of_true (returned_ok a w) (misused_ok a w)
  | error e w =>
    refine iff_of_false (not_returned_error e w) (not_not.mpr ?_)
    exact (misused_error e w).mpr (h e w rfl)

/-- An authorised upload can be encrypted, and what an authorised download asks for can be
read and decrypted. -/
def FilesFound (env : Env) (w : World) (packetType : PacketType) (body : Bytes) : Prop :=
  match packetType with
  | .upload => ∀ req login, deserialize FileUploadRequest body = .ok req →
      tokenLogin env req.token w.store = some login →
        ∃ encrypted, sealed env w.randomDraws req.fileData = .ok encrypted
  | .download => ∀ req login, deserialize FileDownloadRequest body = .ok req →
      tokenLogin env req.token w.store = some login →
        ∃ bytes decrypted, contentOf env req.fileName w.files = .ok bytes ∧
          unsealed env bytes = .ok decrypted
  | _ => True

/-- The users a packet relies on exist, or it is only that a CHAT_LIST reads an inactive member
and the program goes on. -/
def UsersNeeded (env : Env) (w : World) (packetType : PacketType) (body : Bytes) : Prop :=
  (packetType = .chatList ∧ env.inactive.isSome) ∨ UsersFound env w packetType body

theorem usersNeeded_iff {env : Env} {w : World} {packetType : PacketType} {body : Bytes}
    (h : packetType ≠ .chatList) :
    UsersNeeded env w packetType body ↔ UsersFound env w packetType body :=
  or_iff_right fun hchat => h hchat.1

structure Manageable (env : Env) (w : World) (packetType : PacketType) (body : Bytes) : Prop where
  decodes : ∀ T, requestStruct packetType = some T → ¬ Malformed T body
  users : UsersNeeded env w packetType body
  backlog : ∀ login, authenticatesAs env w packetType body = some login →
    (backlog env login w.store).length ≤ maxVariableNumber
  files : FilesFound env w packetType body

section

variable {env : Env} {w w' : World} {e : Exn}

theorem throws_valueOf {α : Type} (x : Except ErrorCode α) :
    Throws Misuse (valueOf x : ServerM α) := by
  cases x with
  | ok a => exact throws_pure a
  | error e => exact throws_throw (Or.inl rfl)

theorem throws_query {α : Type} (f : Store → α) : Throws Misuse (query f) :=
  throws_bind throws_get fun _ => throws_pure _

theorem loginsOf_throws (ids : List ℤ) : Throws Misuse (loginsOf ids) := by
  induction ids with
  | nil => exact throws_pure _
  | cons id rest ih =>
    exact throws_bind (throws_query _) fun _ => throws_bind (throws_valueOf _) fun _ =>
      throws_bind ih fun _ => throws_pure _

theorem historyEntries_throws (messages : List DirectMessage) :
    Throws Misuse (historyEntries messages) := by
  induction messages with
  | nil => exact throws_pure _
  | cons m rest ih =>
    exact throws_bind (throws_query _) fun _ => throws_bind (throws_valueOf _) fun _ =>
      throws_bind ih fun _ => throws_pure _

theorem friendListAct_throws (senderLogin : Bytes) : Throws Misuse (friendListAct senderLogin) :=
  throws_bind (throws_query _) fun _ => throws_bind (throws_valueOf _) fun _ =>
    throws_bind (throws_query _) fun _ => throws_bind (loginsOf_throws _) fun _ =>
      throws_bind (throws_query _) fun _ => throws_bind (loginsOf_throws _) fun _ =>
        throws_pure _

theorem historyAct_throws (env : Env) (peerLogin senderLogin : Bytes) :
    Throws Misuse (historyAct env peerLogin senderLogin) :=
  throws_bind (throws_query _) fun _ => throws_bind (throws_query _) fun _ =>
    throws_bind (throws_valueOf _) fun _ => throws_bind (throws_valueOf _) fun _ =>
      throws_bind (throws_query _) fun _ => throws_bind (historyEntries_throws _) fun _ =>
        throws_pure _

/-- Where the program survives the read of an inactive member, a chat list is always answered. -/
theorem chatListAct_returned_iff (login : Bytes) :
    Returned ((chatListAct env login).run w) ↔
      env.inactive.isSome ∨ (w.store.db.findLogin login).isSome := by
  rw [chatListAct_run, returned_answeredFrom, chatListAnswer]
  rcases getIdByLogin_cases login w.store with ⟨hknown, id, hid⟩ | ⟨hunknown, he⟩
  · rw [hid]
    exact iff_of_true ⟨_, rfl⟩ (Or.inr hknown)
  · rw [he]
    cases env.inactive with
    | some unread => exact iff_of_true ⟨_, rfl⟩ (Or.inl rfl)
    | none =>
      refine iff_of_false ?_ (not_or.mpr ⟨Bool.false_ne_true, hunknown⟩)
      rintro ⟨response, hresponse⟩
      cases hresponse

theorem directMessageAct_misuse (recipientLogin message senderLogin : Bytes)
    (h : (directMessageAct env recipientLogin message senderLogin).run w = .error e w') :
    Misuse e := by
  have hcases := directMessageAct_messaging env recipientLogin message senderLogin w
  rw [h] at hcases
  cases hcases with
  | thrown e hplan =>
    unfold directMessagePlan at hplan
    split at hplan
    · cases hplan
    · split at hplan
      · cases hplan
        exact Or.inl rfl
      · split at hplan <;> cases hplan

/-- The repository has the users it is called for. -/
theorem friendAct_returns (h : Sound env w.store) (packetType : PacketType)
    {notice : PacketType} {call : ℤ → ℤ → FriendCall} (hcall : friendCall packetType = some call)
    (targetLogin senderLogin : Bytes) :
    Returned ((friendAct env (fun x y => (call x y).program) notice targetLogin
      senderLogin).run w) := by
  cases hids : friendIds senderLogin targetLogin w.store with
  | error e =>
    rw [(friendAct_refused env _ notice hids).2]
    exact returned_ok _ _
  | ok ids =>
    obtain ⟨e, st', hprogram, -⟩ :=
      (call ids.1 ids.2).carriesOut h.normalised (usersExist_of_friendIds hcall hids)
    rw [friendAct_run env _ notice hids]
    simp only [hprogram]
    split
    · exact returned_ok _ _
    · exact returned_ok _ _

theorem messageAct_returns (message login : Bytes) :
    Returned ((messageAct message login).run w) := by
  simp only [messageAct, SessionManager.broadcast, EStateM.run_bind, EStateM.run_get,
    BodySizes.broadcastLoop_run]
  exact returned_ok _ _

theorem uploadAct_returned_iff (fileName fileData : Bytes) :
    Returned ((uploadAct env fileName fileData).run w) ↔
      ∃ encrypted, sealed env w.randomDraws fileData = .ok encrypted := by
  rw [uploadAct_run]
  cases sealed env w.randomDraws fileData with
  | ok bytes => exact iff_of_true (returned_ok _ _) ⟨bytes, rfl⟩
  | error e => exact iff_of_false (not_returned_error _ _) nofun

theorem downloadAct_returned_iff (fileName : Bytes) :
    Returned ((downloadAct env fileName).run w) ↔
      ∃ bytes decrypted, contentOf env fileName w.files = .ok bytes ∧
        unsealed env bytes = .ok decrypted := by
  rw [downloadAct_run, returned_answeredFrom, downloadAnswer]
  cases contentOf env fileName w.files with
  | error e =>
    refine iff_of_false ?_ ?_
    · rintro ⟨r, hr⟩
      cases hr
    · rintro ⟨bytes, decrypted, hbytes, -⟩
      cases hbytes
  | ok bytes =>
    rw [ok_bind]
    cases hunsealed : unsealed env bytes with
    | error e =>
      refine iff_of_false ?_ ?_
      · rintro ⟨r, hr⟩
        cases hr
      · rintro ⟨bytes', decrypted, hbytes, hdecrypted⟩
        cases hbytes
        cases hunsealed.symm.trans hdecrypted
    | ok decrypted => exact iff_of_true ⟨_, rfl⟩ ⟨bytes, decrypted, rfl, hunsealed⟩

end

section

variable {env : Env} {self : ConnId} {packetType : PacketType} {body : Bytes} {w : World}
  {t : TokenRequest}

theorem returned_answer {m : ServerM Response} {w : World} :
    Returned ((answer m).run w) ↔ Returned (m.run w) := by
  rw [answer, EStateM.run_bind]
  cases hm : m.run w with
  | ok r w₁ => exact iff_of_true (returned_ok _ _) (returned_ok _ _)
  | error e w₁ => exact iff_of_false (not_returned_error _ _) (not_returned_error _ _)

theorem request_returned_iff (h : requestOf env packetType body = some t) :
    Returned ((dispatch env self packetType body).run w) ↔
      ∀ login, tokenLogin env t.token w.store = some login →
        Returned ((t.act login).run { w with store := ticked w.store }) := by
  rw [dispatch_request self h w, returned_answer]
  cases hlogin : tokenLogin env t.token w.store with
  | none =>
    obtain ⟨e, st', -, hrun⟩ := withAccount_none t.refuse t.act hlogin
    rw [hrun]
    exact iff_of_true (returned_ok _ _) nofun
  | some login =>
    rw [withAccount_some t.refuse t.act hlogin]
    constructor
    · rintro hreturned login' hsame
      cases hsame
      exact hreturned
    · exact fun hall => hall login rfl

/-- Acts that always return. -/
theorem request_returns (h : requestOf env packetType body = some t)
    (hact : ∀ login, Returned ((t.act login).run { w with store := ticked w.store })) :
    Returned ((dispatch env self packetType body).run w) :=
  (request_returned_iff h).mpr fun login _ => hact login

/-- Acts that throw for wrong accesses only. -/
theorem request_returned_iff_not_misused (h : requestOf env packetType body = some t)
    (hact : ∀ login e w', (t.act login).run { w with store := ticked w.store } = .error e w' →
      Misuse e) :
    Returned ((dispatch env self packetType body).run w) ↔
      ¬ Misused ((dispatch env self packetType body).run w) := by
  refine returned_iff_not_misused fun e w' hrun => ?_
  rw [dispatch_request self h w] at hrun
  cases hlogin : tokenLogin env t.token w.store with
  | none =>
    obtain ⟨e', st', -, hrefused⟩ := withAccount_none t.refuse t.act hlogin
    rw [answer, EStateM.run_bind, hrefused] at hrun
    cases hrun
  | some login =>
    rw [answer, EStateM.run_bind, withAccount_some t.refuse t.act hlogin] at hrun
    cases hact' : (t.act login).run { w with store := ticked w.store } with
    | ok r w₁ =>
      rw [hact'] at hrun
      cases hrun
    | error e' w₁ =>
      rw [hact'] at hrun
      cases hrun
      exact hact login e _ hact'

theorem dispatch_returned_iff (self : ConnId) (h : Sound env w.store)
    (hrequest : requestOf env packetType body = some t) :
    Returned ((dispatch env self packetType body).run w) ↔
      UsersNeeded env w packetType body ∧ FilesFound env w packetType body := by
  have hticked : Sound env (World.store { w with store := ticked w.store }) := Sound.ticked h
  have hneeded : packetType ≠ .chatList →
      (UsersNeeded env w packetType body ↔ ¬ Misused ((dispatch env self packetType body).run w)) :=
    fun hother => (usersNeeded_iff hother).trans
      (dispatch_misused_iff self h (fun hchat => absurd hchat hother) hrequest).symm
  cases packetType with
  | message =>
    obtain ⟨req, -, rfl⟩ := toOption_map_some hrequest
    exact iff_of_true (request_returns hrequest fun login => messageAct_returns _ _)
      ⟨Or.inr trivial, trivial⟩
  | upload =>
    obtain ⟨req, hreq, rfl⟩ := toOption_map_some hrequest
    rw [request_returned_iff hrequest]
    refine Iff.trans ?_ (and_iff_right (Or.inr trivial)).symm
    refine Iff.trans (forall₂_congr fun login _ => uploadAct_returned_iff _ _) ?_
    exact forall_decoded_iff hreq (f := fun req => tokenLogin env req.token w.store)
      (P := fun req _ => ∃ encrypted, sealed env w.randomDraws req.fileData = .ok encrypted)
  | download =>
    obtain ⟨req, hreq, rfl⟩ := toOption_map_some hrequest
    rw [request_returned_iff hrequest]
    refine Iff.trans ?_ (and_iff_right (Or.inr trivial)).symm
    refine Iff.trans (forall₂_congr fun login _ => downloadAct_returned_iff _) ?_
    exact forall_decoded_iff hreq (f := fun req => tokenLogin env req.token w.store)
      (P := fun req _ => ∃ bytes decrypted, contentOf env req.fileName w.files = .ok bytes ∧
        unsealed env bytes = .ok decrypted)
  | friendRequest =>
    obtain ⟨req, -, rfl⟩ := toOption_map_some hrequest
    exact iff_of_true (request_returns hrequest fun login =>
      friendAct_returns hticked .friendRequest rfl _ _) ⟨Or.inr trivial, trivial⟩
  | friendAccept =>
    obtain ⟨req, -, rfl⟩ := toOption_map_some hrequest
    exact iff_of_true (request_returns hrequest fun login =>
      friendAct_returns hticked .friendAccept rfl _ _) ⟨Or.inr trivial, trivial⟩
  | friendReject =>
    obtain ⟨req, -, rfl⟩ := toOption_map_some hrequest
    exact iff_of_true (request_returns hrequest fun login =>
      friendAct_returns hticked .friendReject rfl _ _) ⟨Or.inr trivial, trivial⟩
  | friendList =>
    obtain ⟨req, -, rfl⟩ := toOption_map_some hrequest
    rw [request_returned_iff_not_misused hrequest fun login e w' =>
      friendListAct_throws login _ e w', ← hneeded (by decide)]
    exact (iff_of_eq (and_true _)).symm
  | messageHistory =>
    obtain ⟨req, -, rfl⟩ := toOption_map_some hrequest
    rw [request_returned_iff_not_misused hrequest fun login e w' =>
      historyAct_throws env _ login _ e w', ← hneeded (by decide)]
    exact (iff_of_eq (and_true _)).symm
  | directMessage =>
    obtain ⟨req, -, rfl⟩ := toOption_map_some hrequest
    rw [request_returned_iff_not_misused hrequest fun login e w' =>
      directMessageAct_misuse _ _ login, ← hneeded (by decide)]
    exact (iff_of_eq (and_true _)).symm
  | chatList =>
    obtain ⟨req, hreq, rfl⟩ := toOption_map_some hrequest
    rw [request_returned_iff hrequest]
    refine Iff.trans (forall₂_congr fun login _ => chatListAct_returned_iff login) ?_
    refine Iff.trans ?_ (and_iff_left trivial).symm
    cases hinactive : env.inactive with
    | some unread =>
      exact iff_of_true (fun _ _ => Or.inl rfl) (Or.inl ⟨rfl, by rw [hinactive]; rfl⟩)
    | none =>
      refine Iff.trans (forall₂_congr fun login _ => or_iff_right Bool.false_ne_true) ?_
      refine Iff.trans (forall_decoded_iff hreq (f := fun req => tokenLogin env req.token w.store)
        (P := fun _ login => (w.store.db.findLogin login).isSome)) ?_
      refine (or_iff_right fun hsurvives => ?_).symm
      rw [hinactive] at hsurvives
      exact Bool.false_ne_true hsurvives.2
  | _ => cases hrequest

end

section

variable {env : Env} {self : ConnId} {packetType : PacketType} {body : Bytes} {w : World}

theorem not_authenticatesAs_of_not_authenticating (env : Env) (w : World) (body : Bytes)
    {packetType : PacketType} (h : ¬ Authenticating packetType)
    (login : Bytes) : authenticatesAs env w packetType body ≠ some login :=
  fun hlogin => h (authenticating_of_authenticatesAs hlogin)

/-- A handler that authenticates nobody returns when its switch does. -/
theorem handlePacket_returned_iff (hlive : (w.sessions self).isSome)
    (hplain : ¬ Authenticating packetType) :
    Returned ((handlePacket env self packetType body).run w) ↔
      Returned ((dispatch env self packetType body).run w) := by
  have hcases := handlePacket_handling env packetType body hlive
  generalize (handlePacket env self packetType body).run w = result at hcases
  cases hcases with
  | thrown e w₁ hrun =>
    rw [hrun]
    exact iff_of_false (not_returned_error _ _) (not_returned_error _ _)
  | answered r w₁ hrun =>
    rw [hrun]
    exact iff_of_true (returned_ok _ _) (returned_ok _ _)
  | undelivered r login w₁ e handed hrun _ =>
    exact absurd (authenticating_of_authenticatesAs (unseen_of_dispatch hrun).1) hplain
  | welcomed r login w₁ hrun _ _ =>
    exact absurd (authenticating_of_authenticatesAs (unseen_of_dispatch hrun).1) hplain

/-- An authentication returns when it is refused, or when its welcome does. -/
theorem authentication_returned_iff (h : Sound env w.store) (hlive : (w.sessions self).isSome)
    (hauth : Authenticating packetType)
    (hdecodes : ∀ T, requestStruct packetType = some T → ¬ Malformed T body) :
    Returned ((handlePacket env self packetType body).run w) ↔
      UsersFound env w packetType body ∧
        ∀ login, authenticatesAs env w packetType body = some login →
          (backlog env login w.store).length ≤ maxVariableNumber := by
  rw [← authenticating_misused_iff h hlive hauth hdecodes]
  cases hlogin : authenticatesAs env w packetType body with
  | none =>
    have hcases := handlePacket_handling env packetType body hlive
    have hcase := dispatch_authentication h.drawn self hauth hdecodes
    generalize hrun : (dispatch env self packetType body).run w = result at hcase
    cases hcase with
    | refused r st herror hnone hstore =>
      rw [handlePacket_answered hrun]
      exact iff_of_true (returned_ok _ _) ⟨misused_ok _ _, nofun⟩
    | accepted r login st token herror hlogin' hquiet hknown => cases hlogin.symm.trans hlogin'
  | some login =>
    obtain ⟨r, st, token, hrun, -, hquiet, -⟩ := accepted_of_authenticatesAs h self hlogin
    have hwelcome := accepted_welcoming h hlive hquiet hrun
    have hbacklog : backlog env login (withToken w self st token).store =
        backlog env login w.store :=
      MessageRows.backlog_of_quiet hquiet (fun r hr => (h.corresponding r hr).2) login
    generalize (handlePacket env self packetType body).run w = result at hwelcome
    cases hwelcome with
    | unknown w' hunknown =>
      refine iff_of_false (not_returned_error _ _) ?_
      exact fun hright => hright.1 ((misused_error _ _).mpr (Or.inl rfl))
    | overlong w' _ hlong =>
      refine iff_of_false (not_returned_error _ _) ?_
      exact fun hright => hlong.not_ge (hbacklog ▸ hright.2 login rfl)
    | welcomed hsome hshort =>
      refine iff_of_true (returned_ok _ _) ⟨misused_ok _ _, ?_⟩
      rintro login' hsame
      cases hsame
      rw [← hbacklog]
      exact hshort

/-- What is left decodes as a LOGOUT, or is no request. -/
theorem unrequested_returns (self : ConnId) (w : World)
    (hrequest : requestOf env packetType body = none)
    (hauth : ¬ Authenticating packetType)
    (hdecodes : ∀ T, requestStruct packetType = some T → ¬ Malformed T body) :
    Returned ((dispatch env self packetType body).run w) ∧ FilesFound env w packetType body := by
  cases packetType with
  | register => exact absurd (Or.inl rfl) hauth
  | login => exact absurd (Or.inr (Or.inl rfl)) hauth
  | tokenVerify => exact absurd (Or.inr (Or.inr rfl)) hauth
  | logout =>
    obtain ⟨req, hreq⟩ : ∃ req, deserialize LogoutRequest body = .ok req :=
      not_forall_not.mp (hdecodes .logoutRequest rfl)
    simp only [dispatch, handleLogout, EStateM.run_bind, decode_run hreq]
    exact ⟨returned_ok _ _, trivial⟩
  | result | friendNewRequest | friendRequestAccepted | friendRequestRejected | unnamed =>
    exact ⟨returned_ok _ _, trivial⟩
  | _ =>
    obtain ⟨e, he⟩ := toOption_map_none hrequest
    obtain ⟨req, hreq⟩ := not_forall_not.mp (hdecodes _ rfl)
    cases he.symm.trans hreq

theorem returned_iff (packetType : PacketType) (body : Bytes) (h : Sound env w.store)
    (hlive : (w.sessions self).isSome) :
    Returned ((handlePacket env self packetType body).run w) ↔
      Manageable env w packetType body := by
  by_cases hdecodes : ∀ T, requestStruct packetType = some T → ¬ Malformed T body
  · by_cases hauth : Authenticating packetType
    · rw [authentication_returned_iff h hlive hauth hdecodes]
      have hfiles : FilesFound env w packetType body := by
        rcases hauth with rfl | rfl | rfl <;> trivial
      have hother : packetType ≠ .chatList := by
        rcases hauth with rfl | rfl | rfl <;> decide
      exact ⟨fun hboth => ⟨hdecodes, Or.inr hboth.1, hboth.2, hfiles⟩,
        fun hneeds => ⟨(usersNeeded_iff hother).mp hneeds.users, hneeds.backlog⟩⟩
    · have hnobody := not_authenticatesAs_of_not_authenticating env w body hauth
      rw [handlePacket_returned_iff hlive hauth]
      cases hrequest : requestOf env packetType body with
      | some t =>
        rw [dispatch_returned_iff self h hrequest]
        exact ⟨fun hboth => ⟨hdecodes, hboth.1, fun login hlogin => absurd hlogin (hnobody login),
          hboth.2⟩, fun hneeds => ⟨hneeds.users, hneeds.files⟩⟩
      | none =>
        obtain ⟨hreturns, hfiles⟩ :=
          unrequested_returns self w hrequest hauth hdecodes
        obtain ⟨-, husers⟩ :=
          dispatch_without_request_not_misused self w hrequest hauth hdecodes
        exact iff_of_true hreturns
          ⟨hdecodes, Or.inr husers, fun login hlogin => absurd hlogin (hnobody login), hfiles⟩
  · refine iff_of_false ?_ fun hneeds => hdecodes hneeds.decodes
    push Not at hdecodes
    obtain ⟨T, hT, hbad⟩ := hdecodes
    obtain ⟨e, he⟩ := malformed_iff.mp hbad
    rw [handlePacket_thrown (dispatch_malformed hT he w)]
    exact not_returned_error _ _

end

/-- A packet that reaches a session has what its handling needs. -/
def Manages (env : Env) (w : World) : Event → Prop
  | .packet c packetType body =>
    w.status = .running → (w.sessions c).isSome → Manageable env w packetType body
  | _ => True

theorem status_of_returned {env : Env} {c : ConnId} {packetType : PacketType} {body : Bytes}
    {w w' : World} (hlive : (w.sessions c).isSome) (hup : w.status ≠ .terminated)
    (hrun : (handlePacket env c packetType body).run w = .ok () w') :
    w'.status ≠ .terminated := by
  have hswitch : (final ((dispatch env c packetType body).run w)).status ≠ .terminated := by
    refine dispatch_preserves (P := fun w => w.status ≠ .terminated) env c packetType body
      (fun s t hst hs => ?_) (fun store _ => hup) hup
    cases hst with
    | account h => cases h <;> exact hs
    | write files status h =>
      rcases h with rfl | rfl
      · exact hs
      · exact nofun
    | _ => exact hs
  have hcases := handlePacket_handling env packetType body hlive
  rw [hrun] at hcases
  cases hcases with
  | answered r w₁ hend =>
    rw [hend] at hswitch
    cases r <;> exact hswitch
  | welcomed r login w₁ hend _ _ =>
    rw [hend] at hswitch
    cases r <;> exact hswitch

theorem step_up_iff {env : Env} {w : World} (h : Sound env w.store)
    (hup : w.status ≠ .terminated) (e : Event) :
    (w.step env e).status ≠ .terminated ↔ Manages env w e := by
  cases e with
  | restart =>
    refine iff_of_true ?_ trivial
    simp only [World.step]
    split
    · exact hup
    · exact fun hdown => by cases hdown
  | connect =>
    refine iff_of_true ?_ trivial
    simp only [World.step]
    split <;> exact hup
  | disconnect c =>
    refine iff_of_true ?_ trivial
    simp only [World.step]
    split <;> exact hup
  | cleanTokens =>
    refine iff_of_true ?_ trivial
    simp only [World.step]
    split <;> exact hup
  | packet c packetType body =>
    by_cases hready : w.status = .running ∧ (w.sessions c).isSome
    · have hneeds := returned_iff packetType body h hready.2
      simp only [World.step, if_pos hready, World.receive]
      cases hrun : (handlePacket env c packetType body).run w with
      | ok u w' =>
        rw [hrun] at hneeds
        exact iff_of_true (status_of_returned hready.2 hup hrun)
          fun _ _ => hneeds.mp (returned_ok _ _)
      | error e w' =>
        rw [hrun] at hneeds
        refine iff_of_false (fun hne => hne rfl) fun hmanages => ?_
        exact not_returned_error e w' (hneeds.mpr (hmanages hready.1 hready.2))
    · simp only [World.step, if_neg hready]
      exact iff_of_true hup fun hrunning hlive => absurd ⟨hrunning, hlive⟩ hready

theorem along_up_iff {env : Env} {w : World} (h : Sound env w.store)
    (hup : w.status ≠ .terminated) (events : List Event) :
    LabelledRuns.Along (World.step env) (fun w e => (w.step env e).status ≠ .terminated) w events ↔
      LabelledRuns.Along (World.step env) (Manages env) w events := by
  induction events generalizing w with
  | nil => exact Iff.rfl
  | cons e rest ih =>
    have hstep := step_up_iff h hup e
    constructor
    · rintro ⟨hfirst, hrest⟩
      exact ⟨hstep.mp hfirst, (ih (sound_step env e h) hfirst).mp hrest⟩
    · rintro ⟨hfirst, hrest⟩
      have hnext := hstep.mpr hfirst
      exact ⟨hnext, (ih (sound_step env e h) hnext).mpr hrest⟩

/-- From its first start on, the server goes through a run without an exception leaving
io_context.run() exactly when every packet of the run has what its handling needs in the
state in which it comes. -/
theorem stays_up_iff (env : Env) (files : ℕ → Option Bytes) (events : List Event) :
    LabelledRuns.Along (World.step env) (fun w e => (w.step env e).status ≠ .terminated)
        (World.initial env files) events ↔
      LabelledRuns.Along (World.step env) (Manages env) (World.initial env files) events :=
  along_up_iff (sound_initial env files) nofun events

end Messenger.Terminations
