import Messenger.Authentications

/-!
Packets that are refused, and those that only read. Each refusal comes before anything is
written, pushed or set, so the state afterwards is the state before, but for the clock and
for an expired token that was presented; and the RESULT is all that is sent.
-/
namespace Messenger.Refusals

open KeyedTables Outcomes ClientSession UserRepository MessageRepository FriendStates
  HandlerActions HandlePacket ServerSteps MalformedBodies TokenIdentity TokenRequests
  TableSteps Authentications

/-- The token that a packet presents to be looked up. -/
def presentedToken (env : Env) (packetType : PacketType) (body : Bytes) : Option Bytes :=
  match packetType with
  | .tokenVerify => (deserialize TokenVerifyRequest body).toOption.map fun req => req.oldToken
  | _ => (requestOf env packetType body).map TokenRequest.token

/-- The requests that only read. -/
def Reading (packetType : PacketType) : Prop :=
  packetType = .friendList ∨ packetType = .messageHistory ∨ packetType = .chatList

/-- The sessions table stays, or the presented token goes because it has expired. -/
def TokensKept (env : Env) (w : World) (packetType : PacketType) (body : Bytes)
    (after : List SessionRow) : Prop :=
  after = w.store.db.sessions ∨ ∃ token check, presentedToken env packetType body = some token ∧
    w.store.db.findToken token = some check ∧
    env.clock w.store.clockReads - check.createdAt > tokenTtl ∧
    after = w.store.db.sessions.filter (fun s => !(s.token == token))

/-- The tables stay, but for the presented token. -/
structure StoreKept (env : Env) (w : World) (packetType : PacketType) (body : Bytes)
    (st : Store) : Prop where
  users : st.db.users = w.store.db.users
  friendships : st.db.friendships = w.store.db.friendships
  directMessages : st.db.directMessages = w.store.db.directMessages
  tokens : TokensKept env w packetType body st.db.sessions

/-- Nothing else has happened but the answer. -/
structure Untouched (env : Env) (w w' : World) (c : ConnId) (packetType : PacketType)
    (body : Bytes) (r : Response) : Prop where
  store : StoreKept env w packetType body w'.store
  files : w'.files = w.files
  onlineUsers : w'.onlineUsers = w.onlineUsers
  logins : w'.sessions = w.sessions
  sent : w'.sent = w.sent ++
    [⟨c, .result, r.serialize, .result packetType r, w.currentLogin c⟩]

section

variable {env : Env} {w w₁ : World} {r : Response}

theorem messageAct_returns (message login : Bytes) :
    Returns (fun r => r.error.ok = true) (messageAct message login) :=
  returns_bind fun _ => returns_pure rfl

theorem uploadAct_returns (fileName fileData : Bytes) :
    Returns (fun r => r.error.ok = true) (uploadAct env fileName fileData) :=
  returns_bind fun _ => returns_bind fun _ => returns_pure rfl

theorem downloadAct_returns (fileName : Bytes) :
    Returns (fun r => r.error.ok = true) (downloadAct env fileName) :=
  returns_bind fun _ => returns_bind fun _ => returns_pure rfl

theorem answeredFrom_world {x : Except Exn Response} (h : answeredFrom x w = .ok r w₁) :
    w₁ = w := by
  cases x with
  | ok a =>
    cases h
    rfl
  | error e => cases h

theorem friendAct_refusal (packetType : PacketType) {notice : PacketType}
    {call : ℤ → ℤ → FriendCall} (hcall : friendCall packetType = some call)
    (hn : Normalised w.store.db.friendships.rows) {targetLogin senderLogin : Bytes}
    (hrun : (friendAct env (fun x y => (call x y).program) notice targetLogin senderLogin).run w =
      .ok r w₁) (hrefused : r.error.ok = false) : w₁ = w := by
  cases hids : friendIds senderLogin targetLogin w.store with
  | error e =>
    cases hrun.symm.trans (friendAct_refused env _ notice hids).2
    rfl
  | ok ids =>
    obtain ⟨x, y⟩ := ids
    obtain ⟨e, st', hprogram, hcarries⟩ :=
      (call x y).carriesOut hn (usersExist_of_friendIds hcall hids)
    have hact := friendAct_run env (fun x y => (call x y).program) notice hids
    simp only [hprogram] at hact
    cases he : e.ok with
    | true =>
      rw [if_pos he] at hact
      cases hrun.symm.trans hact
      cases hrefused
    | false =>
      have hne : e ≠ Error.Base.ok := by
        rintro rfl
        simp at he
      rw [if_neg (by simp [he]), hcarries.refused hne] at hact
      cases hrun.symm.trans hact
      rfl

theorem directMessageAct_refusal {recipientLogin message senderLogin : Bytes}
    (hrun : (directMessageAct env recipientLogin message senderLogin).run w = .ok r w₁)
    (hrefused : r.error.ok = false) : w₁ = w := by
  have hcases := directMessageAct_messaging env recipientLogin message senderLogin w
  rw [hrun] at hcases
  cases hcases with
  | refused e _ _ => rfl
  | accepted sender recipient _ => cases hrefused

/-- An act that refuses, or only reads, leaves the world as it found it. -/
theorem act_untouched {packetType : PacketType} {body : Bytes} {t : TokenRequest}
    (hrequest : requestOf env packetType body = some t)
    (hn : Normalised w.store.db.friendships.rows) {login : Bytes}
    (hrun : (t.act login).run w = .ok r w₁)
    (hrefused : r.error.ok = false ∨ Reading packetType) : w₁ = w := by
  have plain : (¬ Reading packetType) → r.error.ok = false := fun h => hrefused.resolve_right h
  cases packetType with
  | message =>
    obtain ⟨req, -, rfl⟩ := toOption_map_some hrequest
    cases (messageAct_returns _ _ _ _ _ hrun).symm.trans (plain (by simp [Reading]))
  | upload =>
    obtain ⟨req, -, rfl⟩ := toOption_map_some hrequest
    cases (uploadAct_returns _ _ _ _ _ hrun).symm.trans (plain (by simp [Reading]))
  | download =>
    obtain ⟨req, -, rfl⟩ := toOption_map_some hrequest
    cases (downloadAct_returns _ _ _ _ hrun).symm.trans (plain (by simp [Reading]))
  | friendRequest =>
    obtain ⟨req, -, rfl⟩ := toOption_map_some hrequest
    exact friendAct_refusal .friendRequest rfl hn hrun (plain (by simp [Reading]))
  | friendAccept =>
    obtain ⟨req, -, rfl⟩ := toOption_map_some hrequest
    exact friendAct_refusal .friendAccept rfl hn hrun (plain (by simp [Reading]))
  | friendReject =>
    obtain ⟨req, -, rfl⟩ := toOption_map_some hrequest
    exact friendAct_refusal .friendReject rfl hn hrun (plain (by simp [Reading]))
  | friendList =>
    obtain ⟨req, -, rfl⟩ := toOption_map_some hrequest
    exact answeredFrom_world ((friendListAct_run login w).symm.trans hrun)
  | messageHistory =>
    obtain ⟨req, -, rfl⟩ := toOption_map_some hrequest
    exact answeredFrom_world ((historyAct_run env req.peerLogin login w).symm.trans hrun)
  | directMessage =>
    obtain ⟨req, -, rfl⟩ := toOption_map_some hrequest
    exact directMessageAct_refusal hrun (plain (by simp [Reading]))
  | chatList =>
    obtain ⟨req, -, rfl⟩ := toOption_map_some hrequest
    exact answeredFrom_world ((chatListAct_run env login w).symm.trans hrun)
  | _ => cases hrequest

end

theorem StoreKept.refl (env : Env) (w : World) (packetType : PacketType) (body : Bytes) :
    StoreKept env w packetType body w.store :=
  ⟨rfl, rfl, rfl, Or.inl rfl⟩

theorem storeKept_of_lookedUp {env : Env} {w : World} {packetType : PacketType} {body : Bytes}
    {token : Bytes} (hpresented : presentedToken env packetType body = some token)
    {r : Except ErrorCode Bytes} {st : Store} (h : LookedUp env token w.store r st) :
    StoreKept env w packetType body st := by
  cases h with
  | unknown _ => exact .refl env w packetType body
  | expired check hcheck hold =>
    exact ⟨rfl, rfl, rfl, Or.inr ⟨token, check, hpresented, hcheck, hold, rfl⟩⟩
  | orphan _ _ _ _ => exact ⟨rfl, rfl, rfl, Or.inl rfl⟩
  | found _ _ _ _ _ => exact ⟨rfl, rfl, rfl, Or.inl rfl⟩

section

variable {env : Env} {self : ConnId} {packetType : PacketType} {body : Bytes} {w w₁ : World}
  {r : Response} {l : Option Bytes}

theorem request_refused {t : TokenRequest} (hn : Normalised w.store.db.friendships.rows)
    (hrequest : requestOf env packetType body = some t)
    (hrun : (dispatch env self packetType body).run w = .ok (some r, l) w₁)
    (hrefused : r.error.ok = false ∨ Reading packetType) :
    ∃ st, StoreKept env w packetType body st ∧ w₁ = { w with store := st } := by
  have hpresented : presentedToken env packetType body = some t.token := by
    unfold presentedToken
    split
    · cases hrequest
    · rw [hrequest]
      rfl
  rw [dispatch_request self hrequest w] at hrun
  cases hlogin : tokenLogin env t.token w.store with
  | none =>
    obtain ⟨e, st, hlook, hact⟩ := withAccount_none t.refuse t.act hlogin
    cases hrun.symm.trans (answer_run hact)
    exact ⟨st, storeKept_of_lookedUp hpresented hlook, rfl⟩
  | some login =>
    have hact := withAccount_some t.refuse t.act hlogin
    rw [answer, EStateM.run_bind, hact] at hrun
    cases hend : (t.act login).run { w with store := ticked w.store } with
    | error e w₂ =>
      rw [hend] at hrun
      cases hrun
    | ok r' w₂ =>
      rw [hend] at hrun
      cases hrun
      exact ⟨ticked w.store, ⟨rfl, rfl, rfl, Or.inl rfl⟩,
        act_untouched (w := { w with store := ticked w.store }) hrequest hn hend hrefused⟩

/-- What the switch leaves when it refuses or only reads. -/
theorem dispatch_refused (h : Sound env w.store)
    (hrun : (dispatch env self packetType body).run w = .ok (some r, l) w₁)
    (hrefused : r.error.ok = false ∨ Reading packetType) :
    l = none ∧ ∃ st, StoreKept env w packetType body st ∧ w₁ = { w with store := st } := by
  by_cases hauth : Authenticating packetType
  · have hdecodes : ∀ T, requestStruct packetType = some T → ¬ Malformed T body := by
      intro T hT hbad
      obtain ⟨e, he⟩ := malformed_iff.mp hbad
      cases hrun.symm.trans (dispatch_malformed hT he w)
    have hcase := dispatch_authentication h.drawn self hauth hdecodes
    rw [hrun] at hcase
    cases hcase with
    | refused _ st herror hnone hstore =>
      refine ⟨rfl, st, ?_, rfl⟩
      rcases hstore with rfl | ⟨req, e, rfl, hreq, hlook⟩
      · exact .refl env w packetType body
      · refine storeKept_of_lookedUp ?_ hlook
        simp only [presentedToken, hreq]
        rfl
    | accepted _ login st token herror _ _ _ =>
      rcases hrefused with hrefused | hreading
      · rw [herror] at hrefused
        cases hrefused
      · rcases hreading with rfl | rfl | rfl <;> simp [Authenticating] at hauth
  have hl : l = none := by
    have hsame := dispatch_login hrun
    cases hlogin : authenticatesAs env w packetType body with
    | none => exact hsame.trans hlogin
    | some login => exact absurd (authenticating_of_authenticatesAs hlogin) hauth
  refine ⟨hl, ?_⟩
  by_cases hlogout : packetType = .logout
  · subst hlogout
    rcases dispatch_logout env self body w with ⟨e, hrun'⟩ | ⟨st, -, hrun'⟩
    · cases hrun.symm.trans hrun'
    · cases hrun.symm.trans hrun'
  cases hrequest : requestOf env packetType body with
  | some t => exact request_refused h.normalised hrequest hrun hrefused
  | none =>
    have hsame := dispatch_without_request self hrequest hauth hlogout w
    rw [hrun] at hsame
    exact ⟨w.store, .refl env w packetType body, hsame⟩

/-- A packet that is answered is one that awaits an answer. -/
theorem awaits_of_answered (h : AnsweredWith env w self packetType body r) :
    awaitsResult packetType = true := by
  obtain ⟨w', before, hrun, hsent⟩ := h
  have unanswered : awaitsResult packetType = false → w'.sent = w.sent := by
    intro hno
    cases packetType with
    | logout =>
      rcases dispatch_logout env self body w with ⟨e, hdispatch⟩ | ⟨st, -, hdispatch⟩
      · cases hrun.symm.trans (handlePacket_thrown hdispatch)
      · cases hrun.symm.trans (handlePacket_answered hdispatch)
        rfl
    | result | friendNewRequest | friendRequestAccepted | friendRequestRejected | unnamed =>
      cases hrun
      rfl
    | _ => cases hno
  cases hawaits : awaitsResult packetType with
  | true => rfl
  | false =>
    have hlength := congrArg List.length hsent
    rw [unanswered hawaits] at hlength
    simp at hlength

end

/-- In every reachable state, a packet that is answered with an error, or that only reads,
leaves everything as it was: but for the clock, and for the presented token if it has
expired, the tables, files, logins and the map are the same, and nothing but the RESULT
is sent. -/
theorem refused_untouched (env : Env) (w : World) (hw : World.Reachable env w) (c : ConnId)
    (hlive : (w.sessions c).isSome) (packetType : PacketType) (body : Bytes) (r : Response)
    (hanswered : AnsweredWith env w c packetType body r)
    (hrefused : r.error ≠ Error.Base.ok ∨ Reading packetType) :
    ∃ w', (handlePacket env c packetType body).run w = .ok () w' ∧
      Untouched env w w' c packetType body r := by
  have hawaits := awaits_of_answered hanswered
  obtain ⟨w', before, hrun, hsent⟩ := hanswered
  have hrefused' : r.error.ok = false ∨ Reading packetType :=
    hrefused.imp_left fun hne => by
      cases hok : r.error.ok with
      | false => rfl
      | true => exact absurd (eq_ok_of_ok hok) hne
  have hcases := handlePacket_handling env packetType body hlive
  rw [hrun] at hcases
  refine ⟨w', hrun, ?_⟩
  cases hcases with
  | answered r' w₁ hdispatch =>
    obtain rfl := response_of_sent hdispatch hawaits hsent
    obtain ⟨-, st, hkept, rfl⟩ := dispatch_refused (sound_reachable hw) hdispatch hrefused'
    exact ⟨hkept, rfl, rfl, rfl, rfl⟩
  | welcomed r' login w₁ hdispatch _ _ =>
    obtain rfl := response_of_sent hdispatch hawaits hsent
    cases (dispatch_refused (sound_reachable hw) hdispatch hrefused').1

/-- "a" has registered; a LOGIN with another password is refused. -/
theorem refused_untouched_wrongPassword :
    let w := LabelledRuns.run (World.step Env.plain) (World.initial Env.plain fun _ => none)
      [.connect, registerEvent 0 [97]]
    ∃ w', (handlePacket Env.plain 0 .login (serialize (AuthRequest.mk [97] [113]))).run w =
        .ok () w' ∧
      Untouched Env.plain w w' 0 .login (serialize (AuthRequest.mk [97] [113]))
        (.auth ⟨[], Error.Auth.incorrectCredentials⟩) :=
  refused_untouched Env.plain _ ⟨_, _, rfl⟩ 0 (by decide) .login _ _ ⟨_, [], rfl, rfl⟩
    (Or.inl (by decide))

end Messenger.Refusals
