import Messenger.TableSteps

/-!
What a user is told depends on the user's own rows. Two states look the same to a user
when accounts and sessions agree and so do the friendships and messages that involve the
user; every query made for the user selects among these rows, so the seven requests about
friends and messages get the same RESULT in both.
-/
namespace Messenger.Confidentiality

open KeyedTables Outcomes ClientSession UserRepository MessageRepository FriendRepository
  FriendStates HandlerActions HandlePacket ServerSteps TokenIdentity MessageRows TokenRequests
  TableSteps

section

variable {ρ : Type} {rows₁ rows₂ : List ρ} {own p : ρ → Bool}

/-- A query that selects own rows only is answered from them. -/
theorem filter_own (hsame : rows₁.filter own = rows₂.filter own)
    (hown : ∀ r, p r = true → own r = true) : rows₁.filter p = rows₂.filter p := by
  have hnarrow : ∀ rows : List ρ, rows.filter p = (rows.filter own).filter p := by
    intro rows
    rw [List.filter_filter]
    refine List.filter_congr fun r _ => ?_
    cases hp : p r with
    | false => rfl
    | true => rw [hown r hp, Bool.and_self]
  rw [hnarrow rows₁, hnarrow rows₂, hsame]

theorem find_own (hsame : rows₁.filter own = rows₂.filter own)
    (hown : ∀ r, p r = true → own r = true) : rows₁.find? p = rows₂.find? p := by
  rw [← List.head?_filter, ← List.head?_filter, filter_own hsame hown]

end

/-- `user1 = ? OR user2 = ?`. -/
def ofFriend (u : ℤ) (r : FriendshipRow) : Bool := r.user1 == u || r.user2 == u

/-- `sender = ? OR recipient = ?`. -/
def ofCorrespondent (u : ℤ) (r : DirectMessageRow) : Bool := r.sender == u || r.recipient == u

/-- Two stores that differ in other people's friendships and messages only. -/
structure LooksSame (u : ℤ) (st₁ st₂ : Store) : Prop where
  users : st₁.db.users.rows = st₂.db.users.rows
  sessions : st₁.db.sessions = st₂.db.sessions
  friendships : st₁.db.friendships.rows.filter (ofFriend u) =
    st₂.db.friendships.rows.filter (ofFriend u)
  messages : st₁.db.directMessages.rows.filter (ofCorrespondent u) =
    st₂.db.directMessages.rows.filter (ofCorrespondent u)

section

variable {env : Env} {u : ℤ} {st₁ st₂ : Store} (h : LooksSame u st₁ st₂)

include h

theorem findLogin_same (login : Bytes) : st₁.db.findLogin login = st₂.db.findLogin login := by
  unfold Database.findLogin
  rw [h.users]

theorem findUser_same (id : ℤ) : st₁.db.findUser id = st₂.db.findUser id := by
  unfold Database.findUser
  rw [h.users]

theorem getIdByLogin_same (login : Bytes) : getIdByLogin login st₁ = getIdByLogin login st₂ := by
  unfold getIdByLogin
  rw [findLogin_same h]

theorem getLoginById_same (id : ℤ) : getLoginById id st₁ = getLoginById id st₂ := by
  unfold getLoginById
  rw [findUser_same h]

theorem tokenLogin_same (hclock : env.clock st₁.clockReads = env.clock st₂.clockReads)
    (token : Bytes) : tokenLogin env token st₁ = tokenLogin env token st₂ := by
  have htoken : st₁.db.findToken token = st₂.db.findToken token := by
    unfold Database.findToken
    rw [h.sessions]
  unfold tokenLogin
  simp only [htoken, hclock, findUser_same h]

theorem loginsIn_same (ids : List ℤ) : loginsIn ids st₁ = loginsIn ids st₂ := by
  unfold loginsIn
  simp only [getLoginById_same h]

theorem entriesIn_same (messages : List DirectMessage) :
    entriesIn messages st₁ = entriesIn messages st₂ := by
  unfold entriesIn
  simp only [getLoginById_same h]

omit h in
/-- The row of a pair involves both. -/
theorem ofFriend_of_hasPair {y : ℤ} {r : FriendshipRow}
    (hpair : r.hasPair (normalize u y) = true) : ofFriend u r = true := by
  have hends := hasPair_iff.mp hpair
  unfold ofFriend
  unfold normalize at hends
  split at hends
  · rw [(Prod.mk.inj hends).1]
    simp
  · rw [(Prod.mk.inj hends).2]
    simp

theorem findPair_same (y : ℤ) :
    findPair (normalize u y) st₁ = findPair (normalize u y) st₂ :=
  find_own h.friendships fun _ hpair => ofFriend_of_hasPair hpair

theorem findPending_same (y : ℤ) :
    findPending (normalize u y) st₁ = findPending (normalize u y) st₂ :=
  find_own h.friendships fun _ hp => ofFriend_of_hasPair (Bool.and_eq_true_iff.mp hp).1

theorem areFriends_same (y : ℤ) : areFriends u y st₁ = areFriends u y st₂ := by
  unfold areFriends
  rw [find_own h.friendships fun r hp => ofFriend_of_hasPair (Bool.and_eq_true_iff.mp hp).1]

theorem getFriends_same : getFriends u st₁ = getFriends u st₂ := by
  unfold getFriends
  refine congrArg (List.map _) (filter_own h.friendships fun r hp => ?_)
  rw [Bool.and_eq_true] at hp
  exact hp.1

theorem getPendingIncoming_same : getPendingIncoming u st₁ = getPendingIncoming u st₂ := by
  unfold getPendingIncoming
  refine congrArg (List.map _) (filter_own h.friendships fun r hp => ?_)
  rw [Bool.and_eq_true, Bool.and_eq_true] at hp
  exact hp.1.1

theorem insertFriendship_same (p : ℤ × ℤ) (status : Status) (initiator : ℤ) (e : ErrorCode) :
    outcome ((do
      insertFriendship p status initiator
      return e : StoreM ErrorCode).run st₁) =
    outcome ((do
      insertFriendship p status initiator
      return e : StoreM ErrorCode).run st₂) := by
  simp only [insertFriendship, requireUsers, EStateM.run_bind, EStateM.run_get, findUser_same h]
  cases [p.1, p.2].all (fun id => (st₂.db.findUser id).isSome) <;> rfl

theorem sendRequest_same (y : ℤ) :
    outcome ((sendRequest u y).run st₁) = outcome ((sendRequest u y).run st₂) := by
  by_cases huy : u = y
  · simp only [sendRequest, if_pos huy]
    rfl
  · simp only [sendRequest, if_neg huy, EStateM.run_bind, EStateM.run_get, findPair_same h]
    cases hstatus : (findPair (normalize u y) st₂).map FriendshipRow.status with
    | none => exact insertFriendship_same h _ _ _ _
    | some status =>
      cases status with
      | pending => rfl
      | accepted => rfl
      | other text => exact insertFriendship_same h _ _ _ _

theorem acceptRequest_same (y : ℤ) :
    outcome ((acceptRequest u y).run st₁) = outcome ((acceptRequest u y).run st₂) := by
  simp only [acceptRequest, EStateM.run_bind, EStateM.run_get, findPending_same h]
  cases findPending (normalize u y) st₂ with
  | none => rfl
  | some check =>
    by_cases hinit : check.initiator = u
    · simp only [if_pos hinit]
      rfl
    · simp only [if_neg hinit]
      rfl

theorem rejectRequest_same (y : ℤ) :
    outcome ((rejectRequest u y).run st₁) = outcome ((rejectRequest u y).run st₂) := by
  simp only [rejectRequest, EStateM.run_bind, EStateM.run_get, findPending_same h]
  cases findPending (normalize u y) st₂ with
  | none => rfl
  | some check =>
    by_cases hinit : check.initiator = u
    · simp only [if_pos hinit]
      rfl
    · simp only [if_neg hinit]
      rfl

theorem getHistory_same (peer limit : ℤ) :
    getHistory env u peer limit st₁ = getHistory env u peer limit st₂ := by
  unfold getHistory
  rw [filter_own h.messages fun r hp => ?_]
  rw [Bool.or_eq_true, Bool.and_eq_true, Bool.and_eq_true] at hp
  unfold ofCorrespondent
  rcases hp with ⟨hsender, -⟩ | ⟨-, hrecipient⟩
  · rw [hsender, Bool.true_or]
  · rw [hrecipient, Bool.or_true]

theorem getLastMessages_same : getLastMessages env u st₁ = getLastMessages env u st₂ := by
  have hrows : lastRows env u st₁ = lastRows env u st₂ := by
    have hown : st₁.db.directMessages.rows.filter (fun r => r.sender == u || r.recipient == u) =
        st₂.db.directMessages.rows.filter (fun r => r.sender == u || r.recipient == u) := h.messages
    unfold lastRows
    rw [hown]
  unfold getLastMessages
  simp only [hrows, getLoginById_same h]

end

section

variable {env : Env} {u : ℤ} {w₁ w₂ : World}

theorem outcome_answeredFrom {α : Type} (x : Except Exn α) (w : World) :
    outcome (answeredFrom x w) = x := by
  cases x <;> rfl

theorem friendAct_outcome (operation : ℤ → ℤ → StoreM ErrorCode) (notice : PacketType)
    {targetLogin senderLogin : Bytes} {w : World} :
    outcome ((friendAct env operation notice targetLogin senderLogin).run w) =
      match friendIds senderLogin targetLogin w.store with
      | .error e => .ok (.friend ⟨e⟩)
      | .ok ids => (outcome ((operation ids.1 ids.2).run w.store)).map fun err =>
          .friend ⟨if err.ok then Error.Base.ok else err⟩ := by
  cases hids : friendIds senderLogin targetLogin w.store with
  | error e =>
    rw [(friendAct_refused env operation notice hids).2]
    rfl
  | ok ids =>
    rw [friendAct_run env operation notice hids]
    change _ = (outcome ((operation ids.1 ids.2).run w.store)).map _
    cases (operation ids.1 ids.2).run w.store with
    | error e st => rfl
    | ok err st =>
      cases herr : err.ok <;> simp [outcome, herr, Except.map]

theorem friendAct_same {operation : ℤ → ℤ → StoreM ErrorCode} (notice : PacketType)
    (h : LooksSame u w₁.store w₂.store)
    (hoperation : ∀ y, outcome ((operation u y).run w₁.store) =
      outcome ((operation u y).run w₂.store)) (targetLogin : Bytes) {login : Bytes}
    (hid : getIdByLogin login w₁.store = .ok u) :
    outcome ((friendAct env operation notice targetLogin login).run w₁) =
      outcome ((friendAct env operation notice targetLogin login).run w₂) := by
  have hids : friendIds login targetLogin w₁.store = friendIds login targetLogin w₂.store := by
    unfold friendIds
    rw [getIdByLogin_same h, getIdByLogin_same h]
  rw [friendAct_outcome, friendAct_outcome, ← hids]
  cases hcase : friendIds login targetLogin w₁.store with
  | error e => rfl
  | ok ids =>
    obtain ⟨x, y⟩ := ids
    cases hid.symm.trans (friendIds_ok hcase).1
    simp only [hoperation y]

theorem friendListAct_same (h : LooksSame u w₁.store w₂.store) {login : Bytes}
    (hid : getIdByLogin login w₁.store = .ok u) :
    outcome ((friendListAct login).run w₁) = outcome ((friendListAct login).run w₂) := by
  have hid₂ : getIdByLogin login w₂.store = .ok u := getIdByLogin_same h login ▸ hid
  rw [friendListAct_run, friendListAct_run, outcome_answeredFrom, outcome_answeredFrom]
  simp only [friendListAnswer, hid, hid₂, expectValue, ok_bind, getFriends_same h,
    getPendingIncoming_same h, loginsIn_same h]

theorem historyAct_same (h : LooksSame u w₁.store w₂.store) (peerLogin : Bytes) {login : Bytes}
    (hid : getIdByLogin login w₁.store = .ok u) :
    outcome ((historyAct env peerLogin login).run w₁) =
      outcome ((historyAct env peerLogin login).run w₂) := by
  have hid₂ : getIdByLogin login w₂.store = .ok u := getIdByLogin_same h login ▸ hid
  rw [historyAct_run, historyAct_run, outcome_answeredFrom, outcome_answeredFrom]
  simp only [historyAnswer, hid, hid₂, expectValue, ok_bind, getIdByLogin_same h peerLogin,
    getHistory_same h, entriesIn_same h]

theorem chatListAct_same (h : LooksSame u w₁.store w₂.store) {login : Bytes}
    (hid : getIdByLogin login w₁.store = .ok u) :
    outcome ((chatListAct env login).run w₁) = outcome ((chatListAct env login).run w₂) := by
  have hid₂ : getIdByLogin login w₂.store = .ok u := getIdByLogin_same h login ▸ hid
  rw [chatListAct_run, chatListAct_run, outcome_answeredFrom, outcome_answeredFrom]
  simp only [chatListAnswer, hid, hid₂, getLastMessages_same h]

theorem directMessageAct_same (h : LooksSame u w₁.store w₂.store)
    (recipientLogin message : Bytes) {login : Bytes}
    (hid : getIdByLogin login w₁.store = .ok u) :
    outcome ((directMessageAct env recipientLogin message login).run w₁) =
      outcome ((directMessageAct env recipientLogin message login).run w₂) := by
  have hid₂ : getIdByLogin login w₂.store = .ok u := getIdByLogin_same h login ▸ hid
  have hplan : directMessagePlan recipientLogin login w₁.store =
      directMessagePlan recipientLogin login w₂.store := by
    simp only [directMessagePlan, hid, hid₂, getIdByLogin_same h recipientLogin, areFriends_same h]
  rw [directMessageAct_run, directMessageAct_run, hplan]
  cases directMessagePlan recipientLogin login w₂.store with
  | error e => rfl
  | ok plan => cases plan <;> rfl

/-- The requests about friends and messages. -/
def Personal : PacketType → Bool
  | .friendRequest | .friendAccept | .friendReject | .friendList => true
  | .directMessage | .messageHistory | .chatList => true
  | _ => false

/-- Whatever is asked for u, the outcome is the same in states that look the same to u. -/
theorem act_same (h : LooksSame u w₁.store w₂.store) {packetType : PacketType} {body : Bytes}
    {t : TokenRequest} (hrequest : requestOf env packetType body = some t)
    (hpersonal : Personal packetType = true) {login : Bytes}
    (hid : getIdByLogin login w₁.store = .ok u) :
    outcome ((t.act login).run w₁) = outcome ((t.act login).run w₂) := by
  cases packetType with
  | friendRequest =>
    obtain ⟨req, -, rfl⟩ := toOption_map_some hrequest
    exact friendAct_same _ h (sendRequest_same h) req.targetLogin hid
  | friendAccept =>
    obtain ⟨req, -, rfl⟩ := toOption_map_some hrequest
    exact friendAct_same _ h (acceptRequest_same h) req.targetLogin hid
  | friendReject =>
    obtain ⟨req, -, rfl⟩ := toOption_map_some hrequest
    exact friendAct_same _ h (rejectRequest_same h) req.targetLogin hid
  | friendList =>
    obtain ⟨req, -, rfl⟩ := toOption_map_some hrequest
    exact friendListAct_same h hid
  | messageHistory =>
    obtain ⟨req, -, rfl⟩ := toOption_map_some hrequest
    exact historyAct_same h req.peerLogin hid
  | directMessage =>
    obtain ⟨req, -, rfl⟩ := toOption_map_some hrequest
    exact directMessageAct_same h req.recipientLogin req.message hid
  | chatList =>
    obtain ⟨req, -, rfl⟩ := toOption_map_some hrequest
    exact chatListAct_same h hid
  | _ => cases hpersonal

end

/-- The token of a request stands for a login of u. -/
def ResolvesTo (env : Env) (w : World) (packetType : PacketType) (body : Bytes) (u : ℤ) : Prop :=
  ∃ t login, requestOf env packetType body = some t ∧
    tokenLogin env t.token w.store = some login ∧ getIdByLogin login w.store = .ok u

/-- In two states that look the same to u, at the same time, each request about friends and
messages made with a token of u gets the same RESULT: nobody is told anything about other
people's friendships and conversations. -/
theorem result_from_own_rows (env : Env) (w₁ w₂ : World) (u : ℤ)
    (hclock : env.clock w₁.store.clockReads = env.clock w₂.store.clockReads)
    (hsame : LooksSame u w₁.store w₂.store) (c₁ c₂ : ConnId) (hlive₁ : (w₁.sessions c₁).isSome)
    (hlive₂ : (w₂.sessions c₂).isSome) (packetType : PacketType)
    (hpersonal : Personal packetType = true) (body : Bytes)
    (hresolves : ResolvesTo env w₁ packetType body u) (r : Response) :
    AnsweredWith env w₁ c₁ packetType body r ↔ AnsweredWith env w₂ c₂ packetType body r := by
  obtain ⟨t, login, hrequest, hlogin, hid⟩ := hresolves
  have hlogin₂ : tokenLogin env t.token w₂.store = some login :=
    tokenLogin_same hsame hclock t.token ▸ hlogin
  have hticked : LooksSame u (ticked w₁.store) (ticked w₂.store) :=
    ⟨hsame.users, hsame.sessions, hsame.friendships, hsame.messages⟩
  have hact : outcome ((t.act login).run { w₁ with store := ticked w₁.store }) =
      outcome ((t.act login).run { w₂ with store := ticked w₂.store }) :=
    act_same hticked hrequest hpersonal hid
  rw [answered_iff_outcome hlive₁ hrequest hlogin, answered_iff_outcome hlive₂ hrequest hlogin₂,
    hact]

/-- "a", "c" and "d" have registered; "c" has asked "d" to be friends, or only for its list. -/
def threeUsers : List Event :=
  [.connect, .connect, registerEvent 0 [97], registerEvent 1 [99], registerEvent 1 [100]]

def asked : World :=
  LabelledRuns.run (World.step Env.plain) (World.initial Env.plain fun _ => none)
    (threeUsers ++
      [.packet 1 .friendRequest (serialize (FriendRequest.mk [97, 97, 97, 97] [100]))])

def listed : World :=
  LabelledRuns.run (World.step Env.plain) (World.initial Env.plain fun _ => none)
    (threeUsers ++ [.packet 1 .friendList (serialize (FriendListRequest.mk [97, 97, 97, 97]))])

/-- "a" gets the same list in both. -/
theorem result_from_own_rows_stranger :
    AnsweredWith Env.plain listed 0 .friendList (serialize (FriendListRequest.mk [97, 97]))
      (.friendList ⟨[], [], Error.Base.ok⟩) :=
  (result_from_own_rows Env.plain asked listed 1 (by decide)
    ⟨by decide, by decide, by decide, by decide⟩ 0 0 (by decide) (by decide) .friendList rfl _
    ⟨_, [97], rfl, by decide, by decide⟩ _).mp ⟨_, [], rfl, rfl⟩

end Messenger.Confidentiality
