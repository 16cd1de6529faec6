import Messenger.RequestEffects
import Messenger.Conversations
import Messenger.EncodedSizes

/-!
How large the bodies are that the server sends. Each size is a sum over texts that are
stored or have just been received, and nothing bounds these sums: an answer is built of up to
100 messages, or of any number of friends or chats. The sizes that a packet calls for can be
told from the state in which it comes in, and the bodies have them exactly.
-/
namespace Messenger.BodySizes

open Outcomes ClientSession UserRepository MessageRepository FriendStates HandlerActions
  HandlePacket TokenRequests TableSteps ExpectedAccesses StoredFiles RequestEffects Reports
  Conversations EncodedSizes

/-- The login of a user as rows name it. -/
def nameOf (st : Store) (id : ℤ) : Bytes :=
  match getLoginById id st with
  | .ok login => login
  | .error _ => []

/-- Somebody else's session stands in the map. -/
def Heard (w : World) (login : Bytes) : Prop :=
  ∃ e ∈ w.onlineUsers.entries, e.1 ≠ login ∧ (w.sessions e.2).isSome

instance (w : World) (login : Bytes) : Decidable (Heard w login) :=
  inferInstanceAs (Decidable (∃ e ∈ _, _))

/-- A line of the general chat. -/
def broadcastSizes (w : World) (senderLogin message : Bytes) : List ℕ :=
  if Heard w senderLogin then [8 + senderLogin.length + message.length] else []

/-- A message is pushed if the recipient's entry leads to a session. -/
def pushSizes (w : World) (recipientLogin senderLogin message : Bytes) : List ℕ :=
  match directMessagePlan recipientLogin senderLogin w.store with
  | .ok (.ok _) =>
    if (w.getSession recipientLogin).isSome then [messageSize senderLogin message] else []
  | _ => []

def friendListSizes (senderLogin : Bytes) (st : Store) : List ℕ :=
  match getIdByLogin senderLogin st with
  | .ok id =>
    [12 + textsSize ((FriendRepository.getFriends id st).map (nameOf st)) +
      textsSize ((FriendRepository.getPendingIncoming id st).map (nameOf st))]
  | .error _ => []

def historySizes (env : Env) (peerLogin senderLogin : Bytes) (st : Store) : List ℕ :=
  match getIdByLogin senderLogin st, getIdByLogin peerLogin st with
  | .ok sender, .ok peer =>
    [8 + ((getHistory env sender peer 100 st).map
      fun m => 4 + messageSize (nameOf st m.sender) m.message).sum]
  | _, _ => []

def chatListSizes (env : Env) (login : Bytes) (st : Store) : List ℕ :=
  match getIdByLogin login st with
  | .ok id =>
    [8 + ((getLastMessages env id st).map fun m => 4 + messageSize m.peerLogin m.message).sum]
  | .error _ => []

/-- Behind the lookup: the sizes that grow with texts. All other bodies are constant, but for
that of a file, which the cipher bounds. -/
def actSizes (env : Env) (w : World) (login : Bytes) (packetType : PacketType) (body : Bytes) :
    List ℕ :=
  match packetType with
  | .message =>
    match deserialize ChatSendRequest body with
    | .ok req => broadcastSizes w login req.message
    | .error _ => []
  | .directMessage =>
    match deserialize DirectMessageRequest body with
    | .ok req => pushSizes w req.recipientLogin login req.message
    | .error _ => []
  | .friendList => friendListSizes login w.store
  | .messageHistory =>
    match deserialize HistoryRequest body with
    | .ok req => historySizes env req.peerLogin login w.store
    | .error _ => []
  | .chatList => chatListSizes env login w.store
  | _ => []

/-- The token that an accepted REGISTER or LOGIN draws; the salt is drawn before it. -/
def drawnToken (env : Env) (st : Store) : PacketType → Option Bytes
  | .register => some (env.uuid (st.uuidsDrawn + 1))
  | .login => some (env.uuid st.uuidsDrawn)
  | _ => none

def backlogSizes (st : Store) (messages : List StoredMessage) : List ℕ :=
  messages.map (fun el => messageSize (nameOf st el.sender) el.message)

/-- The RESULT with the token, if it comes to that. -/
def tokenSizes (env : Env) (w : World) (login : Bytes) (packetType : PacketType) : List ℕ :=
  if (backlog env login w.store).length ≤ maxVariableNumber then
    ((drawnToken env w.store packetType).map (fun token => 8 + token.length)).toList
  else []

def welcomeSizes (env : Env) (w : World) (login : Bytes) (packetType : PacketType) : List ℕ :=
  backlogSizes w.store (backlog env login w.store) ++ tokenSizes env w login packetType

def bodySizes (env : Env) (w : World) (packetType : PacketType) (body : Bytes) : List ℕ :=
  match authenticatesAs env w packetType body with
  | some login => welcomeSizes env w login packetType
  | none =>
    match requestOf env packetType body with
    | some t =>
      match tokenLogin env t.token w.store with
      | some login => actSizes env w login packetType body
      | none => []
    | none => []

/-- Packets alone call for bodies, and those of live sessions only. -/
def stepSizes (env : Env) (w : World) : Event → List ℕ
  | .packet c packetType body =>
    if w.status = .running ∧ (w.sessions c).isSome then bodySizes env w packetType body else []
  | _ => []

/-- The sizes that do not follow from a limit on each stored text: a pushed message and those
of the backlog hold one login and one text apiece. -/
def openSizes (env : Env) (w : World) (packetType : PacketType) (body : Bytes) : List ℕ :=
  match authenticatesAs env w packetType body with
  | some login => tokenSizes env w login packetType
  | none => if packetType = .directMessage then [] else bodySizes env w packetType body

def openStepSizes (env : Env) (w : World) : Event → List ℕ
  | .packet c packetType body =>
    if w.status = .running ∧ (w.sessions c).isSome then openSizes env w packetType body else []
  | _ => []

/-- No sum of the lengths of texts that the event makes the server pack reaches 2^32. -/
def SmallSums (env : Env) (w : World) (e : Event) : Prop :=
  ∀ size ∈ openStepSizes env w e, size < 2 ^ 32

instance (env : Env) (w : World) (e : Event) : Decidable (SmallSums env w e) :=
  inferInstanceAs (Decidable (∀ size ∈ _, _))

/-- New packets have these sizes, or such as are always small. -/
structure Accounts (sizes : List ℕ) (new : List Sent) : Prop where
  encodes : ∀ p ∈ new, Encodes p.body
  sized : ∀ p ∈ new, p.body.length < 2 ^ 32 ∨ p.body.length ∈ sizes
  sent : ∀ size ∈ sizes, ∃ p ∈ new, p.body.length = size

theorem accounts_nil : Accounts [] [] :=
  ⟨fun _ h => absurd h List.not_mem_nil, fun _ h => absurd h List.not_mem_nil,
    fun _ h => absurd h List.not_mem_nil⟩

theorem Accounts.append {sizes sizes' : List ℕ} {new new' : List Sent} (h : Accounts sizes new)
    (h' : Accounts sizes' new') : Accounts (sizes ++ sizes') (new ++ new') where
  encodes := List.forall_mem_append.mpr ⟨h.encodes, h'.encodes⟩
  sized := by
    refine List.forall_mem_append.mpr ⟨fun p hp => ?_, fun p hp => ?_⟩
    · exact (h.sized p hp).imp_right (List.mem_append_left _)
    · exact (h'.sized p hp).imp_right (List.mem_append_right _)
  sent := by
    refine List.forall_mem_append.mpr ⟨fun size hsize => ?_, fun size hsize => ?_⟩
    · obtain ⟨p, hp, hlength⟩ := h.sent size hsize
      exact ⟨p, List.mem_append_left _ hp, hlength⟩
    · obtain ⟨p, hp, hlength⟩ := h'.sent size hsize
      exact ⟨p, List.mem_append_right _ hp, hlength⟩

/-- One packet whose size is called for. -/
theorem accounts_one {size : ℕ} {p : Sent} (hencodes : Encodes p.body)
    (hlength : p.body.length = size) : Accounts [size] [p] := by
  subst hlength
  refine ⟨?_, ?_, ?_⟩
  · simpa using hencodes
  · simp
  · simp

/-- Packets that are small whatever the texts are. -/
theorem accounts_small {new : List Sent} (hencodes : ∀ p ∈ new, Encodes p.body)
    (hsmall : ∀ p ∈ new, p.body.length < 2 ^ 32) : Accounts [] new :=
  ⟨hencodes, fun p hp => Or.inl (hsmall p hp), fun _ h => absurd h List.not_mem_nil⟩

/-- Copies of one body. -/
theorem accounts_alike {sizes : List ℕ} {new : List Sent} {body : Bytes}
    (hencodes : Encodes body) (hbody : ∀ p ∈ new, p.body = body)
    (hsizes : new = [] ∧ sizes = [] ∨ new ≠ [] ∧ sizes = [body.length]) : Accounts sizes new := by
  rcases hsizes with ⟨rfl, rfl⟩ | ⟨hne, rfl⟩
  · exact accounts_nil
  · refine ⟨fun p hp => hbody p hp ▸ hencodes, fun p hp => Or.inr ?_, fun size hsize => ?_⟩
    · rw [hbody p hp]
      exact List.mem_singleton_self _
    · obtain ⟨p, hp⟩ := List.exists_mem_of_ne_nil new hne
      exact ⟨p, hp, by rw [hbody p hp, List.mem_singleton.mp hsize]⟩

def Sends (sizes : List ℕ) (w w' : World) : Prop :=
  ∃ new, w'.sent = w.sent ++ new ∧ Accounts sizes new

theorem sends_nothing {w w' : World} (h : w'.sent = w.sent) : Sends [] w w' :=
  ⟨[], by rw [h, List.append_nil], accounts_nil⟩

theorem Sends.trans {sizes sizes' : List ℕ} {w w' w'' : World} (h : Sends sizes w w')
    (h' : Sends sizes' w' w'') : Sends (sizes ++ sizes') w w'' := by
  obtain ⟨new, hsent, hnew⟩ := h
  obtain ⟨new', hsent', hnew'⟩ := h'
  exact ⟨new ++ new', by rw [hsent', hsent, List.append_assoc], hnew.append hnew'⟩

/-- The RESULT, small or of a size that is called for. -/
theorem sends_answer {sizes : List ℕ} (w : World) (c : ConnId) (packetType : PacketType)
    (r : Response) (h : sizes = [] ∧ r.serialize.length < 2 ^ 32 ∨ sizes = [r.serialize.length]) :
    Sends sizes w (withAnswer w c packetType (some r)) := by
  refine ⟨_, rfl, ?_⟩
  rcases h with ⟨rfl, hsmall⟩ | rfl
  · exact accounts_small (by simpa using encodes_response r) (by simpa using hsmall)
  · exact accounts_one (encodes_response r) rfl

/-- What becomes of a request with a token once its handler has ended. -/
def settled (c : ConnId) (packetType : PacketType) : EStateM.Result Exn World Response → World
  | .ok r w => withAnswer w c packetType (some r)
  | .error _ w => w.terminate

theorem receive_request {env : Env} {packetType : PacketType} {body : Bytes} {t : TokenRequest}
    (h : requestOf env packetType body = some t) (w : World) (c : ConnId) :
    w.receive env c packetType body =
      settled c packetType ((withAccount env t.token t.refuse t.act).run w) := by
  have hdispatch := dispatch_request c h w
  unfold World.receive
  cases hrun : (withAccount env t.token t.refuse t.act).run w with
  | ok r w₁ =>
    rw [handlePacket_answered (hdispatch.trans (answer_run hrun))]
    rfl
  | error e w₁ =>
    rw [answer, EStateM.run_bind, hrun] at hdispatch
    rw [handlePacket_thrown hdispatch]
    rfl

section

variable {c : ConnId} {packetType : PacketType} {w : World}

theorem settled_ok {sizes : List ℕ} {r : Response} {w₁ : World} (hsends : Sends sizes w w₁)
    (hsmall : r.serialize.length < 2 ^ 32) : Sends sizes w (settled c packetType (.ok r w₁)) := by
  have hanswer := hsends.trans (sends_answer w₁ c packetType r (Or.inl ⟨rfl, hsmall⟩))
  rwa [List.append_nil] at hanswer

/-- The packets of a broadcast, entry by entry. -/
def copies (w : World) (senderLogin : Bytes) (packetType : PacketType) (body : Bytes)
    (entries : List (Bytes × ConnId)) : List Sent :=
  entries.filterMap fun e =>
    if e.1 != senderLogin then
      (w.lock e.2).map (fun sess => viaEntry w sess packetType body (.broadcast e.1))
    else none

theorem broadcastLoop_run (senderLogin : Bytes) (packetType : PacketType) (body : Bytes)
    (entries : List (Bytes × ConnId)) (w : World) :
    (SessionManager.broadcastLoop senderLogin packetType body entries).run w =
      .ok () { w with sent := w.sent ++ copies w senderLogin packetType body entries } := by
  induction entries generalizing w with
  | nil =>
    simp only [copies, List.filterMap_nil, List.append_nil]
    rfl
  | cons e rest ih =>
    obtain ⟨login, weakSess⟩ := e
    have hsame : ∀ sent, copies { w with sent := sent } senderLogin packetType body rest =
        copies w senderLogin packetType body rest := fun _ => rfl
    simp only [SessionManager.broadcastLoop, EStateM.run_bind, EStateM.run_get, copies,
      List.filterMap_cons]
    cases login != senderLogin with
    | false => exact ih w
    | true =>
      simp only [if_true]
      cases hlock : w.lock weakSess with
      | none => exact ih w
      | some sess =>
        have hrest := ih
          { w with sent := w.sent ++ [viaEntry w sess packetType body (.broadcast login)] }
        rw [hsame, List.append_assoc, List.singleton_append] at hrest
        exact hrest

theorem mem_copies {senderLogin body : Bytes} {entries : List (Bytes × ConnId)} {p : Sent}
    (h : p ∈ copies w senderLogin packetType body entries) : p.body = body := by
  obtain ⟨e, -, hcopy⟩ := List.mem_filterMap.mp h
  split at hcopy
  · obtain ⟨sess, -, rfl⟩ := Option.map_eq_some_iff.mp hcopy
    rfl
  · cases hcopy

theorem copies_eq_nil_iff {senderLogin body : Bytes} :
    copies w senderLogin packetType body (w.onlineUsers.entries.map (fun e => (e.1, e.2))) = [] ↔
      ¬ Heard w senderLogin := by
  simp only [copies, Heard, List.filterMap_eq_nil_iff, List.forall_mem_map, not_exists, not_and]
  refine forall₂_congr fun e _ => ?_
  by_cases hlogin : e.1 = senderLogin
  · simp [hlogin]
  · simp [hlogin, World.lock]

theorem messageAct_sends (message login : Bytes) :
    Sends (broadcastSizes w login message) w
      (settled c packetType ((messageAct message login).run w)) := by
  have hrun : (messageAct message login).run w = .ok (.chat ⟨Error.Base.ok⟩)
      { w with
        sent := w.sent ++ copies w login .message (serialize (ChatIncoming.mk login message))
          (w.onlineUsers.entries.map (fun e => (e.1, e.2))) } := by
    simp only [messageAct, SessionManager.broadcast, EStateM.run_bind, EStateM.run_get,
      broadcastLoop_run]
    rfl
  have hencodes : Encodes (serialize (ChatIncoming.mk login message)) :=
    Or.inr ⟨.chatIncoming, ⟨login, message⟩, rfl⟩
  rw [hrun, broadcastSizes, ← length_chatIncoming]
  refine settled_ok ⟨_, rfl, accounts_alike hencodes (fun p hp => mem_copies hp) ?_⟩
    (short_errorOnly (ChatResponse.mk Error.Base.ok))
  by_cases hheard : Heard w login
  · exact Or.inr ⟨fun hnil => copies_eq_nil_iff.mp hnil hheard, if_pos hheard⟩
  · exact Or.inl ⟨copies_eq_nil_iff.mpr hheard, if_neg hheard⟩

theorem directMessageAct_sends (env : Env) (recipientLogin message login : Bytes) :
    Sends (pushSizes w recipientLogin login message) w
      (settled c packetType ((directMessageAct env recipientLogin message login).run w)) := by
  have hcases := directMessageAct_messaging env recipientLogin message login w
  generalize (directMessageAct env recipientLogin message login).run w = result at hcases
  unfold pushSizes
  cases hcases with
  | thrown e hplan =>
    simp only [hplan]
    exact sends_nothing rfl
  | refused e hplan _ =>
    simp only [hplan]
    exact sends_answer w c packetType _ (Or.inl ⟨rfl, short_errorOnly (DirectMessageResponse.mk e)⟩)
  | accepted sender recipient hplan =>
    simp only [hplan]
    have hencodes : Encodes (serialize (DirectMessageIncoming.mk login message
        (Int64.ofInt (w.store.db.directMessages.seq + 1)))) :=
      Or.inr ⟨.directMessageIncoming, _, rfl⟩
    refine settled_ok ⟨_, rfl, accounts_alike hencodes (fun p hp => body_of_pushed hp) ?_⟩
      (short_errorOnly (DirectMessageResponse.mk Error.Base.ok))
    rw [length_directMessageIncoming]
    cases hsession : w.getSession recipientLogin with
    | none => exact Or.inl ⟨pushed_eq_nil_iff.mpr hsession, rfl⟩
    | some sess =>
      refine Or.inr ⟨fun hnil => ?_, rfl⟩
      cases hsession.symm.trans (pushed_eq_nil_iff.mp hnil)

theorem loginsIn_eq {ids : List ℤ} {st : Store} (h : ∀ id ∈ ids, hasUser st id) :
    loginsIn ids st = .ok (ids.map (nameOf st)) := by
  unfold loginsIn
  induction ids with
  | nil => rfl
  | cons id rest ih =>
    obtain ⟨u, hu⟩ := Option.isSome_iff_exists.mp (h id List.mem_cons_self)
    have hlogin : getLoginById id st = .ok (getText u.login) := by
      simp only [getLoginById, hu]
    rw [List.mapM_cons, ih fun x hx => h x (List.mem_cons_of_mem _ hx), List.map_cons,
      nameOf, hlogin]
    rfl

theorem friendListAct_sends {env : Env} (h : Sound env w.store) (login : Bytes) :
    Sends (friendListSizes login w.store) w
      (settled c packetType ((friendListAct login).run w)) := by
  rw [friendListAct_run, friendListAnswer, friendListSizes]
  cases hid : getIdByLogin login w.store with
  | ok id =>
    simp only [expectValue, ok_bind, loginsIn_eq (users_of_getFriends h id),
      loginsIn_eq (users_of_getPendingIncoming h id), ← length_friendListResponse _ _ Error.Base.ok]
    exact sends_answer w c packetType (.friendList _) (Or.inr rfl)
  | error e => exact sends_nothing rfl

theorem historyAct_sends {env : Env} (h : Sound env w.store) (peerLogin login : Bytes) :
    Sends (historySizes env peerLogin login w.store) w
      (settled c packetType ((historyAct env peerLogin login).run w)) := by
  rw [historyAct_run, historySizes]
  cases hid : getIdByLogin login w.store with
  | ok sender =>
    cases hpeer : getIdByLogin peerLogin w.store with
    | ok peer =>
      have hlength := length_historyResponse
        ((getHistory env sender peer 100 w.store).map (historyEntry w.store)) Error.Base.ok
      rw [List.map_map] at hlength
      rw [historyAnswer_eq h hid hpeer]
      exact sends_answer w c packetType (.history _) (Or.inr (congrArg (fun n => [n]) hlength.symm))
    | error e =>
      rw [historyAnswer, hid, hpeer]
      exact sends_nothing rfl
  | error e =>
    rw [historyAnswer, hid]
    exact sends_nothing rfl

theorem chatListAct_sends (env : Env) (login : Bytes) :
    Sends (chatListSizes env login w.store) w
      (settled c packetType ((chatListAct env login).run w)) := by
  rw [chatListAct_run, chatListSizes]
  cases hid : getIdByLogin login w.store with
  | ok id =>
    have hlength := length_chatListResponse
      ((getLastMessages env id w.store).map chatEntry) Error.Base.ok
    rw [List.map_map] at hlength
    rw [chatListAnswer_eq hid]
    exact sends_answer w c packetType (.chatList _) (Or.inr (congrArg (fun n => [n]) hlength.symm))
  | error e =>
    have hshort : (Response.chatList ⟨[], e⟩).serialize.length < 2 ^ 32 := by
      have hlength : (Response.chatList ⟨[], e⟩).serialize.length = _ :=
        length_chatListResponse [] e
      rw [hlength]
      decide
    rw [chatListAnswer, hid]
    simp only
    cases env.inactive with
    | some unread => exact sends_answer w c packetType _ (Or.inl ⟨rfl, hshort⟩)
    | none => exact sends_nothing rfl

/-- What a cipher puts out has been counted in an `int`. -/
theorem unsealed_short {env : Env} {bytes data : Bytes} (h : unsealed env bytes = .ok data) :
    data.length < 2 ^ 31 := by
  unfold unsealed at h
  split at h
  · cases h
  · split at h
    · cases h
    · cases h
    · cases h
    · cases h
    · split at h
      · cases h
        rwa [List.length_append]
      · cases h

theorem downloadAct_sends (env : Env) (fileName : Bytes) :
    Sends [] w (settled c packetType ((downloadAct env fileName).run w)) := by
  rw [downloadAct_run, downloadAnswer]
  cases contentOf env fileName w.files with
  | error e => exact sends_nothing rfl
  | ok bytes =>
    rw [ok_bind]
    cases hdata : unsealed env bytes with
    | error e => exact sends_nothing rfl
    | ok data =>
      refine sends_answer w c packetType (.fileDownload ⟨data, Error.Base.ok⟩) (Or.inl ⟨rfl, ?_⟩)
      change (serialize (FileDownloadResponse.mk data Error.Base.ok)).length < 2 ^ 32
      have hshort := unsealed_short hdata
      rw [length_fileDownloadResponse]
      omega

theorem uploadAct_sends (env : Env) (fileName fileData : Bytes) :
    Sends [] w (settled c packetType ((uploadAct env fileName fileData).run w)) := by
  rw [uploadAct_run]
  cases sealed env w.randomDraws fileData with
  | error e => exact sends_nothing rfl
  | ok bytes =>
    refine settled_ok (sends_nothing ?_) (short_errorOnly (FileUploadResponse.mk Error.Base.ok))
    rw [withFile_sent]
    rfl

/-- Notices have no body. -/
theorem withNotice_sends (notice : PacketType) (targetLogin : Bytes) :
    Sends [] w (withNotice w notice targetLogin) := by
  obtain ⟨pushes, hsent, hpushes⟩ := withNotice_posts (w := w) notice targetLogin
  rw [hsent]
  refine ⟨pushes, rfl, accounts_small (fun p hp => ?_) fun p hp => ?_⟩
  · exact Or.inl (hpushes p hp).2
  · rw [(hpushes p hp).2]
    decide

theorem friendAct_sends (operation : ℤ → ℤ → StoreM ErrorCode) (notice : PacketType)
    (targetLogin login : Bytes) :
    Sends [] w (settled c packetType
      ((friendAct env operation notice targetLogin login).run w)) := by
  cases hids : friendIds login targetLogin w.store with
  | error e =>
    obtain ⟨-, hrun⟩ := friendAct_refused env operation notice hids
    rw [hrun]
    exact settled_ok (sends_nothing rfl) (short_errorOnly (FriendResponse.mk e))
  | ok ids =>
    obtain ⟨x, y⟩ := ids
    rw [friendAct_run env operation notice hids]
    cases hoperation : (operation x y).run w.store with
    | error e st => exact sends_nothing rfl
    | ok e st =>
      simp only
      split
      · have hstore : Sends [] w { w with store := st } := sends_nothing rfl
        exact settled_ok (hstore.trans (withNotice_sends notice targetLogin))
          (short_errorOnly (FriendResponse.mk Error.Base.ok))
      · exact settled_ok (sends_nothing rfl) (short_errorOnly (FriendResponse.mk e))

theorem act_sends {env : Env} (h : Sound env w.store) {body : Bytes} {t : TokenRequest}
    (hrequest : requestOf env packetType body = some t) (login : Bytes) :
    Sends (actSizes env w login packetType body) w
      (settled c packetType ((t.act login).run w)) := by
  cases packetType with
  | message =>
    obtain ⟨req, hreq, rfl⟩ := toOption_map_some hrequest
    simp only [actSizes, hreq]
    exact messageAct_sends req.message login
  | upload =>
    obtain ⟨req, -, rfl⟩ := toOption_map_some hrequest
    exact uploadAct_sends env req.fileName req.fileData
  | download =>
    obtain ⟨req, -, rfl⟩ := toOption_map_some hrequest
    exact downloadAct_sends env req.fileName
  | friendRequest =>
    obtain ⟨req, -, rfl⟩ := toOption_map_some hrequest
    exact friendAct_sends _ _ req.targetLogin login
  | friendAccept =>
    obtain ⟨req, -, rfl⟩ := toOption_map_some hrequest
    exact friendAct_sends _ _ req.targetLogin login
  | friendReject =>
    obtain ⟨req, -, rfl⟩ := toOption_map_some hrequest
    exact friendAct_sends _ _ req.targetLogin login
  | friendList =>
    obtain ⟨req, -, rfl⟩ := toOption_map_some hrequest
    exact friendListAct_sends h login
  | messageHistory =>
    obtain ⟨req, hreq, rfl⟩ := toOption_map_some hrequest
    simp only [actSizes, hreq]
    exact historyAct_sends h req.peerLogin login
  | directMessage =>
    obtain ⟨req, hreq, rfl⟩ := toOption_map_some hrequest
    simp only [actSizes, hreq]
    exact directMessageAct_sends env req.recipientLogin req.message login
  | chatList =>
    obtain ⟨req, -, rfl⟩ := toOption_map_some hrequest
    exact chatListAct_sends env login
  | _ => cases hrequest

/-- A refusal is as short as an error code with empty lists beside it. -/
theorem refusal_short {env : Env} {body : Bytes} {t : TokenRequest}
    (hrequest : requestOf env packetType body = some t) (e : ErrorCode) :
    (t.refuse e).serialize.length < 2 ^ 32 := by
  cases packetType with
  | message =>
    obtain ⟨req, -, rfl⟩ := toOption_map_some hrequest
    exact short_errorOnly (ChatResponse.mk e)
  | upload =>
    obtain ⟨req, -, rfl⟩ := toOption_map_some hrequest
    exact short_errorOnly (FileUploadResponse.mk e)
  | download =>
    obtain ⟨req, -, rfl⟩ := toOption_map_some hrequest
    exact (length_fileDownloadResponse [] e).trans_lt (by decide)
  | friendRequest | friendAccept | friendReject =>
    obtain ⟨req, -, rfl⟩ := toOption_map_some hrequest
    exact short_errorOnly (FriendResponse.mk e)
  | friendList =>
    obtain ⟨req, -, rfl⟩ := toOption_map_some hrequest
    exact (length_friendListResponse [] [] e).trans_lt (by decide)
  | messageHistory =>
    obtain ⟨req, -, rfl⟩ := toOption_map_some hrequest
    exact (length_historyResponse [] e).trans_lt (by decide)
  | directMessage =>
    obtain ⟨req, -, rfl⟩ := toOption_map_some hrequest
    exact short_errorOnly (DirectMessageResponse.mk e)
  | chatList =>
    obtain ⟨req, -, rfl⟩ := toOption_map_some hrequest
    exact (length_chatListResponse [] e).trans_lt (by decide)
  | _ => cases hrequest

theorem actSizes_ticked (env : Env) (w : World) (login : Bytes) (packetType : PacketType)
    (body : Bytes) : actSizes env { w with store := ticked w.store } login packetType body =
      actSizes env w login packetType body := by
  cases packetType <;> rfl

theorem request_sends {env : Env} (h : Sound env w.store) (c : ConnId) {body : Bytes}
    {t : TokenRequest} (hrequest : requestOf env packetType body = some t) :
    Sends (match tokenLogin env t.token w.store with
      | some login => actSizes env w login packetType body
      | none => []) w (w.receive env c packetType body) := by
  rw [receive_request hrequest]
  cases hlogin : tokenLogin env t.token w.store with
  | none =>
    obtain ⟨e, st, -, hrun⟩ := withAccount_none t.refuse t.act hlogin
    rw [hrun]
    exact settled_ok (sends_nothing rfl) (refusal_short hrequest e)
  | some login =>
    rw [withAccount_some t.refuse t.act hlogin]
    have hticked : Sound env (ticked w.store) := Sound.ticked h
    have hsends := act_sends (c := c) (w := { w with store := ticked w.store }) hticked
      hrequest login
    rw [actSizes_ticked] at hsends
    exact hsends

end

end Messenger.BodySizes
