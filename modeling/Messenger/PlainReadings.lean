import Messenger.Refinement
import Messenger.ChatLists
import Messenger.BodySizes

/-!
What users read. A FRIEND_LIST, MESSAGE_HISTORY or CHAT_LIST that is answered, and the
backlog that a welcome hands over, show the friends and letters of the plain messenger; ids,
rows and their order in a table do not show through. Texts come up to their first NUL, and a
history comes from its beginning.
-/
namespace Messenger.PlainReadings

open Outcomes ClientSession UserRepository FriendRepository MessageRepository FriendStates
  HandlerActions HandlePacket ServerSteps TokenIdentity TokenRequests TableSteps Conversations
  BodySizes ExpectedAccesses PlainMessenger Representations Refinement

section

variable {env : Env} {st : Store} {m : Plain}

theorem nameOf_eq_loginOf (h : Represents env st m) {id : ℤ} (hid : hasUser st id) :
    nameOf st id = loginOf st id := by
  obtain ⟨u, hu⟩ := Option.isSome_iff_exists.mp hid
  rw [loginOf_of_findUser hu]
  simp only [nameOf, getLoginById, hu]
  exact nulFree_of_mem h (List.mem_of_find?_eq_some hu)

theorem map_nameOf (h : Represents env st m) {ids : List ℤ} (hids : ∀ id ∈ ids, hasUser st id) :
    ids.map (nameOf st) = ids.map (loginOf st) :=
  List.map_congr_left fun id hid => nameOf_eq_loginOf h (hids id hid)

theorem mem_map_loginOf (h : Represents env st m) {ids : List ℤ}
    (hids : ∀ id ∈ ids, hasUser st id) {id : ℤ} (hid : hasUser st id) :
    loginOf st id ∈ ids.map (loginOf st) ↔ id ∈ ids := by
  rw [List.mem_map]
  constructor
  · rintro ⟨id', hmem, hsame⟩
    rwa [← loginOf_injOn (distinctLogins h) (hids id' hmem) hid hsame]
  · exact fun hmem => ⟨id, hmem, rfl⟩

/-- The lists of ids are the lists of logins that the map of friends gives. -/
theorem showsFriends (h : Represents env st m) {login : Bytes} {id : ℤ} (hid : hasUser st id)
    (hname : loginOf st id = login)
    (hfriends : ∀ x ∈ getFriends id st, hasUser st x)
    (hasking : ∀ x ∈ getPendingIncoming id st, hasUser st x) :
    ShowsFriends m login ((getFriends id st).map (loginOf st))
      ((getPendingIncoming id st).map (loginOf st)) := by
  have hinj := loginOf_injOn (distinctLogins h)
  have hn := h.sound.normalised
  -- nobody but users is on either side
  have named : ∀ x, m.friends s(login, x) ≠ .none → ∃ y, hasUser st y ∧ loginOf st y = x := by
    intro x hne
    obtain ⟨y, -, hy, hname⟩ := getIdByLogin_of_registered h (h.wellFormed.friends _ _ hne).2
    exact ⟨y, hy, hname⟩
  refine ⟨(FriendLists.getFriends_nodup hn id).map_on fun x hx y hy =>
      hinj (hfriends x hx) (hfriends y hy),
    (FriendLists.getPendingIncoming_nodup hn id).map_on fun x hx y hy =>
      hinj (hasking x hx) (hasking y hy), fun x => ?_, fun x => ?_⟩
  · constructor
    · intro hx
      obtain ⟨y, hy, rfl⟩ := List.mem_map.mp hx
      rw [← hname, h.friends.names id hid y (hfriends y hy),
        (FriendLists.mem_getFriends_iff hn).mp hy]
      rfl
    · intro hx
      obtain ⟨y, hy, rfl⟩ := named x (by rw [hx]; exact nofun)
      rw [mem_map_loginOf h hfriends hy, FriendLists.mem_getFriends_iff hn]
      rw [← hname, h.friends.names id hid y hy] at hx
      cases hstate : friendMap st.db.friendships.rows s(id, y) with
      | accepted => rfl
      | none | pending =>
        rw [hstate] at hx
        cases hx
  · constructor
    · intro hx
      obtain ⟨y, hy, rfl⟩ := List.mem_map.mp hx
      obtain ⟨hne, hpending⟩ := (FriendLists.mem_getPendingIncoming_iff hn).mp hy
      refine ⟨fun hsame => hne (hinj hid (hasking y hy) (hname.trans hsame.symm)), ?_⟩
      rw [← hname, h.friends.names id hid y (hasking y hy), hpending]
      rfl
    · rintro ⟨hne, hx⟩
      obtain ⟨y, hy, rfl⟩ := named x (by rw [hx]; exact nofun)
      rw [mem_map_loginOf h hasking hy, FriendLists.mem_getPendingIncoming_iff hn]
      refine ⟨fun hsame => hne (by rw [← hsame, hname]), ?_⟩
      rw [← hname, h.friends.names id hid y hy] at hx
      cases hstate : friendMap st.db.friendships.rows s(id, y) with
      | pending i =>
        rw [hstate] at hx
        have hi := h.friends.within id hid y hy i hstate
        have hsame : loginOf st i = loginOf st y := by injection hx
        rw [hinj hi hy hsame]
      | none | accepted =>
        rw [hstate] at hx
        cases hx

/-- A row and its letter, between users. -/
structure Kept (st : Store) (r : DirectMessageRow) (x : Letter Bytes Bytes) : Prop where
  keeps : Keeps st r x
  sender : hasUser st r.sender
  recipient : hasUser st r.recipient

theorem forall₂_kept (h : Represents env st m) :
    List.Forall₂ (Kept st) st.db.directMessages.rows m.letters := by
  refine List.forall₂_iff_get.mpr ⟨h.letters.length_eq, fun i hi hi' => ?_⟩
  obtain ⟨hsender, hrecipient⟩ := h.sound.corresponding _ (List.get_mem _ ⟨i, hi⟩)
  exact ⟨(List.forall₂_iff_get.mp h.letters).2 i hi hi', hsender, hrecipient⟩

/-- Rows sorted by time are letters sorted by time. -/
theorem exists_told (env : Env) {rows : List DirectMessageRow} {letters : List (Letter Bytes Bytes)}
    (h : List.Forall₂ (Kept st) rows letters) :
    ∃ told, List.Forall₂ (Kept st) (env.sqlite.orderBy DirectMessageRow.createAt rows) told ∧
      told.Perm letters ∧ told.Pairwise (fun x y => x.time ≤ y.time) := by
  obtain ⟨told, hkept, hperm⟩ := List.perm_comp_forall₂ (env.sqlite.orderBy_perm _ rows) h
  refine ⟨told, hkept, hperm, ?_⟩
  have htimes : (env.sqlite.orderBy DirectMessageRow.createAt rows).map DirectMessageRow.createAt =
      told.map Letter.time := by
    rw [← List.forall₂_eq_eq_eq, List.forall₂_map_left_iff, List.forall₂_map_right_iff]
    exact hkept.imp fun r x hrx => hrx.keeps.time
  have hsorted := List.pairwise_map.mpr
    (env.sqlite.orderBy_sorted DirectMessageRow.createAt rows)
  rw [htimes] at hsorted
  exact List.pairwise_map.mp hsorted

/-- Who a row is from and for is who its letter is from and for. -/
theorem Kept.names (h : Represents env st m) {r : DirectMessageRow} {x : Letter Bytes Bytes}
    (hkept : Kept st r x) {id : ℤ} (hid : hasUser st id) :
    (r.sender = id ↔ x.sender = loginOf st id) ∧
      (r.recipient = id ↔ x.recipient = loginOf st id) := by
  have hinj := loginOf_injOn (distinctLogins h)
  rw [← hkept.keeps.sender, ← hkept.keeps.recipient]
  exact ⟨(hinj.eq_iff hkept.sender hid).symm, (hinj.eq_iff hkept.recipient hid).symm⟩

theorem Kept.between_iff (h : Represents env st m) {r : DirectMessageRow}
    {x : Letter Bytes Bytes} (hkept : Kept st r x) {a b : ℤ} (ha : hasUser st a)
    (hb : hasUser st b) :
    between a b r = true ↔ x.Between (loginOf st a) (loginOf st b) := by
  rw [Conversations.between_iff]
  exact or_congr (and_congr (hkept.names h ha).1 (hkept.names h hb).2)
    (and_congr (hkept.names h hb).1 (hkept.names h ha).2)

/-- A letter as it is read back. -/
def historyLine (x : Letter Bytes Bytes) : HistoryEntry :=
  ⟨x.sender, getText x.text, Int64.ofInt x.time⟩

theorem Kept.historyLine (h : Represents env st m) {r : DirectMessageRow}
    {x : Letter Bytes Bytes} (hkept : Kept st r x) :
    historyEntry st (readBack r) = PlainReadings.historyLine x := by
  have hname := nameOf_eq_loginOf h hkept.sender
  rw [hkept.keeps.sender] at hname
  have hentry : historyEntry st (readBack r) =
      ⟨nameOf st r.sender, getText r.message, Int64.ofInt r.createAt⟩ := rfl
  rw [hentry, hname, hkept.keeps.text, hkept.keeps.time, PlainReadings.historyLine]

theorem tellsBeginning (h : Represents env st m) {a b : ℤ} (ha : hasUser st a)
    (hb : hasUser st b) (n : ℕ) :
    ∃ shown, (getHistory env a b n st).map (historyEntry st) = shown.map historyLine ∧
      TellsBeginning m (loginOf st a) (loginOf st b) n shown := by
  have hrows : List.Forall₂ (Kept st) (st.db.directMessages.rows.filter (between a b))
      (m.conversation (loginOf st a) (loginOf st b)) := by
    refine List.rel_filter (fun r x hkept => ?_) (forall₂_kept h)
    exact (hkept.between_iff h ha hb).trans decide_eq_true_iff.symm
  obtain ⟨told, hkept, hperm, htimes⟩ := exists_told env hrows
  refine ⟨told.take n, ?_, told, hperm, htimes, rfl⟩
  rw [getHistory_eq, inOrder, List.map_take, List.map_take, List.map_map]
  refine congrArg (List.take n) ?_
  rw [← List.forall₂_eq_eq_eq, List.forall₂_map_left_iff, List.forall₂_map_right_iff]
  exact hkept.imp fun r x hrx => hrx.historyLine h

theorem Kept.mine (h : Represents env st m) {r : DirectMessageRow} {x : Letter Bytes Bytes}
    (hkept : Kept st r x) {a : ℤ} (ha : hasUser st a) :
    (r.sender = a ∨ r.recipient = a ↔ x.sender = loginOf st a ∨ x.recipient = loginOf st a) ∧
      hasUser st (peerOf a r) ∧ loginOf st (peerOf a r) = x.correspondent (loginOf st a) := by
  obtain ⟨hsender, hrecipient⟩ := hkept.names h ha
  refine ⟨or_congr hsender hrecipient, ?_⟩
  unfold peerOf Letter.correspondent
  by_cases hmine : r.sender = a
  · rw [if_pos hmine, if_pos (hsender.mp hmine)]
    exact ⟨hkept.recipient, hkept.keeps.recipient⟩
  · rw [if_neg hmine, if_neg (mt hsender.mpr hmine)]
    exact ⟨hkept.sender, hkept.keeps.sender⟩

theorem exists_letter (h : Represents env st m) {r : DirectMessageRow}
    (hr : r ∈ st.db.directMessages.rows) : ∃ x ∈ m.letters, Kept st r x := by
  obtain ⟨i, hi, rfl⟩ := List.getElem_of_mem hr
  have hkept := forall₂_kept h
  have hi' : i < m.letters.length := hkept.length_eq ▸ hi
  exact ⟨m.letters[i], List.getElem_mem hi', (List.forall₂_iff_get.mp hkept).2 i hi hi'⟩

theorem exists_row (h : Represents env st m) {x : Letter Bytes Bytes} (hx : x ∈ m.letters) :
    ∃ r ∈ st.db.directMessages.rows, Kept st r x := by
  obtain ⟨i, hi, rfl⟩ := List.getElem_of_mem hx
  have hkept := forall₂_kept h
  have hi' : i < st.db.directMessages.rows.length := hkept.length_eq.symm ▸ hi
  exact ⟨_, List.getElem_mem hi', (List.forall₂_iff_get.mp hkept).2 i hi' hi⟩

def chatLine (login : Bytes) (x : Letter Bytes Bytes) : ChatListEntry :=
  ⟨x.correspondent login, getText x.text, Int64.ofInt x.time⟩

theorem Kept.chatLine (h : Represents env st m) {r : DirectMessageRow} {x : Letter Bytes Bytes}
    (hkept : Kept st r x) {a : ℤ} (ha : hasUser st a) :
    chatEntry (Reports.lastMessage a st r) = PlainReadings.chatLine (loginOf st a) x := by
  obtain ⟨-, hpeer, hcorrespondent⟩ := hkept.mine h ha
  have hname := nameOf_eq_loginOf h hpeer
  rw [hcorrespondent] at hname
  have hentry : chatEntry (Reports.lastMessage a st r) =
      ⟨nameOf st (peerOf a r), getText r.message, Int64.ofInt r.createAt⟩ := rfl
  rw [hentry, hname, hkept.keeps.text, hkept.keeps.time, PlainReadings.chatLine]

theorem showsChats (h : Represents env st m) {a : ℤ} (ha : hasUser st a) :
    ∃ shown, (getLastMessages env a st).map chatEntry = shown.map (chatLine (loginOf st a)) ∧
      ShowsChats m (loginOf st a) shown := by
  have hperm := env.sqlite.orderBy_perm (fun r => -r.createAt) (lastRows env a st)
  have hsorted := env.sqlite.orderBy_sorted (fun r => -r.createAt) (lastRows env a st)
  rw [Reports.getLastMessages_eq]
  generalize env.sqlite.orderBy (fun r => -r.createAt) (lastRows env a st) = rows
    at hperm hsorted
  have hlatest : ∀ r ∈ rows, _ := fun r hr => Reports.latest_of_lastRows (hperm.subset hr)
  have : Nonempty (Letter Bytes Bytes) := ⟨⟨[], [], [], 0, false⟩⟩
  choose! letter hletter using fun r (hr : r ∈ rows) => exists_letter h (hlatest r hr).1.1
  refine ⟨rows.map letter, ?_, ?_, ?_, ?_, ?_⟩
  · rw [List.map_map, List.map_map]
    exact List.map_congr_left fun r hr => (hletter r hr).2.chatLine h ha
  · refine List.forall_mem_map.mpr fun r hr => ⟨(hletter r hr).1, ?_⟩
    exact ((hletter r hr).2.mine h ha).1.mp (hlatest r hr).1.2
  · have hpeers : (rows.map letter).map (Letter.correspondent (loginOf st a)) =
        (rows.map (peerOf a)).map (loginOf st) := by
      rw [List.map_map, List.map_map]
      exact List.map_congr_left fun r hr => (((hletter r hr).2.mine h ha).2.2).symm
    rw [hpeers]
    refine ((hperm.map (peerOf a)).nodup_iff.mpr ChatLists.lastRows_peers_nodup).map_on ?_
    intro x hx y hy hsame
    obtain ⟨r, hr, rfl⟩ := List.mem_map.mp hx
    obtain ⟨r', hr', rfl⟩ := List.mem_map.mp hy
    exact loginOf_injOn (distinctLogins h) ((hletter r hr).2.mine h ha).2.1
      ((hletter r' hr').2.mine h ha).2.1 hsame
  · intro y hy hown
    obtain ⟨own, hmem, hkept⟩ := exists_row h hy
    obtain ⟨hmine, -, hcorrespondent⟩ := hkept.mine h ha
    obtain ⟨r, hr, hpeer⟩ := exists_shown env hmem (between_of_peerOf (hmine.mpr hown) rfl)
    have hr := hperm.symm.subset hr
    refine ⟨letter r, List.mem_map_of_mem hr, ?_, ?_⟩
    · rw [← hcorrespondent, ← ((hletter r hr).2.mine h ha).2.2, hpeer]
    · rw [← hkept.keeps.time, ← (hletter r hr).2.keeps.time]
      exact (hlatest r hr).2 own hmem (hmine.mpr hown) hpeer.symm
  · rw [List.pairwise_map]
    refine hsorted.imp_of_mem fun hr hr' hle => ?_
    rw [← (hletter _ hr).2.keeps.time, ← (hletter _ hr').2.keeps.time]
    exact neg_le_neg_iff.mp hle

/-- What hands a letter over on a connection. -/
def letterPacket (c : ConnId) (x : Letter Bytes Bytes) : ConnId × PacketType × Bytes :=
  (c, .directMessage, serialize (DirectMessageIncoming.mk x.sender (getText x.text)
    (Int64.ofInt x.time)))

theorem Kept.letterPacket (h : Represents env st m) {r : DirectMessageRow}
    {x : Letter Bytes Bytes} (hkept : Kept st r x) (c : ConnId) (asLogin : Bytes) :
    let p := backlogPacket st c asLogin ⟨r.id, r.sender, r.createAt, getText r.message⟩
    (p.conn, p.packetType, p.body) = PlainReadings.letterPacket c x := by
  obtain ⟨u, hu⟩ := Option.isSome_iff_exists.mp hkept.sender
  have hname := nulFree_of_mem h (List.mem_of_find?_eq_some hu)
  have hsender := hkept.keeps.sender
  rw [loginOf_of_findUser hu] at hsender
  rw [hsender] at hname
  simp only [backlogPacket, PlainReadings.letterPacket, getLoginById, hu, hname, hsender,
    ← hkept.keeps.text, ← hkept.keeps.time]

theorem handsWaiting (h : Represents env st m) {login : Bytes} (hlogin : m.Registered login)
    (c : ConnId) (asLogin : Bytes) :
    ∃ shown, ((backlog env login st).map (backlogPacket st c asLogin)).map
        (fun p => (p.conn, p.packetType, p.body)) = shown.map (letterPacket c) ∧
      HandsWaiting m login shown := by
  obtain ⟨id, hid, huser, rfl⟩ := getIdByLogin_of_registered h hlogin
  have hrows : List.Forall₂ (Kept st) (undeliveredRows id st)
      (m.letters.filter fun x => decide (x.recipient = loginOf st id) && x.waiting) := by
    refine List.rel_filter (fun r x hkept => ?_) (forall₂_kept h)
    have hmine := (hkept.names h huser).2
    have hdelivered := hkept.keeps.waiting
    cases hwaiting : x.waiting with
    | true =>
      rw [hwaiting, if_pos rfl] at hdelivered
      simp [hdelivered, hmine, hwaiting]
    | false =>
      rw [hwaiting, if_neg Bool.false_ne_true] at hdelivered
      simp [hdelivered, hwaiting]
  obtain ⟨told, hkept, hperm, htimes⟩ := exists_told env hrows
  refine ⟨told, ?_, hperm, htimes⟩
  simp only [backlog, hid, getUndelivered, List.map_map]
  rw [← List.forall₂_eq_eq_eq, List.forall₂_map_left_iff, List.forall₂_map_right_iff]
  exact hkept.imp fun r x hrx => hrx.letterPacket h c asLogin

end

/-- What the packets of one connection are answered with, and what comes with a welcome. -/
structure ReadsFrom (env : Env) (w : World) (m : Plain) (c : ConnId) : Prop where
  friends : ∀ body req login, deserialize FriendListRequest body = .ok req →
    m.holder tokenTtl req.token (env.clock w.store.clockReads) = some login →
    ∃ friends asking, AnsweredWith env w c .friendList body
        (.friendList ⟨friends, asking, Error.Base.ok⟩) ∧
      ShowsFriends m login friends asking
  history : ∀ body req login, deserialize HistoryRequest body = .ok req →
    m.holder tokenTtl req.token (env.clock w.store.clockReads) = some login →
    m.Registered req.peerLogin →
    ∃ shown, AnsweredWith env w c .messageHistory body
        (.history ⟨shown.map historyLine, Error.Base.ok⟩) ∧
      TellsBeginning m login req.peerLogin 100 shown
  chats : ∀ body req login, deserialize ChatListRequest body = .ok req →
    m.holder tokenTtl req.token (env.clock w.store.clockReads) = some login →
    ∃ shown, AnsweredWith env w c .chatList body
        (.chatList ⟨shown.map (chatLine login), Error.Base.ok⟩) ∧
      ShowsChats m login shown
  welcome : ∀ packetType body login w', NulFreeLogin packetType body →
    authenticatesAs env w packetType body = some login →
    (handlePacket env c packetType body).run w = .ok () w' →
    ∃ (shown : List (Letter Bytes Bytes)) (new : List Sent) (r : Response),
      HandsWaiting m login shown ∧ w'.sent = w.sent ++ new ∧
      new.map (fun p => (p.conn, p.packetType, p.body)) =
        shown.map (letterPacket c) ++ [(c, .result, r.serialize)]

section

variable {env : Env} {w : World} {m : Plain} {c : ConnId} {body : Bytes}

theorem friends_read (hclock : Monotone env.clock) (h : Represents env w.store m)
    (hlive : (w.sessions c).isSome) {req : FriendListRequest}
    (hreq : deserialize FriendListRequest body = .ok req) {login : Bytes}
    (hholder : m.holder tokenTtl req.token (env.clock w.store.clockReads) = some login) :
    ∃ friends asking, AnsweredWith env w c .friendList body
        (.friendList ⟨friends, asking, Error.Base.ok⟩) ∧
      ShowsFriends m login friends asking := by
  have hticked := h.ticked hclock
  obtain ⟨id, hid, huser, hname⟩ := getIdByLogin_of_registered hticked
    (holder_registered h.wellFormed hholder)
  have hrequest : requestOf env .friendList body =
      some ⟨req.token, fun e => .friendList ⟨[], [], e⟩, friendListAct⟩ := by
    rw [requestOf, hreq]
    rfl
  have hfriends := users_of_getFriends (w := { w with store := ticked w.store }) hticked.sound id
  have hasking :=
    users_of_getPendingIncoming (w := { w with store := ticked w.store }) hticked.sound id
  refine ⟨_, _, (answered_iff_outcome hlive hrequest
    ((tokenLogin_eq_holder h _).trans hholder) _).mpr ?_, showsFriends hticked huser hname
      hfriends hasking⟩
  rw [friendListAct_run]
  simp only [friendListAnswer, hid, expectValue, ok_bind, loginsIn_eq hfriends,
    loginsIn_eq hasking, map_nameOf hticked hfriends, map_nameOf hticked hasking]
  rfl

theorem history_read (hclock : Monotone env.clock) (h : Represents env w.store m)
    (hlive : (w.sessions c).isSome) {req : HistoryRequest}
    (hreq : deserialize HistoryRequest body = .ok req) {login : Bytes}
    (hholder : m.holder tokenTtl req.token (env.clock w.store.clockReads) = some login)
    (hpeer : m.Registered req.peerLogin) :
    ∃ shown, AnsweredWith env w c .messageHistory body
        (.history ⟨shown.map historyLine, Error.Base.ok⟩) ∧
      TellsBeginning m login req.peerLogin 100 shown := by
  have hticked := h.ticked hclock
  obtain ⟨a, ha, hauser, rfl⟩ := getIdByLogin_of_registered hticked
    (holder_registered h.wellFormed hholder)
  obtain ⟨b, hb, hbuser, hbname⟩ := getIdByLogin_of_registered hticked hpeer
  have hrequest : requestOf env .messageHistory body =
      some ⟨req.token, fun e => .history ⟨[], e⟩, historyAct env req.peerLogin⟩ := by
    rw [requestOf, hreq]
    rfl
  obtain ⟨shown, hshown, htells⟩ := tellsBeginning hticked hauser hbuser 100
  rw [hbname] at htells
  refine ⟨shown, (answered_iff_outcome hlive hrequest
    ((tokenLogin_eq_holder h _).trans hholder) _).mpr ?_, htells⟩
  rw [historyAct_run,
    historyAnswer_eq (w := { w with store := ticked w.store }) hticked.sound ha hb]
  exact congrArg (fun entries => Except.ok (Response.history ⟨entries, Error.Base.ok⟩)) hshown

theorem chats_read (hclock : Monotone env.clock) (h : Represents env w.store m)
    (hlive : (w.sessions c).isSome) {req : ChatListRequest}
    (hreq : deserialize ChatListRequest body = .ok req) {login : Bytes}
    (hholder : m.holder tokenTtl req.token (env.clock w.store.clockReads) = some login) :
    ∃ shown, AnsweredWith env w c .chatList body
        (.chatList ⟨shown.map (chatLine login), Error.Base.ok⟩) ∧
      ShowsChats m login shown := by
  have hticked := h.ticked hclock
  obtain ⟨a, ha, hauser, rfl⟩ := getIdByLogin_of_registered hticked
    (holder_registered h.wellFormed hholder)
  have hrequest : requestOf env .chatList body =
      some ⟨req.token, fun e => .chatList ⟨[], e⟩, chatListAct env⟩ := by
    rw [requestOf, hreq]
    rfl
  obtain ⟨shown, hshown, hchats⟩ := showsChats hticked hauser
  refine ⟨shown, (answered_iff_outcome hlive hrequest
    ((tokenLogin_eq_holder h _).trans hholder) _).mpr ?_, hchats⟩
  have hanswer : chatListAnswer env (loginOf (ticked w.store) a)
      (World.store { w with store := ticked w.store }) = _ := chatListAnswer_eq ha
  rw [chatListAct_run, hanswer]
  exact congrArg (fun entries => Except.ok (Response.chatList ⟨entries, Error.Base.ok⟩)) hshown

/-- Nothing is written by those who register, log in or show a token. -/
theorem letters_of_authenticating (env : Env) (w : World) (m : Plain) (body : Bytes)
    {packetType : PacketType} (hauth : Authenticating packetType) :
    (LabelledRuns.run (State.step tokenTtl) m
      ((plainRequest packetType body).map (ask env w.store)).toList).letters = m.letters := by
  cases hplain : plainRequest packetType body with
  | none => rfl
  | some q =>
    change (m.step tokenTtl (ask env w.store q)).letters = m.letters
    rcases hauth with rfl | rfl | rfl
    · obtain ⟨req, -, rfl⟩ := toOption_map_some hplain
      simp only [State.step, ask]
      split <;> rfl
    · obtain ⟨req, -, rfl⟩ := toOption_map_some hplain
      simp only [State.step, ask]
      split <;> rfl
    · obtain ⟨req, -, rfl⟩ := toOption_map_some hplain
      rfl

theorem welcome_read (hclock : Monotone env.clock) (hsha : Function.Injective (sha256 env))
    (h : Represents env w.store m) (hlive : (w.sessions c).isSome) {packetType : PacketType}
    (hnul : NulFreeLogin packetType body) {login : Bytes}
    (hlogin : authenticatesAs env w packetType body = some login) {w' : World}
    (hrun : (handlePacket env c packetType body).run w = .ok () w') :
    ∃ (shown : List (Letter Bytes Bytes)) (new : List Sent) (r : Response),
      HandsWaiting m login shown ∧ w'.sent = w.sent ++ new ∧
      new.map (fun p => (p.conn, p.packetType, p.body)) =
        shown.map (letterPacket c) ++ [(c, .result, r.serialize)] := by
  obtain ⟨r, st, token, hend, -, hquiet, -⟩ :=
    Authentications.accepted_of_authenticatesAs h.sound c hlogin
  have hswitch := switch_represents hclock hsha c h hnul
  rw [hend] at hswitch
  change Represents env st _ at hswitch
  have hwelcome := Authentications.accepted_welcoming h.sound hlive hquiet hend
  rw [hrun] at hwelcome
  cases hwelcome with
  | welcomed hknown _ =>
    obtain ⟨shown, hshown, hwaits⟩ := handsWaiting hswitch
      ((registered_iff_findLogin hswitch).mpr hknown) c login
    have hletters := letters_of_authenticating env w m body
      (authenticating_of_authenticatesAs hlogin)
    unfold HandsWaiting at hwaits
    rw [hletters] at hwaits
    refine ⟨shown, (backlog env login st).map (backlogPacket st c login) ++
      [⟨c, .result, r.serialize, .result packetType r,
        (welcomed env (withToken w c st token) c login).currentLogin c⟩], r, hwaits, ?_, ?_⟩
    · rw [withAnswer, welcomed_sent env (isSome_withToken hlive st token), List.append_assoc]
      rfl
    · rw [List.map_append, hshown]
      rfl

end

/-- After every run, what users are answered when they read, and what they are handed when
they are welcomed, is what the plain messenger shows them. -/
theorem readings_of_messenger (env : Env) (hclock : Monotone env.clock)
    (hsha : Function.Injective (sha256 env)) (files : ℕ → Option Bytes) (events : List Event)
    (hnul : ∀ e ∈ events, NulFreeEvent e) (c : ConnId)
    (hlive : ((LabelledRuns.run (World.step env) (World.initial env files) events).sessions
      c).isSome) :
    ReadsFrom env (LabelledRuns.run (World.step env) (World.initial env files) events)
      (played env files events) c := by
  have h := represents_run hclock hsha files hnul
  exact ⟨fun body req login hreq hholder => friends_read hclock h hlive hreq hholder,
    fun body req login hreq hholder hpeer => history_read hclock h hlive hreq hholder hpeer,
    fun body req login hreq hholder => chats_read hclock h hlive hreq hholder,
    fun packetType body login w' hfree hlogin hrun =>
      welcome_read hclock hsha h hlive hfree hlogin hrun⟩

/-- "c" has befriended "a". -/
theorem readings_of_messenger_friends :
    ∃ friends asking, AnsweredWith Env.plain
        (LabelledRuns.run (World.step Env.plain) (World.initial Env.plain fun _ => none) twoFriends)
        1 .friendList (serialize (FriendListRequest.mk [97, 97, 97, 97]))
        (.friendList ⟨friends, asking, Error.Base.ok⟩) ∧
      ShowsFriends (played Env.plain (fun _ => none) twoFriends) [99] friends asking :=
  (readings_of_messenger Env.plain clock_plain_monotone Registrations.sha256_plain_injective
    (fun _ => none) twoFriends nulFree_twoFriends 1 (by decide)).friends _ ⟨[97, 97, 97, 97]⟩ _ rfl
    (by decide)

end Messenger.PlainReadings
