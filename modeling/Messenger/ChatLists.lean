import Messenger.Conversations
import Messenger.UserRows

/-!
What CHAT_LIST answers, for any table. GROUP BY makes one group of each conversation, and
the bare columns of a group come from a row that attains its MAX, so HAVING keeps every
group and the answer has one entry for each user that the asking one has corresponded with,
made of a latest message. No message is between users who are gone, so every peer has a
login.
-/
namespace Messenger.ChatLists

open Outcomes ClientSession UserRepository MessageRepository FriendStates TokenIdentity
  TokenRequests TableSteps Reports Conversations UserRows

/-- An entry for the conversation with `peer`. -/
structure EntryFor (st : Store) (user : ℤ) (peer : UserRow) (entry : LastMessage) : Prop where
  login : entry.peerLogin = peer.login
  shown : ∃ r ∈ st.db.directMessages.rows, between user peer.id r = true ∧
    entry.message = r.message ∧ entry.timestamp = r.createAt
  greatest : ∀ r ∈ st.db.directMessages.rows, between user peer.id r = true →
    r.createAt ≤ entry.timestamp

/-- One entry for each user that `user` has sent a message to or received one from, the
latest conversation first. -/
structure ListsChats (st : Store) (user : ℤ) (chats : List LastMessage) : Prop where
  peers : ∃ peers : List UserRow, peers.Nodup ∧
    (∀ v, v ∈ peers ↔ v ∈ st.db.users.rows ∧
      ∃ r ∈ st.db.directMessages.rows, between user v.id r = true) ∧
    List.Forall₂ (EntryFor st user) peers chats
  order : chats.Pairwise (fun x y => y.timestamp ≤ x.timestamp)

/-- What is picked for each key, and bears it, bears distinct keys. -/
theorem map_filterMap_sublist {κ ρ : Type} {pick : κ → Option ρ} {key : ρ → κ} (keys : List κ)
    (hkey : ∀ k ∈ keys, ∀ r, pick k = some r → key r = k) :
    ((keys.filterMap pick).map key).Sublist keys := by
  induction keys with
  | nil => exact .slnil
  | cons k rest ih =>
    obtain ⟨hhead, htail⟩ := List.forall_mem_cons.mp hkey
    cases hpick : pick k with
    | none =>
      rw [List.filterMap_cons_none hpick]
      exact (ih htail).cons k
    | some r =>
      rw [List.filterMap_cons_some hpick, List.map_cons, hhead r hpick]
      exact (ih htail).cons_cons k

section

variable {env : Env} {user : ℤ} {st : Store}

/-- No two rows of the query are of one group. -/
theorem lastRows_peers_nodup : ((lastRows env user st).map (peerOf user)).Nodup := by
  refine (map_filterMap_sublist _ fun peer hpeer r hpick => ?_).nodup (List.nodup_dedup _)
  obtain ⟨own, hown, hpeerOf⟩ := List.mem_map.mp (List.mem_dedup.mp hpeer)
  obtain ⟨bare, hbare, hattains, -⟩ := env.sqlite.maxRow_attains DirectMessageRow.createAt
    ((st.db.directMessages.rows.filter
      (fun r => r.sender == user || r.recipient == user)).filter (fun r => peerOf user r == peer))
    (List.ne_nil_of_mem (List.mem_filter.mpr ⟨hown, beq_iff_eq.mpr hpeerOf⟩))
  cases hattains.symm.trans (Option.filter_eq_some_iff.mp hpick).1
  exact beq_iff_eq.mp (List.mem_filter.mp hbare).2

theorem between_peerOf {r : DirectMessageRow} (hown : r.sender = user ∨ r.recipient = user) :
    between user (peerOf user r) r = true := between_of_peerOf hown rfl

/-- The peer of a stored message is one of its two users. -/
theorem exists_peer (hsound : Sound env st) {r : DirectMessageRow}
    (hr : r ∈ st.db.directMessages.rows) : ∃ v, st.db.findUser (peerOf user r) = some v := by
  obtain ⟨hsender, hrecipient⟩ := hsound.corresponding r hr
  unfold peerOf
  split
  · exact Option.isSome_iff_exists.mp hrecipient
  · exact Option.isSome_iff_exists.mp hsender

theorem id_of_findUser {id : ℤ} {v : UserRow} (h : st.db.findUser id = some v) :
    v ∈ st.db.users.rows ∧ v.id = id :=
  ⟨List.mem_of_find?_eq_some h, by simpa using List.find?_some h⟩

/-- What is made of a row of the query, when the texts go through `getText` unharmed. -/
theorem entryFor_lastMessage (hlogins : ∀ v ∈ st.db.users.rows, 0 ∉ v.login)
    (htexts : ∀ r ∈ st.db.directMessages.rows, 0 ∉ r.message) {r : DirectMessageRow}
    (hr : r ∈ lastRows env user st) {v : UserRow} (hv : st.db.findUser (peerOf user r) = some v) :
    EntryFor st user v (lastMessage user st r) := by
  obtain ⟨⟨hrow, hown⟩, hlatest⟩ := latest_of_lastRows hr
  obtain ⟨hvrow, hid⟩ := id_of_findUser hv
  refine ⟨?_, ⟨r, hrow, ?_, (getText_eq_self_iff _).mpr (htexts r hrow), rfl⟩, ?_⟩
  · simp only [lastMessage, getLoginById, hv]
    exact (getText_eq_self_iff _).mpr (hlogins v hvrow)
  · rw [hid]
    exact between_peerOf hown
  · intro other hother hbetween
    obtain ⟨hotherOwn, hpeer⟩ := peerOf_of_between hbetween
    exact hlatest other hother hotherOwn (hpeer.trans hid)

/-- Entries stand in the order of the rows, each beside the user it names. -/
theorem forall₂_entries {rows : List DirectMessageRow}
    (h : ∀ r ∈ rows, ∃ v, st.db.findUser (peerOf user r) = some v ∧
      EntryFor st user v (lastMessage user st r)) :
    List.Forall₂ (EntryFor st user) (rows.filterMap fun r => st.db.findUser (peerOf user r))
      (rows.map (lastMessage user st)) := by
  induction rows with
  | nil => exact .nil
  | cons r rest ih =>
    obtain ⟨⟨v, hv, hentry⟩, hrest⟩ := List.forall_mem_cons.mp h
    have hcons : (r :: rest).filterMap (fun r => st.db.findUser (peerOf user r)) =
        v :: rest.filterMap fun r => st.db.findUser (peerOf user r) :=
      List.filterMap_cons_some hv
    rw [hcons, List.map_cons]
    exact .cons hentry (ih hrest)

theorem listsChats_getLastMessages (hsound : Sound env st)
    (hlogins : ∀ v ∈ st.db.users.rows, 0 ∉ v.login)
    (htexts : ∀ r ∈ st.db.directMessages.rows, 0 ∉ r.message) :
    ListsChats st user (getLastMessages env user st) := by
  rw [getLastMessages_eq]
  have hperm := env.sqlite.orderBy_perm (fun r => -r.createAt) (lastRows env user st)
  have hsorted := env.sqlite.orderBy_sorted (fun r => -r.createAt) (lastRows env user st)
  generalize env.sqlite.orderBy (fun r => -r.createAt) (lastRows env user st) = rows
    at hperm hsorted
  have hpeers : ∀ r ∈ rows, ∃ v, st.db.findUser (peerOf user r) = some v :=
    fun r hr => exists_peer hsound (latest_of_lastRows (hperm.subset hr)).1.1
  constructor
  · refine ⟨rows.filterMap fun r => st.db.findUser (peerOf user r), ?_, ?_, ?_⟩
    · have hkeys : ((rows.map (peerOf user)).filterMap st.db.findUser).Nodup := by
        have hnodup := (hperm.map (peerOf user)).nodup_iff.mpr lastRows_peers_nodup
        refine List.Nodup.of_map UserRow.id
          ((map_filterMap_sublist _ fun id _ v hv => ?_).nodup hnodup)
        exact (id_of_findUser hv).2
      rwa [List.filterMap_map] at hkeys
    · intro v
      rw [List.mem_filterMap]
      constructor
      · rintro ⟨r, hr, hv⟩
        obtain ⟨hvrow, hid⟩ := id_of_findUser hv
        obtain ⟨⟨hrow, hown⟩, -⟩ := latest_of_lastRows (hperm.subset hr)
        exact ⟨hvrow, r, hrow, hid ▸ between_peerOf hown⟩
      · rintro ⟨hvrow, own, hown, hbetween⟩
        obtain ⟨r, hr, hpeer⟩ := exists_shown env hown hbetween
        exact ⟨r, hperm.symm.subset hr, by rw [hpeer, findUser_of_mem hvrow]⟩
    · refine forall₂_entries fun r hr => ?_
      obtain ⟨v, hv⟩ := hpeers r hr
      exact ⟨v, hv, entryFor_lastMessage hlogins htexts (hperm.subset hr) hv⟩
  · rw [List.pairwise_map]
    exact hsorted.imp fun hle => neg_le_neg_iff.mp hle

end

/-- In every reachable state without NULs in logins and texts, a CHAT_LIST with a valid
token of a user is answered with one entry for each user that this one has sent a direct
message to or received one from, and no other: its login, the latest time of the
conversation and the text of a message of that time, latest conversation first. -/
theorem chat_list_answered {env : Env} {w : World} (hreach : World.Reachable env w)
    (hlogins : ∀ v ∈ w.store.db.users.rows, 0 ∉ v.login)
    (htexts : ∀ r ∈ w.store.db.directMessages.rows, 0 ∉ r.message) {user : UserRow}
    (huser : user ∈ w.store.db.users.rows) {c : ConnId} (hlive : (w.sessions c).isSome)
    {body : Bytes} {req : ChatListRequest} (hreq : deserialize ChatListRequest body = .ok req)
    (htoken : tokenLogin env req.token w.store = some user.login) :
    ∃ chats, AnsweredWith env w c .chatList body
        (.chatList ⟨chats.map chatEntry, Error.Base.ok⟩) ∧
      ListsChats w.store user.id chats := by
  refine ⟨getLastMessages env user.id w.store, ?_,
    listsChats_getLastMessages (sound_reachable hreach) hlogins htexts⟩
  have hrequest : requestOf env .chatList body =
      some ⟨req.token, fun e => .chatList ⟨[], e⟩, chatListAct env⟩ := by
    simp only [requestOf, hreq]
    rfl
  refine (answered_iff_outcome hlive hrequest htoken _).mpr ?_
  have hid : getIdByLogin user.login (ticked w.store) = .ok user.id :=
    getIdByLogin_of_mem (distinctLogins_reachable hreach) huser
  rw [chatListAct_run, chatListAnswer_eq hid]
  rfl

theorem chat_list_answered_two_messages :
    ∃ user ∈ wroteTwice.store.db.users.rows, ∃ chats, user.login = [97] ∧
      AnsweredWith Env.plain wroteTwice 0 .chatList (serialize (ChatListRequest.mk [97, 97]))
        (.chatList ⟨chats.map chatEntry, Error.Base.ok⟩) ∧
      ListsChats wroteTwice.store user.id chats := by
  obtain ⟨user, hfind⟩ : ∃ user, wroteTwice.store.db.findLogin [97] = some user :=
    Option.isSome_iff_exists.mp (by decide)
  have huser := List.mem_of_find?_eq_some hfind
  have hlogin := Database.login_of_findLogin hfind
  have htoken : tokenLogin Env.plain [97, 97] wroteTwice.store = some [97] := by decide
  have hreq : deserialize ChatListRequest (serialize (ChatListRequest.mk [97, 97])) =
      .ok ⟨[97, 97]⟩ := rfl
  obtain ⟨chats, hanswered, hlists⟩ := chat_list_answered (w := wroteTwice) ⟨_, _, rfl⟩
    (by decide) (by decide) huser (c := 0) (by decide) hreq
    (htoken.trans (congrArg some hlogin.symm))
  exact ⟨user, huser, chats, hlogin, hanswered, hlists⟩

end Messenger.ChatLists
