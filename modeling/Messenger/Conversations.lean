import Messenger.ExpectedAccesses
import Messenger.LongBacklogs
import Messenger.Reports
import Messenger.SortedWindows

/-!
MESSAGE_HISTORY and CHAT_LIST over one conversation. getHistory sorts by time ascending and
cuts with LIMIT, so what it keeps of a longer conversation is its beginning, and the message
that CHAT_LIST shows as the last one is not part of it.
-/
namespace Messenger.Conversations

open Outcomes ClientSession UserRepository MessageRepository FriendStates HandlePacket ServerSteps
  MessageRows TokenRequests TableSteps ExpectedAccesses LongBacklogs Reports SortedWindows

/-- `(sender = ? AND recipient = ?) OR (sender = ? AND recipient = ?)`. -/
def between (a b : ℤ) (r : DirectMessageRow) : Bool :=
  (r.sender == a && r.recipient == b) || (r.sender == b && r.recipient == a)

theorem between_iff {a b : ℤ} {r : DirectMessageRow} :
    between a b r = true ↔ (r.sender = a ∧ r.recipient = b) ∨ (r.sender = b ∧ r.recipient = a) := by
  simp [between]

/-- A row as getHistory reads it. -/
def readBack (r : DirectMessageRow) : DirectMessage :=
  ⟨r.id, r.sender, r.recipient, r.createAt, getText r.message,
    if r.delivered = 0 then false else true⟩

/-- All messages between two users, in the order of the table. -/
def conversation (a b : ℤ) (st : Store) : List DirectMessage :=
  (st.db.directMessages.rows.filter (between a b)).map readBack

def DistinctTimes (messages : List DirectMessage) : Prop :=
  messages.Pairwise (fun m m' => m.timestamp ≠ m'.timestamp)

instance (messages : List DirectMessage) : Decidable (DistinctTimes messages) :=
  inferInstanceAs (Decidable (List.Pairwise _ messages))

/-- ORDER BY create_at ASC, before LIMIT. -/
def inOrder (env : Env) (a b : ℤ) (st : Store) : List DirectMessage :=
  (env.sqlite.orderBy DirectMessageRow.createAt
    (st.db.directMessages.rows.filter (between a b))).map readBack

section

variable {env : Env} {a b : ℤ} {st : Store}

theorem getHistory_eq (n : ℕ) : getHistory env a b n st = (inOrder env a b st).take n := by
  have hlimit : ¬ ((n : ℤ) < 0) := Int.not_lt.mpr (Int.natCast_nonneg n)
  unfold inOrder
  rw [← List.map_take]
  unfold getHistory limited
  rw [if_neg hlimit]
  rfl

theorem inOrder_perm (env : Env) (a b : ℤ) (st : Store) :
    (inOrder env a b st).Perm (conversation a b st) :=
  (env.sqlite.orderBy_perm _ _).map readBack

theorem inOrder_sorted (env : Env) (a b : ℤ) (st : Store) :
    (inOrder env a b st).Pairwise (fun m m' => m.timestamp ≤ m'.timestamp) :=
  List.pairwise_map.mpr (env.sqlite.orderBy_sorted DirectMessageRow.createAt _)

/-- The cut is at the wrong end. -/
theorem newest_getHistory_iff (hdistinct : DistinctTimes (conversation a b st)) (n : ℕ) :
    Newest DirectMessage.timestamp n (conversation a b st) (getHistory env a b n st) ↔
      n = 0 ∨ (conversation a b st).length ≤ n := by
  rw [getHistory_eq]
  exact newest_take_iff (inOrder_perm env a b st) (inOrder_sorted env a b st) hdistinct n

theorem between_of_peerOf {r : DirectMessageRow} (hown : r.sender = a ∨ r.recipient = a)
    (hpeer : peerOf a r = b) : between a b r = true := by
  unfold peerOf at hpeer
  rw [between_iff]
  split at hpeer
  · exact Or.inl ⟨by assumption, hpeer⟩
  · rename_i hsender
    exact Or.inr ⟨hpeer, hown.resolve_left hsender⟩

theorem peerOf_of_between {r : DirectMessageRow} (h : between a b r = true) :
    (r.sender = a ∨ r.recipient = a) ∧ peerOf a r = b := by
  unfold peerOf
  rcases between_iff.mp h with ⟨rfl, rfl⟩ | ⟨rfl, rfl⟩
  · exact ⟨Or.inl rfl, if_pos rfl⟩
  · refine ⟨Or.inr rfl, ?_⟩
    split
    · rename_i hself
      exact hself.symm
    · rfl

/-- What CHAT_LIST shows of a conversation is a latest message of it. -/
theorem latest_of_shown {r : DirectMessageRow} (hr : r ∈ lastRows env a st)
    (hpeer : peerOf a r = b) : readBack r ∈ conversation a b st ∧
      ∀ m ∈ conversation a b st, m.timestamp ≤ (readBack r).timestamp := by
  obtain ⟨⟨hrow, hown⟩, hlatest⟩ := latest_of_lastRows hr
  refine ⟨List.mem_map_of_mem (List.mem_filter.mpr ⟨hrow, between_of_peerOf hown hpeer⟩), ?_⟩
  intro m hm
  obtain ⟨other, hother, rfl⟩ := List.mem_map.mp hm
  obtain ⟨hotherRow, hbetween⟩ := List.mem_filter.mp hother
  obtain ⟨hotherOwn, hotherPeer⟩ := peerOf_of_between hbetween
  exact hlatest other hotherRow hotherOwn (hotherPeer.trans hpeer.symm)

theorem shown_in_short_history {r : DirectMessageRow} (hr : r ∈ lastRows env a st)
    (hpeer : peerOf a r = b) {n : ℕ} (hshort : (conversation a b st).length ≤ n) :
    readBack r ∈ getHistory env a b n st := by
  rw [getHistory_eq, List.take_of_length_le ((inOrder_perm env a b st).length_eq.trans_le hshort)]
  exact (inOrder_perm env a b st).symm.subset (latest_of_shown hr hpeer).1

theorem short_of_shown_in_history {r : DirectMessageRow} (hr : r ∈ lastRows env a st)
    (hpeer : peerOf a r = b) (hdistinct : DistinctTimes (conversation a b st)) {n : ℕ}
    (hshown : readBack r ∈ getHistory env a b n st) : (conversation a b st).length ≤ n := by
  have hperm := inOrder_perm env a b st
  obtain ⟨hmem, hlatest⟩ := latest_of_shown hr hpeer
  have hstrict := strict_of_sorted (inOrder_sorted env a b st)
    ((hperm.pairwise_iff fun hne => hne.symm).mpr hdistinct)
  rw [getHistory_eq] at hshown
  rw [← hperm.length_eq]
  exact (latest_mem_take_iff hstrict (hperm.symm.subset hmem)
    fun m hm => hlatest m (hperm.subset hm)).mp hshown

/-- CHAT_LIST has a message for each conversation. -/
theorem exists_shown (env : Env) {own : DirectMessageRow}
    (hown : own ∈ st.db.directMessages.rows) (hbetween : between a b own = true) :
    ∃ r ∈ lastRows env a st, peerOf a r = b := by
  obtain ⟨hinvolved, hpeer⟩ := peerOf_of_between hbetween
  have hmine : own ∈ st.db.directMessages.rows.filter
      (fun r => r.sender == a || r.recipient == a) := by
    rwa [List.mem_filter, Bool.or_eq_true, beq_iff_eq, beq_iff_eq, and_iff_right hown]
  have hgroup : own ∈ (st.db.directMessages.rows.filter
      (fun r => r.sender == a || r.recipient == a)).filter (fun r => peerOf a r == b) :=
    List.mem_filter.mpr ⟨hmine, beq_iff_eq.mpr hpeer⟩
  obtain ⟨bare, hbare, hattains, hlatest⟩ := env.sqlite.maxRow_attains DirectMessageRow.createAt _
    (List.ne_nil_of_mem hgroup)
  refine ⟨bare, List.mem_filterMap.mpr ⟨b, ?_, ?_⟩, beq_iff_eq.mp (List.mem_filter.mp hbare).2⟩
  · exact List.mem_dedup.mpr (List.mem_map.mpr ⟨own, hmine, hpeer⟩)
  · exact Option.filter_eq_some_iff.mpr
      ⟨hattains, List.all_eq_true.mpr fun r hr => decide_eq_true (hlatest r hr)⟩

end

def chatEntry (m : LastMessage) : ChatListEntry := ⟨m.peerLogin, m.message, Int64.ofInt m.timestamp⟩

def historyEntry (st : Store) (m : DirectMessage) : HistoryEntry where
  fromLogin :=
    match getLoginById m.sender st with
    | .ok login => login
    | .error _ => []
  message := m.message
  timestamp := Int64.ofInt m.timestamp

section

variable {env : Env} {st : Store}

theorem entriesIn_eq {messages : List DirectMessage} (h : ∀ m ∈ messages, hasUser st m.sender) :
    entriesIn messages st = .ok (messages.map (historyEntry st)) := by
  unfold entriesIn
  induction messages with
  | nil => rfl
  | cons m rest ih =>
    obtain ⟨u, hu⟩ := Option.isSome_iff_exists.mp (h m List.mem_cons_self)
    have hsender : getLoginById m.sender st = .ok (getText u.login) := by
      simp only [getLoginById, hu]
    rw [List.mapM_cons, ih fun x hx => h x (List.mem_cons_of_mem _ hx), List.map_cons,
      historyEntry, hsender]
    rfl

theorem lastMessage_mem {a : ℤ} {r : DirectMessageRow} (hr : r ∈ lastRows env a st) :
    lastMessage a st r ∈ getLastMessages env a st := by
  rw [getLastMessages_eq]
  exact List.mem_map_of_mem ((env.sqlite.orderBy_perm _ _).symm.subset hr)

theorem chatListAnswer_eq {login : Bytes} {a : ℤ} (hid : getIdByLogin login st = .ok a) :
    chatListAnswer env login st =
      .ok (.chatList ⟨(getLastMessages env a st).map chatEntry, Error.Base.ok⟩) := by
  simp only [chatListAnswer, hid]
  rfl

theorem historyAnswer_eq {w : World} (hsound : Sound env w.store) {login peerLogin : Bytes}
    {a b : ℤ} (hid : getIdByLogin login w.store = .ok a)
    (hpeer : getIdByLogin peerLogin w.store = .ok b) :
    historyAnswer env peerLogin login w.store =
      .ok (.history ⟨(getHistory env a b 100 w.store).map (historyEntry w.store),
        Error.Base.ok⟩) := by
  simp only [historyAnswer, hid, hpeer, expectValue, ok_bind,
    entriesIn_eq (senders_of_getHistory hsound a b 100)]
  rfl

end

/-- getHistory returns the newest messages of a conversation exactly when it returns none or
all. So in every reachable state the message that CHAT_LIST shows as the last one with a peer
is in the answer to MESSAGE_HISTORY when the conversation has at most 100 messages, and only
then when no two of them were sent in one second. -/
theorem history_newest_iff (env : Env) :
    (∀ (a b : ℤ) (st : Store), DistinctTimes (conversation a b st) → ∀ n : ℕ,
      (Newest DirectMessage.timestamp n (conversation a b st) (getHistory env a b n st) ↔
        n = 0 ∨ (conversation a b st).length ≤ n)) ∧
    ∀ w, World.Reachable env w → ∀ (login peerLogin : Bytes) (a b : ℤ),
      getIdByLogin login w.store = .ok a → getIdByLogin peerLogin w.store = .ok b →
      ∃ (chats : List LastMessage) (messages : List DirectMessage),
        chatListAnswer env login w.store =
          .ok (.chatList ⟨chats.map chatEntry, Error.Base.ok⟩) ∧
        historyAnswer env peerLogin login w.store =
          .ok (.history ⟨messages.map (historyEntry w.store), Error.Base.ok⟩) ∧
        ∀ r ∈ lastRows env a w.store, peerOf a r = b →
          lastMessage a w.store r ∈ chats ∧
          ((conversation a b w.store).length ≤ 100 → readBack r ∈ messages) ∧
          (DistinctTimes (conversation a b w.store) → readBack r ∈ messages →
            (conversation a b w.store).length ≤ 100) := by
  refine ⟨fun a b st hdistinct n => newest_getHistory_iff hdistinct n, ?_⟩
  intro w hreach login peerLogin a b hid hpeer
  refine ⟨_, _, chatListAnswer_eq hid, historyAnswer_eq (sound_reachable hreach) hid hpeer, ?_⟩
  intro r hr hpeerOf
  exact ⟨lastMessage_mem hr, fun hshort => shown_in_short_history hr hpeerOf hshort,
    fun hdistinct hshown => short_of_shown_in_history hr hpeerOf hdistinct hshown⟩

/-- Of two messages both are in the history, and CHAT_LIST shows the second. -/
def wroteTwice : World :=
  LabelledRuns.run (World.step Env.plain) (World.initial Env.plain fun _ => none)
    (twoFriends ++ [messageEvent, messageEvent])

theorem history_newest_iff_two :
    Newest DirectMessage.timestamp 2 (conversation 1 2 wroteTwice.store)
        (getHistory Env.plain 1 2 2 wroteTwice.store) ∧
      ∃ messages : List DirectMessage, historyAnswer Env.plain [99] [97] wroteTwice.store =
          .ok (.history ⟨messages.map (historyEntry wroteTwice.store), Error.Base.ok⟩) ∧
        readBack ⟨2, 2, 1, 8, [104], 0⟩ ∈ messages := by
  have htwo := history_newest_iff Env.plain
  refine ⟨(htwo.1 1 2 wroteTwice.store (by decide) 2).mpr (by decide), ?_⟩
  obtain ⟨chats, messages, -, hhistory, hshown⟩ :=
    htwo.2 wroteTwice ⟨_, _, rfl⟩ [97] [99] 1 2 (by decide) (by decide)
  exact ⟨messages, hhistory, (hshown _ (by decide) (by decide)).2.1 (by decide)⟩

theorem conversation_of_writing {n : ℕ} {w : World} (h : Writing n w) :
    conversation 1 2 w.store = (List.range n).map (fun i => readBack (writtenRow i)) := by
  have hall : w.store.db.directMessages.rows.filter (between 1 2) =
      w.store.db.directMessages.rows := by
    refine List.filter_eq_self.mpr fun r hr => ?_
    rw [h.written] at hr
    obtain ⟨i, -, rfl⟩ := List.mem_map.mp hr
    rfl
  rw [conversation, hall, h.written, List.map_map]
  rfl

theorem distinctTimes_of_writing {n : ℕ} {w : World} (h : Writing n w) :
    DistinctTimes (conversation 1 2 w.store) := by
  rw [conversation_of_writing h]
  refine List.pairwise_map.mpr (List.pairwise_lt_range.imp fun {i j} hlt heq => ?_)
  have htimes : (6 + 2 * i : ℤ) = 6 + 2 * j := heq
  omega

/-- After n > 100 messages the last one is not in the history. -/
theorem last_missing_after {n : ℕ} (hn : 5 + 2 * n ≤ 604800) (hlong : 100 < n) :
    ∃ w, World.Reachable Env.plain w ∧ DistinctTimes (conversation 1 2 w.store) ∧
      (conversation 1 2 w.store).length = n ∧
      ¬ Newest DirectMessage.timestamp 100 (conversation 1 2 w.store)
        (getHistory Env.plain 1 2 100 w.store) ∧
      ∃ r ∈ lastRows Env.plain 1 w.store, peerOf 1 r = 2 ∧
        readBack r ∉ getHistory Env.plain 1 2 100 w.store := by
  have h := writing_run n hn
  generalize hw : LabelledRuns.run (World.step Env.plain) (World.initial Env.plain fun _ => none)
    (away ++ List.replicate n messageEvent) = w at h
  have hdistinct := distinctTimes_of_writing h
  have hlength : (conversation 1 2 w.store).length = n := by
    rw [conversation_of_writing h, List.length_map, List.length_range]
  have hfirst : writtenRow 0 ∈ w.store.db.directMessages.rows := by
    rw [h.written]
    exact List.mem_map_of_mem (List.mem_range.mpr (by omega))
  have hbetween : between 1 2 (writtenRow 0) = true := by decide
  obtain ⟨r, hr, hpeer⟩ := exists_shown Env.plain hfirst hbetween
  refine ⟨w, ⟨_, _, hw⟩, hdistinct, hlength, ?_, r, hr, hpeer, fun hshown => ?_⟩
  · intro hnewest
    have hshort := (newest_getHistory_iff hdistinct 100).mp hnewest
    omega
  · have hshort := short_of_shown_in_history (n := 100) hr hpeer hdistinct hshown
    omega

/-- The history does not always have the newest messages: one of two friends has written 101
messages. -/
theorem long_history_keeps_oldest :
    ∃ w, World.Reachable Env.plain w ∧ DistinctTimes (conversation 1 2 w.store) ∧
      (conversation 1 2 w.store).length = 101 ∧
      ¬ Newest DirectMessage.timestamp 100 (conversation 1 2 w.store)
        (getHistory Env.plain 1 2 100 w.store) ∧
      ∃ r ∈ lastRows Env.plain 1 w.store, peerOf 1 r = 2 ∧
        readBack r ∉ getHistory Env.plain 1 2 100 w.store :=
  last_missing_after (by decide) (by decide)

end Messenger.Conversations
