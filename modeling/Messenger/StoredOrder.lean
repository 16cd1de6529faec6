import Messenger.Conversations
import Messenger.RequestEffects
import Messenger.SortedTies
import Mathlib.Data.Int.ConditionallyCompleteOrder

/-!
The order in which messages are stored, and what three queries make of it. Under a clock
that does not go back the rows are in ascending order of create_at, so each query finds the
order again as far as no two of its messages share a second. For those that do the queries
leave it to SQLite, and SQLite may turn them around.
-/
namespace Messenger.StoredOrder

open KeyedTables Outcomes ClientSession UserRepository MessageRepository FriendStates
  HandlerActions HandlePacket ServerSteps MessageRows TokenRequests TableSteps Authentications
  StoredFiles RequestEffects Reports Conversations SortedTies

/-- The rows are in the order of their times, and none is from the future. -/
structure Timely (env : Env) (st : Store) : Prop where
  ascending : st.db.directMessages.rows.Pairwise (fun r r' => r.createAt ≤ r'.createAt)
  past : ∀ r ∈ st.db.directMessages.rows, r.createAt ≤ env.clock st.clockReads

section

variable {env : Env} (hclock : Monotone env.clock)

include hclock

theorem Timely.later {st st' : Store} (h : Timely env st)
    (hmessages : st'.db.directMessages = st.db.directMessages)
    (hreads : st.clockReads ≤ st'.clockReads) : Timely env st' where
  ascending := hmessages ▸ h.ascending
  past := fun r hr => (h.past r (hmessages ▸ hr)).trans (hclock hreads)

theorem timely_withMessage {st : Store} (h : Timely env st) (sender recipient : ℤ)
    (message : Bytes) :
    Timely env (withMessage st sender recipient (env.clock st.clockReads) message) where
  ascending := by
    refine List.pairwise_append.mpr ⟨h.ascending, List.pairwise_singleton _ _, ?_⟩
    intro r hr new hnew
    rw [List.mem_singleton.mp hnew]
    exact h.past r hr
  past := by
    have hnext : env.clock st.clockReads ≤ env.clock (st.clockReads + 1) := hclock (Nat.le_succ _)
    intro r hr
    rcases List.mem_append.mp hr with hold | hnew
    · exact (h.past r hold).trans hnext
    · rw [List.mem_singleton.mp hnew]
      exact hnext

omit hclock in
theorem timely_withDelivered {st : Store} (h : Timely env st) (ids : List ℤ) :
    Timely env (withDelivered st ids) where
  ascending := by
    refine List.pairwise_map.mpr (h.ascending.imp fun hle => ?_)
    split <;> split <;> exact hle
  past := by
    intro r hr
    obtain ⟨old, hold, -, htime⟩ := unmarked_row hr
    rw [htime]
    exact h.past old hold

theorem timely_accountAction {packetType : PacketType} {body : Bytes} {w w' : World}
    (h : AccountAction env packetType body w w')
    (htimely : Timely env w.store) : Timely env w'.store := by
  have hkept := AccountAction.keepsTables h
  refine htimely.later hclock hkept.messages ?_
  cases h with
  | register req _ _ =>
    rcases registerUser_cases env req.login req.password w.store with ⟨-, hrun⟩ | ⟨-, hrun⟩
    · rw [hrun]
      exact le_rfl
    · rw [hrun]
      exact le_rfl
  | verify login password =>
    rcases verifyUser_cases env login password w.store with
      ⟨-, hrun⟩ | ⟨-, ⟨u, -, -, hrun⟩ | ⟨e, hrun⟩⟩
    · rw [hrun]
      exact le_rfl
    · rw [hrun]
      exact Nat.le_succ _
    · rw [hrun]
      exact Nat.le_succ _
  | lookup token =>
    obtain ⟨r, st', hrun, hlook⟩ := getLoginByToken_lookedUp env token w.store
    rw [hrun]
    exact hlook.reads
  | token c t => exact le_rfl

theorem timely_effect {packetType : PacketType} {body login : Bytes} {w w' : World}
    (h : Effect env packetType body login w w') (htimely : Timely env w.store) :
    Timely env w'.store := by
  cases h with
  | none => exact htimely
  | posted req w' _ _ hposts =>
    obtain ⟨pushes, rfl, -⟩ := hposts
    exact htimely
  | drawn req _ _ => exact htimely
  | written req bytes _ _ _ =>
    rw [withFile_store]
    exact htimely
  | befriended call st notice w' hstore hposts =>
    obtain ⟨pushes, rfl, -⟩ := hposts
    obtain ⟨friendships, hfriendships⟩ := friendCall_friendships call w.store
    rw [← hstore, hfriendships]
    exact htimely.later hclock rfl le_rfl
  | stored req sender recipient _ _ _ => exact timely_withMessage hclock htimely _ _ _

theorem timely_switched {self : ConnId} {packetType : PacketType} {body : Bytes} {w w' : World}
    (h : Switched env self packetType body w w') (htimely : Timely env w.store) :
    Timely env w'.store := by
  cases h with
  | none => exact htimely
  | accounts w' _ hcalls =>
    exact preserved_of_actions (P := fun w' : World => Timely env w'.store)
      (fun _ _ hcall => timely_accountAction hclock hcall) hcalls htimely
  | loggedOut req _ _ => exact htimely.later hclock rfl le_rfl
  | lookedUp t e st _ hlook =>
    exact htimely.later hclock (LookedUp.keepsTables hlook).messages hlook.reads
  | acted t login w' _ _ heffect =>
    exact timely_effect hclock heffect (htimely.later hclock rfl (Nat.le_succ _))

theorem timely_step {w : World} (e : Event) (h : Timely env w.store) :
    Timely env (w.step env e).store :=
  store_step e (fun _ _ _ _ hswitched => timely_switched hclock hswitched h)
    (fun _ ids hst => timely_withDelivered hst ids) (h.later hclock rfl (Nat.le_succ _)) h

theorem timely_reachable {w : World} (h : World.Reachable env w) : Timely env w.store := by
  obtain ⟨files, events, rfl⟩ := h
  have hinitial : Timely env (World.initial env files).store :=
    ⟨List.Pairwise.nil, fun _ hr => absurd hr List.not_mem_nil⟩
  exact LabelledRuns.invariant (P := fun w : World => Timely env w.store)
    (fun _ e hw => timely_step hclock e hw) hinitial events

end

def withSqlite (env : Env) (sqlite : Sqlite) : Env := { env with sqlite := sqlite }

/-- The rows that attain the maximum. -/
def topRows {ρ : Type} (key : ρ → ℤ) (rows : List ρ) : List ρ :=
  rows.filter (fun r => rows.all (fun a => decide (key a ≤ key r)))

theorem mem_topRows {ρ : Type} {key : ρ → ℤ} {rows : List ρ} {r : ρ} :
    r ∈ topRows key rows ↔ r ∈ rows ∧ ∀ a ∈ rows, key a ≤ key r := by
  simp [topRows]

theorem topRows_ne_nil {ρ : Type} (key : ρ → ℤ) {rows : List ρ} (h : rows ≠ []) :
    topRows key rows ≠ [] := by
  obtain ⟨r, hr, -, htop⟩ := Sqlite.stable.maxRow_attains key rows h
  exact List.ne_nil_of_mem (mem_topRows.mpr ⟨hr, htop⟩)

/-- Rows with equal keys come in reverse, and the bare columns are those of the k-th row
that attains the maximum. -/
def turning (k : ℕ) : Sqlite where
  orderBy key rows := latestFirst key rows
  orderBy_perm _ rows := (List.perm_insertionSort _ _).trans (List.reverse_perm rows)
  orderBy_sorted _ rows := List.pairwise_insertionSort _ _
  maxRow key rows := (topRows key rows)[k]?.or (topRows key rows).head?
  maxRow_attains key rows hne := by
    have htop : ∃ r ∈ topRows key rows,
        (topRows key rows)[k]?.or (topRows key rows).head? = some r := by
      cases hk : (topRows key rows)[k]? with
      | some r => exact ⟨r, List.mem_of_getElem? hk, rfl⟩
      | none =>
        have hhead := List.head?_eq_some_head (topRows_ne_nil key hne)
        exact ⟨_, List.head_mem _, hhead⟩
    obtain ⟨r, hr, hmax⟩ := htop
    obtain ⟨hrow, hattains⟩ := mem_topRows.mp hr
    exact ⟨r, hrow, hmax, hattains⟩

/-- The rows that the packets of a backlog are made of, in the order of sending. -/
def pendingIds (packets : List Sent) : List ℤ :=
  packets.filterMap fun p =>
    match p.cause with
    | .pending id => some id
    | _ => none

/-- What deliver_pending sends on the session, by the ids of the rows. -/
def handedOver (env : Env) (w : World) (c : ConnId) : List ℤ :=
  pendingIds ((final ((deliverPending env c).run w)).sent.drop w.sent.length)

def sentBy (b : ℤ) (st : Store) (id : ℤ) : Bool :=
  st.db.directMessages.rows.any (fun r => r.id == id && r.sender == b)

/-- The ids grow in the order of storage. -/
def DeliversInOrder (env : Env) (w : World) (c : ConnId) (b : ℤ) : Prop :=
  ((handedOver env w c).filter (sentBy b w.store)).Pairwise (fun id id' => id < id')

instance (env : Env) (w : World) (c : ConnId) (b : ℤ) : Decidable (DeliversInOrder env w c b) :=
  inferInstanceAs (Decidable (List.Pairwise _ _))

/-- The messages of one sender that wait for a user. -/
def waitingFrom (a b : ℤ) (st : Store) : List DirectMessage :=
  ((undeliveredRows a st).filter (fun r => r.sender == b)).map readBack

section

variable {env : Env} {w : World} {c : ConnId}

theorem pendingIds_backlog (st : Store) (asLogin : Bytes) (messages : List StoredMessage) :
    pendingIds (messages.map (backlogPacket st c asLogin)) = messages.map StoredMessage.id := by
  induction messages with
  | nil => rfl
  | cons el rest ih =>
    rw [List.map_cons, List.map_cons, ← ih]
    rfl

theorem handedOver_eq (hcorresponding : ∀ r ∈ w.store.db.directMessages.rows,
      hasUser w.store r.sender ∧ hasUser w.store r.recipient) {user : UserRow}
    (hfind : w.store.db.findLogin (w.currentLogin c) = some user) :
    handedOver env w c =
      (env.sqlite.orderBy DirectMessageRow.createAt (undeliveredRows user.id w.store)).map
        DirectMessageRow.id := by
  have hbacklog : (backlog env (w.currentLogin c) w.store).map StoredMessage.id =
      (env.sqlite.orderBy DirectMessageRow.createAt (undeliveredRows user.id w.store)).map
        DirectMessageRow.id := by
    simp only [backlog, getIdByLogin, hfind, getUndelivered, List.map_map]
    rfl
  have hsent : (final ((deliverPending env c).run w)).sent =
      w.sent ++ (backlog env (w.currentLogin c) w.store).map
        (backlogPacket w.store c (w.currentLogin c)) := by
    rcases deliverPending_cases env c w with
      ⟨-, -, -, hrun⟩ | ⟨handed, ⟨e, hunknown⟩ | hlost, -, -⟩ | ⟨-, hrun⟩
    · rw [hrun]
      rfl
    · rw [getIdByLogin, hfind] at hunknown
      cases hunknown
    · exact absurd (sendersFound_backlog hcorresponding env _) hlost
    · rw [hrun]
      rfl
  rw [handedOver, hsent, List.drop_left, pendingIds_backlog, hbacklog]

theorem filter_handedOver (hcorresponding : ∀ r ∈ w.store.db.directMessages.rows,
      hasUser w.store r.sender ∧ hasUser w.store r.recipient) {user : UserRow}
    (hfind : w.store.db.findLogin (w.currentLogin c) = some user) (b : ℤ) :
    (handedOver env w c).filter (sentBy b w.store) =
      ((env.sqlite.orderBy DirectMessageRow.createAt (undeliveredRows user.id w.store)).filter
        (fun r => r.sender == b)).map DirectMessageRow.id := by
  rw [handedOver_eq hcorresponding hfind, List.filter_map]
  congr 1
  refine List.filter_congr fun r hr => ?_
  have hrow : r ∈ w.store.db.directMessages.rows :=
    List.mem_of_mem_filter ((env.sqlite.orderBy_perm _ _).subset hr)
  rw [Bool.eq_iff_iff, Function.comp_apply, sentBy, List.any_eq_true, beq_iff_eq]
  constructor
  · rintro ⟨r', hrow', hboth⟩
    rw [Bool.and_eq_true, beq_iff_eq, beq_iff_eq] at hboth
    rw [← w.store.db.directMessages.eq_of_key_eq hrow' hrow hboth.1]
    exact hboth.2
  · intro hsender
    exact ⟨r, hrow, by simp [hsender]⟩

/-- Rows of the table are in the order of their ids and of their times. -/
theorem stored_ascending {st : Store} (htimely : Timely env st) {rows : List DirectMessageRow}
    (h : rows.Sublist st.db.directMessages.rows) :
    rows.Pairwise (fun r r' => r.id < r'.id) ∧
      rows.Pairwise (fun r r' => r.createAt ≤ r'.createAt) :=
  ⟨st.db.directMessages.ordered.sublist h, htimely.ascending.sublist h⟩

/-- Whatever SQLite does, the answers to a query are in order exactly when no two rows of the
window share a second. -/
theorem answers_in_order_iff {st : Store} (htimely : Timely env st)
    {entries : List DirectMessageRow} (hentries : entries.Sublist st.db.directMessages.rows)
    (answer : Sqlite → List DirectMessageRow) (hperm : ∀ sqlite, (answer sqlite).Perm entries)
    (hsorted : ∀ sqlite, (answer sqlite).Pairwise (fun r r' => r.createAt ≤ r'.createAt))
    (hties : TiesReversed DirectMessageRow.createAt DirectMessageRow.id (answer (turning 0)))
    (n : ℕ) : (∀ sqlite, ((answer sqlite).take n).Pairwise (fun r r' => r.id < r'.id)) ↔
      (entries.take n).Pairwise (fun r r' => r.createAt ≠ r'.createAt) := by
  obtain ⟨hseq, hkeys⟩ := stored_ascending htimely hentries
  constructor
  · intro hall
    exact distinct_of_take_in_order (hperm (turning 0)) (hsorted (turning 0)) hkeys hties
      (hall (turning 0))
  · intro hapart sqlite
    exact take_in_order (hperm sqlite) (hsorted sqlite) hseq hkeys hapart

theorem delivers_in_order_iff (hsound : Sound env w.store) (htimely : Timely env w.store)
    {user : UserRow} (hfind : w.store.db.findLogin (w.currentLogin c) = some user) (b : ℤ) :
    (∀ sqlite, DeliversInOrder (withSqlite env sqlite) w c b) ↔
      DistinctTimes (waitingFrom user.id b w.store) := by
  let entries := (undeliveredRows user.id w.store).filter (fun r => r.sender == b)
  let answer : Sqlite → List DirectMessageRow := fun sqlite =>
    (sqlite.orderBy DirectMessageRow.createAt (undeliveredRows user.id w.store)).filter
      (fun r => r.sender == b)
  have hperm : ∀ sqlite, (answer sqlite).Perm entries :=
    fun sqlite => (sqlite.orderBy_perm _ _).filter _
  have hties : TiesReversed DirectMessageRow.createAt DirectMessageRow.id (answer (turning 0)) :=
    (tiesReversed_latestFirst
      (stored_ascending htimely List.filter_sublist).1).sublist List.filter_sublist
  have hentries : entries.Sublist w.store.db.directMessages.rows :=
    List.filter_sublist.trans List.filter_sublist
  have hiff := answers_in_order_iff htimely hentries answer hperm
    (fun sqlite => (sqlite.orderBy_sorted _ _).filter _) hties entries.length
  have horder : ∀ sqlite, DeliversInOrder (withSqlite env sqlite) w c b ↔
      ((answer sqlite).take entries.length).Pairwise (fun r r' => r.id < r'.id) := by
    intro sqlite
    rw [DeliversInOrder, filter_handedOver hsound.corresponding hfind, List.pairwise_map,
      ← (hperm sqlite).length_eq, List.take_length]
    rfl
  rw [forall_congr' horder, hiff, DistinctTimes, waitingFrom, List.pairwise_map, List.take_length]
  rfl

end

def HistoryInOrder (env : Env) (a b limit : ℤ) (st : Store) : Prop :=
  ((getHistory env a b limit st).map DirectMessage.id).Pairwise (fun id id' => id < id')

instance (env : Env) (a b limit : ℤ) (st : Store) : Decidable (HistoryInOrder env a b limit st) :=
  inferInstanceAs (Decidable (List.Pairwise _ _))

/-- The number of rows that LIMIT leaves. -/
def cut (limit : ℤ) (n : ℕ) : ℕ := if limit < 0 then n else limit.toNat

theorem limited_eq_take {α : Type} (limit : ℤ) (rows : List α) :
    limited limit rows = rows.take (cut limit rows.length) := by
  unfold limited cut
  split
  · exact List.take_length.symm
  · rfl

theorem history_in_order_iff {env : Env} {st : Store} (htimely : Timely env st) (a b limit : ℤ) :
    (∀ sqlite, HistoryInOrder (withSqlite env sqlite) a b limit st) ↔
      DistinctTimes (limited limit (conversation a b st)) := by
  let entries := st.db.directMessages.rows.filter (between a b)
  let answer : Sqlite → List DirectMessageRow := fun sqlite =>
    sqlite.orderBy DirectMessageRow.createAt entries
  have hentries : entries.Sublist st.db.directMessages.rows := List.filter_sublist
  have hiff := answers_in_order_iff htimely hentries answer
    (fun sqlite => sqlite.orderBy_perm _ _) (fun sqlite => sqlite.orderBy_sorted _ _)
    (tiesReversed_latestFirst (stored_ascending htimely hentries).1) (cut limit entries.length)
  have horder : ∀ sqlite, HistoryInOrder (withSqlite env sqlite) a b limit st ↔
      ((answer sqlite).take (cut limit entries.length)).Pairwise (fun r r' => r.id < r'.id) := by
    intro sqlite
    have hread : getHistory (withSqlite env sqlite) a b limit st =
        (limited limit (answer sqlite)).map readBack := rfl
    have hlength : (answer sqlite).length = entries.length := (sqlite.orderBy_perm _ _).length_eq
    rw [HistoryInOrder, hread, limited_eq_take, hlength, List.pairwise_map, List.pairwise_map]
    rfl
  rw [forall_congr' horder, hiff, DistinctTimes, conversation, limited_eq_take, List.length_map,
    ← List.map_take, List.pairwise_map]
  rfl

/-- The entry for the peer is made of the last row of the conversation. -/
def ShowsLast (env : Env) (a b : ℤ) (st : Store) : Prop :=
  ∀ r ∈ lastRows env a st, peerOf a r = b →
    ∀ last, (st.db.directMessages.rows.filter (between a b)).getLast? = some last →
      lastMessage a st r = lastMessage a st last

/-- The messages that share the second of the last one say the same. -/
def LastAlike (messages : List DirectMessage) : Prop :=
  ∀ last ∈ messages.getLast?, ∀ m ∈ messages, m.timestamp = last.timestamp →
    m.message = last.message

instance (messages : List DirectMessage) : Decidable (LastAlike messages) :=
  inferInstanceAs (Decidable (∀ last ∈ messages.getLast?, ∀ m ∈ messages, _ → _))

section

variable {env : Env} {a b : ℤ} {st : Store}

/-- The last row is the latest. -/
theorem le_last (htimely : Timely env st) {last : DirectMessageRow}
    (hlast : (st.db.directMessages.rows.filter (between a b)).getLast? = some last)
    {r : DirectMessageRow} (hr : r ∈ st.db.directMessages.rows.filter (between a b)) :
    r.createAt ≤ last.createAt := by
  obtain ⟨before, hbefore⟩ := List.getLast?_eq_some_iff.mp hlast
  have hfiltered : (st.db.directMessages.rows.filter (between a b)).Sublist
      st.db.directMessages.rows := List.filter_sublist
  have hascending := (stored_ascending htimely hfiltered).2
  rw [hbefore] at hr hascending
  rcases List.mem_append.mp hr with hold | hsame
  · exact (List.pairwise_append.mp hascending).2.2 r hold last List.mem_cons_self
  · rw [List.mem_singleton.mp hsame]

/-- The rows that GROUP BY puts together for a peer are those of the conversation. -/
theorem group_eq : (st.db.directMessages.rows.filter
      (fun r => r.sender == a || r.recipient == a)).filter (fun r => peerOf a r == b) =
    st.db.directMessages.rows.filter (between a b) := by
  rw [List.filter_filter]
  refine List.filter_congr fun r _ => ?_
  rw [Bool.eq_iff_iff, Bool.and_eq_true, beq_iff_eq, Bool.or_eq_true, beq_iff_eq, beq_iff_eq]
  constructor
  · rintro ⟨hpeer, hown⟩
    exact between_of_peerOf hown hpeer
  · intro hbetween
    obtain ⟨hown, hpeer⟩ := peerOf_of_between hbetween
    exact ⟨hpeer, hown⟩

/-- Any of the latest rows of a conversation may be the one that is shown. -/
theorem exists_sqlite_showing (env : Env) {r : DirectMessageRow}
    (hr : r ∈ st.db.directMessages.rows.filter (between a b))
    (hlatest : ∀ r' ∈ st.db.directMessages.rows.filter (between a b), r'.createAt ≤ r.createAt) :
    ∃ sqlite, r ∈ lastRows (withSqlite env sqlite) a st := by
  obtain ⟨k, hk⟩ := List.mem_iff_getElem?.mp (mem_topRows.mpr ⟨hr, hlatest⟩)
  obtain ⟨hrow, hbetween⟩ := List.mem_filter.mp hr
  obtain ⟨hown, hpeer⟩ := peerOf_of_between hbetween
  have hmine : r ∈ st.db.directMessages.rows.filter
      (fun r => r.sender == a || r.recipient == a) := by
    rwa [List.mem_filter, Bool.or_eq_true, beq_iff_eq, beq_iff_eq, and_iff_right hrow]
  refine ⟨turning k, List.mem_filterMap.mpr
    ⟨b, List.mem_dedup.mpr (List.mem_map.mpr ⟨r, hmine, hpeer⟩), ?_⟩⟩
  simp only [group_eq]
  refine Option.filter_eq_some_iff.mpr ⟨?_, ?_⟩
  · change (topRows _ _)[k]?.or _ = some r
    rw [hk]
    rfl
  · exact List.all_eq_true.mpr fun r' hr' => decide_eq_true (hlatest r' hr')

theorem shows_last_iff (htimely : Timely env st) :
    (∀ sqlite, ShowsLast (withSqlite env sqlite) a b st) ↔ LastAlike (conversation a b st) := by
  have hpeerOf : ∀ {r : DirectMessageRow}, r ∈ st.db.directMessages.rows.filter (between a b) →
      peerOf a r = b := fun hr => (peerOf_of_between (List.mem_filter.mp hr).2).2
  constructor
  · intro hall last hlast m hm htime
    rw [conversation, List.getLast?_map, Option.mem_def, Option.map_eq_some_iff] at hlast
    obtain ⟨lastRow, hlastRow, rfl⟩ := hlast
    obtain ⟨r, hr, rfl⟩ := List.mem_map.mp hm
    have hsame : r.createAt = lastRow.createAt := htime
    obtain ⟨sqlite, hshown⟩ := exists_sqlite_showing env hr
      fun r' hr' => (le_last htimely hlastRow hr').trans hsame.ge
    have hentry := hall sqlite r hshown (hpeerOf hr) lastRow hlastRow
    exact congrArg LastMessage.message hentry
  · intro halike sqlite r hr hpeer last hlast
    obtain ⟨⟨hrow, hown⟩, hlatest⟩ := latest_of_lastRows hr
    have hmem : r ∈ st.db.directMessages.rows.filter (between a b) :=
      List.mem_filter.mpr ⟨hrow, between_of_peerOf hown hpeer⟩
    have hlastMem := List.mem_of_getLast? hlast
    have hlastPeer := hpeerOf hlastMem
    obtain ⟨hlastRow, hlastBetween⟩ := List.mem_filter.mp hlastMem
    have htime : r.createAt = last.createAt := le_antisymm (le_last htimely hlast hmem)
      (hlatest last hlastRow (peerOf_of_between hlastBetween).1 (hlastPeer.trans hpeer.symm))
    have hlastMessage : readBack last ∈ (conversation a b st).getLast? := by
      rw [conversation, List.getLast?_map, hlast]
      rfl
    have htext : getText r.message = getText last.message :=
      halike (readBack last) hlastMessage (readBack r) (List.mem_map_of_mem hmem) htime
    simp only [lastMessage, hpeer, hlastPeer, htext, htime]

end

/-- Under a clock that does not go back, and whatever SQLite does where its documentation
leaves it free: deliver_pending and getHistory present messages in the order of storage exactly
when no two of those they present share a second, and CHAT_LIST shows the message stored last
exactly when the messages that share its second say the same. -/
theorem stored_order_iff (env : Env) (hclock : Monotone env.clock) (w : World)
    (hw : World.Reachable env w) :
    (∀ c user b, w.store.db.findLogin (w.currentLogin c) = some user →
      ((∀ sqlite, DeliversInOrder (withSqlite env sqlite) w c b) ↔
        DistinctTimes (waitingFrom user.id b w.store))) ∧
    (∀ a b limit, (∀ sqlite, HistoryInOrder (withSqlite env sqlite) a b limit w.store) ↔
      DistinctTimes (limited limit (conversation a b w.store))) ∧
    (∀ a b, (∀ sqlite, ShowsLast (withSqlite env sqlite) a b w.store) ↔
      LastAlike (conversation a b w.store)) := by
  have htimely := timely_reachable hclock hw
  exact ⟨fun c user b hfind => delivers_in_order_iff (sound_reachable hw) htimely hfind b,
    fun a b limit => history_in_order_iff htimely a b limit,
    fun a b => shows_last_iff htimely⟩

/-- A clock that stands still for as long as the run takes. -/
def oneSecond : Env := { Env.plain with clock := fun _ => 5 }

/-- "c" writes "h" and "i" to "a". -/
def wroteAtOnce (env : Env) : World :=
  LabelledRuns.run (World.step env) (World.initial env fun _ => none)
    (twoFriends ++ [messageEvent, .packet 1 .directMessage (messageBody [105])])

/-- A second apart they come in order. -/
theorem stored_order_iff_apart :
    (∀ sqlite, DeliversInOrder (withSqlite Env.plain sqlite) (wroteAtOnce Env.plain) 0 2) ∧
    (∀ sqlite, HistoryInOrder (withSqlite Env.plain sqlite) 1 2 100 (wroteAtOnce Env.plain).store) ∧
    (∀ sqlite, ShowsLast (withSqlite Env.plain sqlite) 1 2 (wroteAtOnce Env.plain).store) := by
  obtain ⟨hdelivers, hhistory, hshows⟩ := stored_order_iff Env.plain
    (fun _ _ h => Int.ofNat_le.mpr h) (wroteAtOnce Env.plain) ⟨_, _, rfl⟩
  have huser : ((wroteAtOnce Env.plain).store.db.findLogin
      ((wroteAtOnce Env.plain).currentLogin 0)).map UserRow.id = some 1 := by decide
  obtain ⟨user, hfind, hid⟩ := Option.map_eq_some_iff.mp huser
  refine ⟨(hdelivers 0 user 2 hfind).mpr ?_, (hhistory 1 2 100).mpr (by decide),
    (hshows 1 2).mpr (by decide)⟩
  rw [hid]
  decide

/-- In one second all three may come out wrong: the second message is delivered and listed
first, and CHAT_LIST shows the first one. -/
theorem one_second_out_of_order :
    Monotone oneSecond.clock ∧ World.Reachable oneSecond (wroteAtOnce oneSecond) ∧
      ¬ (∀ sqlite, DeliversInOrder (withSqlite oneSecond sqlite) (wroteAtOnce oneSecond) 0 2) ∧
      ¬ (∀ sqlite, HistoryInOrder (withSqlite oneSecond sqlite) 1 2 100
        (wroteAtOnce oneSecond).store) ∧
      ¬ (∀ sqlite, ShowsLast (withSqlite oneSecond sqlite) 1 2 (wroteAtOnce oneSecond).store) := by
  refine ⟨fun _ _ _ => le_rfl, ⟨_, _, rfl⟩, fun hall => ?_, fun hall => ?_, fun hall => ?_⟩
  · have horder := hall (turning 0)
    exact absurd horder (by decide)
  · have horder := hall (turning 0)
    exact absurd horder (by decide)
  · have hshown := hall (turning 0)
    exact absurd (hshown ⟨1, 2, 1, 5, [104], 0⟩ (by decide) (by decide) ⟨2, 2, 1, 5, [105], 0⟩
      (by decide)) (by decide)

end Messenger.StoredOrder
