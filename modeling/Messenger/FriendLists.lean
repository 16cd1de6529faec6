import Messenger.FriendStates

/-!
The three queries of friend_repository.hpp beside its three commands. On a normalised
table a row shows up in `getFriends` of both its users when it is accepted and in
`getPendingIncoming` of the one who did not ask when it is pending, so the lists, the
check of `areFriends` and the guards of the commands are all readings of one map. The
commands keep the table normalised for any ids: an id without a user is stopped by the
foreign key, and the table stays as it was.
-/
namespace Messenger.FriendLists

open KeyedTables Outcomes FriendRepository FriendStates

/-- From an empty table by calls with any ids, while the rest of the store may change. -/
inductive Reachable : Store → Prop
  | empty (store : Store) (h : store.db.friendships.rows = []) : Reachable store
  | call {store : Store} (h : Reachable store) (call : FriendCall) :
      Reachable (call.step store)
  | elsewhere {store : Store} (h : Reachable store) (store' : Store)
      (hsame : store'.db.friendships = store.db.friendships) : Reachable store'

/-- A request to or from nobody leaves the table alone: it is refused, or the insertion is. -/
theorem sendRequest_of_missing {store : Store} (hn : Normalised store.db.friendships.rows)
    {x y : ℤ} (h : ¬ (hasUser store x ∧ hasUser store y)) :
    (∃ e, (sendRequest x y).run store = .ok e store ∧ e ≠ Error.Base.ok) ∨
      (sendRequest x y).run store =
        .error (.sqliteException "FOREIGN KEY constraint failed") store := by
  by_cases hxy : x = y
  · exact Or.inl ⟨Error.Friends.requestToYourself, by simp [sendRequest, hxy], by decide⟩
  have hinsert : (requireUsers [(normalize x y).1, (normalize x y).2]).run store =
      .error (.sqliteException "FOREIGN KEY constraint failed") store := by
    rcases requireUsers_cases [(normalize x y).1, (normalize x y).2] store with
      ⟨hall, -⟩ | herror
    · refine absurd ?_ h
      have hfirst := hall (normalize x y).1 (by simp)
      have hsecond := hall (normalize x y).2 (by simp)
      exact forall_normalize.mp ⟨hfirst, hsecond⟩
    · exact herror
  cases hfind : findPair (normalize x y) store with
  | none =>
    right
    simp [sendRequest, hxy, hfind, insertFriendship, hinsert]
  | some r =>
    left
    have hmem : r ∈ store.db.friendships.rows := List.mem_of_find?_eq_some hfind
    rcases hn.status r hmem with hst | hst
    · exact ⟨Error.Friends.alreadySent, by simp [sendRequest, hxy, hfind, hst], by decide⟩
    · exact ⟨Error.Friends.alreadyFriends, by simp [sendRequest, hxy, hfind, hst], by decide⟩

theorem normalised_step {store : Store} (hn : Normalised store.db.friendships.rows)
    (call : FriendCall) : Normalised (call.step store).db.friendships.rows := by
  by_cases hids : call.UsersExist store
  · obtain ⟨e, store', hrun, hc⟩ := call.carriesOut hn hids
    rw [FriendCall.step, hrun]
    exact hc.normalised
  · unfold FriendCall.step
    cases call with
    | sendRequest x y =>
      have hids' : ¬ (hasUser store x ∧ hasUser store y) := hids
      rcases sendRequest_of_missing hn hids' with ⟨e, hrun, -⟩ | hrun
      · rw [FriendCall.program, hrun]
        exact hn
      · rw [FriendCall.program, hrun]
        exact hn
    | acceptRequest y x =>
      obtain ⟨e, store', hrun, hc⟩ := acceptRequest_carriesOut hn y x
      rw [FriendCall.program, hrun]
      exact hc.normalised
    | rejectRequest y x =>
      obtain ⟨e, store', hrun, hc⟩ := rejectRequest_carriesOut hn y x
      rw [FriendCall.program, hrun]
      exact hc.normalised

theorem normalised_reachable {store : Store} (h : Reachable store) :
    Normalised store.db.friendships.rows := by
  induction h with
  | empty store hempty =>
    rw [hempty]
    exact ⟨by simp, by simp, by simp, by simp⟩
  | call _ call ih => exact normalised_step ih call
  | elsewhere _ store' hsame ih => rwa [hsame]

theorem normalize_of_lt {x y : ℤ} (h : x < y) : normalize x y = (x, y) ∧ normalize y x = (x, y) :=
  ⟨if_pos h, if_neg (not_lt.mpr h.le)⟩

/-- `CASE WHEN user1 = ? THEN user2 ELSE user1 END` is the other user of the row. -/
theorem other_pair {r : FriendshipRow} {a : ℤ} (hside : r.user1 = a ∨ r.user2 = a) :
    s(a, if r.user1 = a then r.user2 else r.user1) = s(r.user1, r.user2) := by
  split
  · rename_i hfirst
    rw [hfirst]
  · rename_i hfirst
    rw [← hside.resolve_left hfirst, Sym2.eq_swap]

section Queries
variable {store : Store} (hn : Normalised store.db.friendships.rows)
include hn

/-- What a row of the table is to its pair of users. -/
theorem friendMap_of_mem {r : FriendshipRow} (hr : r ∈ store.db.friendships.rows) :
    friendMap store.db.friendships.rows s(r.user1, r.user2) = stateOf (some r) := by
  have hpair : r.hasPair (ends s(r.user1, r.user2)) = true := by
    rw [hasPair_iff, ← normalize_eq, (normalize_of_lt (hn.ordered r hr)).1]
  unfold friendMap
  rw [find_of_mem hn hr hpair]

/-- A pair with a state has a row that gives it the state. -/
theorem exists_row {a b : ℤ} (h : friendMap store.db.friendships.rows s(a, b) ≠ .none) :
    ∃ r ∈ store.db.friendships.rows, s(r.user1, r.user2) = s(a, b) ∧
      friendMap store.db.friendships.rows s(a, b) = stateOf (some r) := by
  rw [Ne, friendMap_eq_none_iff, ← Ne, Option.ne_none_iff_exists'] at h
  obtain ⟨r, hfind⟩ := h
  have hr := List.mem_of_find?_eq_some hfind
  have hpair := hasPair_iff.mp (List.find?_some hfind)
  have hsame : s(r.user1, r.user2) = s(a, b) := by
    apply ends_injective
    rw [← normalize_eq, (normalize_of_lt (hn.ordered r hr)).1, hpair]
  exact ⟨r, hr, hsame, by rw [← hsame, friendMap_of_mem hn hr]⟩

theorem stateOf_accepted_iff {r : FriendshipRow} (hr : r ∈ store.db.friendships.rows) :
    stateOf (some r) = .accepted ↔ r.status = .accepted := by
  rcases hn.status r hr with hst | hst
  · simp [stateOf, hst]
  · simp [stateOf, hst]

theorem stateOf_pending_iff {r : FriendshipRow} {x : ℤ} (hr : r ∈ store.db.friendships.rows) :
    stateOf (some r) = .pending x ↔ r.status = .pending ∧ r.initiator = x := by
  rcases hn.status r hr with hst | hst
  · simp [stateOf, hst]
  · simp [stateOf, hst]

/-- The initiator is the other user of a row that the user has not made. -/
theorem asker_pair {r : FriendshipRow} (hr : r ∈ store.db.friendships.rows) {a : ℤ}
    (hside : r.user1 = a ∨ r.user2 = a) (hasked : r.initiator ≠ a) :
    s(a, r.initiator) = s(r.user1, r.user2) := by
  have hinit := hn.initiator r hr
  rcases hside with hside | hside
  · rw [hside, hinit.resolve_left (hside ▸ hasked)]
  · rw [hside, hinit.resolve_right (hside ▸ hasked), Sym2.eq_swap]

theorem mem_getFriends_iff {a b : ℤ} :
    b ∈ getFriends a store ↔ friendMap store.db.friendships.rows s(a, b) = .accepted := by
  unfold getFriends
  simp only [List.mem_map, List.mem_filter, Bool.and_eq_true, Bool.or_eq_true, beq_iff_eq]
  constructor
  · rintro ⟨r, ⟨hr, hside, hst⟩, hother⟩
    rw [← hother, other_pair hside, friendMap_of_mem hn hr]
    exact (stateOf_accepted_iff hn hr).mpr hst
  · intro haccepted
    obtain ⟨r, hr, hpair, hstate⟩ := exists_row hn (by rw [haccepted]; exact fun h => by cases h)
    rw [hstate, stateOf_accepted_iff hn hr] at haccepted
    have hlt := hn.ordered r hr
    rcases Sym2.eq_iff.mp hpair with ⟨rfl, rfl⟩ | ⟨rfl, rfl⟩
    · exact ⟨r, ⟨hr, Or.inl rfl, haccepted⟩, if_pos rfl⟩
    · exact ⟨r, ⟨hr, Or.inr rfl, haccepted⟩, if_neg (by omega)⟩

theorem mem_getPendingIncoming_iff {a b : ℤ} :
    b ∈ getPendingIncoming a store ↔
      a ≠ b ∧ friendMap store.db.friendships.rows s(a, b) = .pending b := by
  unfold getPendingIncoming
  simp only [List.mem_map, List.mem_filter, Bool.and_eq_true, Bool.or_eq_true, beq_iff_eq,
    bne_iff_ne]
  constructor
  · rintro ⟨r, ⟨hr, ⟨hside, hst⟩, hasked⟩, rfl⟩
    rw [asker_pair hn hr hside hasked, friendMap_of_mem hn hr]
    exact ⟨hasked.symm, (stateOf_pending_iff hn hr).mpr ⟨hst, rfl⟩⟩
  · rintro ⟨hne, hpending⟩
    obtain ⟨r, hr, hpair, hstate⟩ := exists_row hn (by rw [hpending]; exact fun h => by cases h)
    rw [hstate, stateOf_pending_iff hn hr] at hpending
    obtain ⟨hst, hinit⟩ := hpending
    refine ⟨r, ⟨hr, ⟨?_, hst⟩, hinit ▸ hne.symm⟩, hinit⟩
    rcases Sym2.eq_iff.mp hpair with ⟨hfirst, -⟩ | ⟨-, hsecond⟩
    · exact Or.inl hfirst
    · exact Or.inr hsecond

/-- Values that tell, with one user, the pair of their row are distinct. -/
theorem selected_nodup {keep : FriendshipRow → Bool} {f : FriendshipRow → ℤ} {a : ℤ}
    (hpair : ∀ r ∈ store.db.friendships.rows, keep r = true →
      s(a, f r) = s(r.user1, r.user2)) :
    ((store.db.friendships.rows.filter keep).map f).Nodup := by
  have hrows : store.db.friendships.rows.Nodup := hn.unique.of_map _
  refine (hrows.filter _).map_on ?_
  intro r hr r' hr' heq
  obtain ⟨hr, hkeep⟩ := List.mem_filter.mp hr
  obtain ⟨hr', hkeep'⟩ := List.mem_filter.mp hr'
  have hsame : s(r.user1, r.user2) = s(r'.user1, r'.user2) := by
    rw [← hpair r hr hkeep, ← hpair r' hr' hkeep', heq]
  have hlt := hn.ordered r hr
  have hlt' := hn.ordered r' hr'
  refine List.inj_on_of_nodup_map hn.unique hr hr' ?_
  rcases Sym2.eq_iff.mp hsame with ⟨hfirst, hsecond⟩ | ⟨hfirst, hsecond⟩
  · rw [hfirst, hsecond]
  · omega

theorem getFriends_nodup (a : ℤ) : (getFriends a store).Nodup := by
  refine selected_nodup hn (a := a) ?_
  intro r hr hkeep
  simp only [Bool.and_eq_true, Bool.or_eq_true, beq_iff_eq] at hkeep
  exact other_pair hkeep.1

theorem getPendingIncoming_nodup (a : ℤ) : (getPendingIncoming a store).Nodup := by
  refine selected_nodup hn (a := a) ?_
  intro r hr hkeep
  simp only [Bool.and_eq_true, Bool.or_eq_true, beq_iff_eq, bne_iff_ne] at hkeep
  exact asker_pair hn hr hkeep.1.1 hkeep.2

theorem areFriends_eq_ok_iff {a b : ℤ} :
    areFriends a b store = Error.Base.ok ↔
      friendMap store.db.friendships.rows s(a, b) = .accepted := by
  rw [← areFriends_ok_iff hn]
  unfold areFriends
  split
  · decide
  · decide

end Queries

/-- The call would return OK. -/
def ReturnsOk (program : StoreM ErrorCode) (store : Store) : Prop :=
  ∃ store', program.run store = .ok Error.Base.ok store'

theorem returnsOk_of_run {program : StoreM ErrorCode} {store store' : Store} {e : ErrorCode}
    (hrun : program.run store = .ok e store') :
    ReturnsOk program store ↔ e = Error.Base.ok := by
  constructor
  · rintro ⟨store'', hok⟩
    rw [hrun] at hok
    cases hok
    rfl
  · rintro rfl
    exact ⟨store', hrun⟩

section Commands
variable {store : Store} (hn : Normalised store.db.friendships.rows)
include hn

theorem returnsOk_acceptRequest_iff {a b : ℤ} :
    ReturnsOk (acceptRequest a b) store ↔
      a ≠ b ∧ friendMap store.db.friendships.rows s(a, b) = .pending b := by
  obtain ⟨e, store', hrun, hc⟩ := acceptRequest_carriesOut hn a b
  exact (returnsOk_of_run hrun).trans hc.verdict

theorem returnsOk_rejectRequest_iff {a b : ℤ} :
    ReturnsOk (rejectRequest a b) store ↔
      a ≠ b ∧ friendMap store.db.friendships.rows s(a, b) = .pending b := by
  obtain ⟨e, store', hrun, hc⟩ := rejectRequest_carriesOut hn a b
  exact (returnsOk_of_run hrun).trans hc.verdict

theorem returnsOk_sendRequest_iff {a b : ℤ} :
    ReturnsOk (sendRequest a b) store ↔
      (a ≠ b ∧ friendMap store.db.friendships.rows s(a, b) = .none) ∧
        hasUser store a ∧ hasUser store b := by
  by_cases hids : hasUser store a ∧ hasUser store b
  · obtain ⟨e, store', hrun, hc⟩ := sendRequest_carriesOut hn hids.1 hids.2
    rw [and_iff_left hids]
    exact (returnsOk_of_run hrun).trans hc.verdict
  · refine iff_of_false ?_ (fun h => hids h.2)
    rintro ⟨store', hok⟩
    rcases sendRequest_of_missing hn hids with ⟨e, hrun, hne⟩ | hrun
    · exact hne ((returnsOk_of_run hrun).mp ⟨store', hok⟩)
    · rw [hrun] at hok
      cases hok

/-- A pair without a state is on none of the lists, and the other way round. -/
theorem friendMap_none_iff_lists {a b : ℤ} (hne : a ≠ b) :
    friendMap store.db.friendships.rows s(a, b) = .none ↔
      b ∉ getFriends a store ∧ b ∉ getPendingIncoming a store ∧
        a ∉ getPendingIncoming b store := by
  rw [mem_getFriends_iff hn, mem_getPendingIncoming_iff hn, mem_getPendingIncoming_iff hn,
    Sym2.eq_swap (a := b)]
  cases hstate : friendMap store.db.friendships.rows s(a, b) with
  | none => simp
  | accepted => simp
  | pending x =>
    have hrow := exists_row hn (by rw [hstate]; exact fun h => by cases h)
    obtain ⟨r, hr, hpair, hrow⟩ := hrow
    rw [hstate] at hrow
    have hx : r.initiator = x := ((stateOf_pending_iff hn hr).mp hrow.symm).2
    have hside : x = a ∨ x = b := by
      rw [← hx]
      rcases hn.initiator r hr with hinit | hinit <;>
        rcases Sym2.eq_iff.mp hpair with ⟨hfirst, hsecond⟩ | ⟨hfirst, hsecond⟩ <;> omega
    rcases hside with rfl | rfl
    · simp [hne.symm]
    · simp [hne]

end Commands

/-- On every table that the commands produce, for any ids: friendship is symmetric and what
`areFriends` tells; an incoming request is what can be accepted and what can be rejected; a
request can be sent to whom is on no list, when both ids are ids of users; nobody is on an
own list, and nobody twice or on both. -/
theorem lists_agree_with_guards {store : Store} (h : Reachable store) (a b : ℤ) :
    ((b ∈ getFriends a store ↔ a ∈ getFriends b store) ∧
      (b ∈ getFriends a store ↔ areFriends a b store = Error.Base.ok) ∧
      (b ∈ getFriends a store ↔ areFriends b a store = Error.Base.ok)) ∧
    ((b ∈ getPendingIncoming a store ↔ ReturnsOk (acceptRequest a b) store) ∧
      (b ∈ getPendingIncoming a store ↔ ReturnsOk (rejectRequest a b) store)) ∧
    (ReturnsOk (sendRequest a b) store ↔
      (a ≠ b ∧ b ∉ getFriends a store ∧ b ∉ getPendingIncoming a store ∧
        a ∉ getPendingIncoming b store) ∧ hasUser store a ∧ hasUser store b) ∧
    (a ∉ getFriends a store ∧ a ∉ getPendingIncoming a store) ∧
    (getFriends a store).Nodup ∧ (getPendingIncoming a store).Nodup ∧
    (getFriends a store).Disjoint (getPendingIncoming a store) := by
  have hn := normalised_reachable h
  refine ⟨⟨?_, ?_, ?_⟩, ⟨?_, ?_⟩, ?_, ⟨?_, ?_⟩, getFriends_nodup hn a,
    getPendingIncoming_nodup hn a, ?_⟩
  · rw [mem_getFriends_iff hn, mem_getFriends_iff hn, Sym2.eq_swap]
  · rw [mem_getFriends_iff hn, areFriends_eq_ok_iff hn]
  · rw [mem_getFriends_iff hn, areFriends_eq_ok_iff hn, Sym2.eq_swap]
  · rw [mem_getPendingIncoming_iff hn, returnsOk_acceptRequest_iff hn]
  · rw [mem_getPendingIncoming_iff hn, returnsOk_rejectRequest_iff hn]
  · rw [returnsOk_sendRequest_iff hn]
    exact and_congr_left fun _ => and_congr_right fun hne => friendMap_none_iff_lists hn hne
  · rw [mem_getFriends_iff hn, friendMap_diag hn]
    exact fun hstate => by cases hstate
  · rw [mem_getPendingIncoming_iff hn]
    exact fun hself => hself.1 rfl
  · intro x hfriend hpending
    have haccepted := (mem_getFriends_iff hn).mp hfriend
    have hasked := ((mem_getPendingIncoming_iff hn).mp hpending).2
    rw [haccepted] at hasked
    cases hasked

theorem lists_agree_with_guards_two_users :
    let store := FriendCall.step twoUsers (.sendRequest 1 2)
    (1 ∈ getPendingIncoming 2 store ↔ ReturnsOk (acceptRequest 2 1) store) ∧
      (getFriends 2 store).Nodup := by
  have h := lists_agree_with_guards (.call (.empty twoUsers rfl) (.sendRequest 1 2)) 2 1
  exact ⟨h.2.1.1, h.2.2.2.2.1⟩

/-- A store without users: nobody is on a list, and still no request can be sent. -/
theorem request_between_nobody :
    ¬ ∀ (store : Store), Reachable store → ∀ a b : ℤ,
      (ReturnsOk (sendRequest a b) store ↔
        a ≠ b ∧ b ∉ getFriends a store ∧ b ∉ getPendingIncoming a store ∧
          a ∉ getPendingIncoming b store) := by
  intro h
  obtain ⟨store', hok⟩ := (h ⟨Database.created, 0, 0⟩ (.empty _ rfl) 1 2).mpr (by decide)
  cases hok

end Messenger.FriendLists
