import Messenger.FriendRepository
import Messenger.LabelledRuns
import Mathlib.Data.Sym.Sym2.Order

/-!
The friendships table as a map from unordered pairs of users to a state. The schema
keeps neither the order inside a pair nor its uniqueness, and UPDATE and DELETE do
not look at the status, so both rest on an invariant of the rows that every
operation carries on. On a normalised table each operation is the command of the
same name on the map.
-/
namespace Messenger.FriendStates

open KeyedTables Outcomes FriendRepository

inductive FriendState (α : Type*) where
  | none
  | pending (initiator : α)
  | accepted
deriving DecidableEq, Repr

abbrev FriendMap (α : Type*) := Sym2 α → FriendState α

/-- A command that asks for a state of its pair: it succeeds when the pair is in
`required` and its two users differ, and then leaves it in `next`. -/
structure Command (α : Type*) where
  actor : α
  peer : α
  required : FriendState α
  next : FriendState α

namespace Command

variable {α : Type*}

def request (x y : α) : Command α := ⟨x, y, .none, .pending x⟩
def accept (y x : α) : Command α := ⟨y, x, .pending x, .accepted⟩
def reject (y x : α) : Command α := ⟨y, x, .pending x, .none⟩

def pair (c : Command α) : Sym2 α := s(c.actor, c.peer)

def Enabled (c : Command α) (m : FriendMap α) : Prop :=
  c.actor ≠ c.peer ∧ m c.pair = c.required

variable [DecidableEq α]

instance (c : Command α) (m : FriendMap α) : Decidable (c.Enabled m) :=
  inferInstanceAs (Decidable (_ ∧ _))

def exec (c : Command α) (m : FriendMap α) : FriendMap α :=
  if c.Enabled m then Function.update m c.pair c.next else m

/-- No command of the component asks for an accepted pair. -/
theorem exec_accepted {c : Command α} {m : FriendMap α} (hreq : c.required ≠ .accepted)
    {p : Sym2 α} (hp : m p = .accepted) : c.exec m p = .accepted := by
  unfold exec
  split
  · rename_i hen
    have hne : p ≠ c.pair := by
      rintro rfl
      exact hreq (hen.2.symm.trans hp)
    rw [Function.update_of_ne hne]
    exact hp
  · exact hp

end Command

structure Normalised (rows : List FriendshipRow) : Prop where
  ordered : ∀ r ∈ rows, r.user1 < r.user2
  status : ∀ r ∈ rows, r.status = .pending ∨ r.status = .accepted
  initiator : ∀ r ∈ rows, r.initiator = r.user1 ∨ r.initiator = r.user2
  unique : (rows.map (fun r => (r.user1, r.user2))).Nodup

def ends (p : Sym2 ℤ) : ℤ × ℤ := (p.inf, p.sup)

def stateOf : Option FriendshipRow → FriendState ℤ
  | none => .none
  | some r =>
    match r.status with
    | .pending => .pending r.initiator
    | _ => .accepted

/-- The map that a table stands for. -/
def friendMap (rows : List FriendshipRow) : FriendMap ℤ := fun p =>
  stateOf (rows.find? (FriendshipRow.hasPair (ends p)))

/-- Normalising changes the order alone. -/
theorem forall_normalize {P : ℤ → Prop} {a b : ℤ} :
    P (normalize a b).1 ∧ P (normalize a b).2 ↔ P a ∧ P b := by
  unfold normalize
  split
  · exact Iff.rfl
  · exact and_comm

theorem normalize_eq (a b : ℤ) : normalize a b = ends s(a, b) := by
  unfold normalize ends
  split
  · rename_i h
    simp [min_eq_left h.le, max_eq_right h.le]
  · rename_i h
    have hle : b ≤ a := not_lt.mp h
    simp [min_eq_right hle, max_eq_left hle]

theorem ends_injective {p q : Sym2 ℤ} (h : ends p = ends q) : p = q := by
  have hinf : p.inf = q.inf := congrArg Prod.fst h
  have hsup : p.sup = q.sup := congrArg Prod.snd h
  exact Sym2.inf_eq_inf_and_sup_eq_sup.mp ⟨hinf, hsup⟩

theorem hasPair_iff {p : ℤ × ℤ} {r : FriendshipRow} :
    r.hasPair p = true ↔ (r.user1, r.user2) = p := by
  obtain ⟨a, b⟩ := p
  simp [FriendshipRow.hasPair]

theorem hasPair_ends_eq {p q : Sym2 ℤ} {r : FriendshipRow} (hp : r.hasPair (ends p) = true)
    (hq : r.hasPair (ends q) = true) : p = q :=
  ends_injective ((hasPair_iff.mp hp).symm.trans (hasPair_iff.mp hq))

/-- A row of a normalised table is what a search for its pair finds. -/
theorem find_of_mem {rows : List FriendshipRow} (hn : Normalised rows) {r : FriendshipRow}
    (hr : r ∈ rows) {p : ℤ × ℤ} (hp : r.hasPair p = true) :
    rows.find? (FriendshipRow.hasPair p) = some r := by
  cases hfind : rows.find? (FriendshipRow.hasPair p) with
  | none => exact absurd hp (List.find?_eq_none.mp hfind r hr)
  | some a =>
    have ha : a ∈ rows := List.mem_of_find?_eq_some hfind
    have hap : a.hasPair p = true := List.find?_some hfind
    have hsame : (a.user1, a.user2) = (r.user1, r.user2) :=
      (hasPair_iff.mp hap).trans (hasPair_iff.mp hp).symm
    rw [List.inj_on_of_nodup_map hn.unique ha hr hsame]

theorem friendMap_eq_none_iff {rows : List FriendshipRow} {p : Sym2 ℤ} :
    friendMap rows p = .none ↔ rows.find? (FriendshipRow.hasPair (ends p)) = none := by
  unfold friendMap
  cases rows.find? (FriendshipRow.hasPair (ends p)) with
  | none => simp [stateOf]
  | some r => cases hs : r.status <;> simp [stateOf, hs]

theorem friendMap_diag {rows : List FriendshipRow} (hn : Normalised rows) (x : ℤ) :
    friendMap rows s(x, x) = .none := by
  rw [friendMap_eq_none_iff, List.find?_eq_none]
  intro r hr hp
  have hlt := hn.ordered r hr
  have hpair := hasPair_iff.mp hp
  simp only [ends, Sym2.inf_mk, Sym2.sup_mk, inf_idem, sup_idem, Prod.mk.injEq] at hpair
  omega

section Searches
variable {store : Store} (hn : Normalised store.db.friendships.rows)
include hn

/-- Only pending rows of the pair are looked at; there is at most one row to look at. -/
theorem findPending_eq (p : ℤ × ℤ) :
    findPending p store = (findPair p store).filter (fun r => r.status == .pending) := by
  unfold findPending findPair
  cases hfind : store.db.friendships.rows.find? (FriendshipRow.hasPair p) with
  | none =>
    rw [List.find?_eq_none.mpr]
    · rfl
    · intro r hr hboth
      simp only [Bool.and_eq_true] at hboth
      exact List.find?_eq_none.mp hfind r hr hboth.1
  | some a =>
    have ha := List.mem_of_find?_eq_some hfind
    have hap : a.hasPair p = true := List.find?_some hfind
    cases hst : a.status == .pending with
    | true =>
      have hboth : (a.hasPair p && a.status == .pending) = true := by simp [hap, hst]
      cases hpend : store.db.friendships.rows.find?
          (fun r => r.hasPair p && r.status == .pending) with
      | none => exact absurd hboth (List.find?_eq_none.mp hpend a ha)
      | some b =>
        have hb := List.find?_some hpend
        simp only [Bool.and_eq_true] at hb
        have hfb := find_of_mem hn (List.mem_of_find?_eq_some hpend) hb.1
        rw [hfind] at hfb
        simpa [Option.filter, hst] using hfb.symm
    | false =>
      have hnone : store.db.friendships.rows.find?
          (fun r => r.hasPair p && r.status == .pending) = none := by
        rw [List.find?_eq_none]
        intro r hr hboth
        simp only [Bool.and_eq_true] at hboth
        have hfr := find_of_mem hn hr hboth.1
        rw [hfind] at hfr
        have hra : a = r := Option.some.inj hfr
        rw [hra] at hst
        simp [hst] at hboth
      rw [hnone]
      simp [Option.filter, hst]

/-- The guard shared by accept and reject, read on the map. -/
theorem findPending_some_iff {y x : ℤ} :
    (∃ r, findPending (normalize y x) store = some r ∧ r.initiator ≠ y) ↔
      y ≠ x ∧ friendMap store.db.friendships.rows s(y, x) = .pending x := by
  rw [normalize_eq, findPending_eq hn]
  unfold findPair friendMap
  cases hfind : store.db.friendships.rows.find? (FriendshipRow.hasPair (ends s(y, x))) with
  | none => simp [stateOf]
  | some r =>
    have hr := List.mem_of_find?_eq_some hfind
    have hrp := hasPair_iff.mp (List.find?_some hfind)
    have hne : y ≠ x := by
      rintro rfl
      have hdiag := friendMap_eq_none_iff.mp (friendMap_diag hn y)
      rw [hfind] at hdiag
      cases hdiag
    have hinit := hn.initiator r hr
    rw [← normalize_eq] at hrp
    have hends : r.initiator ≠ y ↔ r.initiator = x := by
      unfold normalize at hrp
      split at hrp <;> simp only [Prod.mk.injEq] at hrp <;> omega
    rcases hn.status r hr with hst | hst
    · simp [stateOf, hst, hne, hends, Option.filter]
    · simp [stateOf, hst, Option.filter]

/-- The check of a direct message, read on the map. -/
theorem areFriends_ok_iff {a b : ℤ} :
    (areFriends a b store).ok = true ↔
      friendMap store.db.friendships.rows s(a, b) = .accepted := by
  have hsearch : (store.db.friendships.rows.find?
        (fun r => r.hasPair (normalize a b) && r.status == .accepted)).isSome = true ↔
      friendMap store.db.friendships.rows s(a, b) = .accepted := by
    rw [List.find?_isSome]
    unfold friendMap
    rw [← normalize_eq]
    constructor
    · rintro ⟨r, hr, hboth⟩
      simp only [Bool.and_eq_true, beq_iff_eq] at hboth
      rw [find_of_mem hn hr hboth.1]
      simp [stateOf, hboth.2]
    · intro haccepted
      cases hfind : store.db.friendships.rows.find? (FriendshipRow.hasPair (normalize a b)) with
      | none =>
        rw [hfind] at haccepted
        cases haccepted
      | some r =>
        have hr := List.mem_of_find?_eq_some hfind
        have hpair : r.hasPair (normalize a b) = true := List.find?_some hfind
        refine ⟨r, hr, ?_⟩
        rcases hn.status r hr with hst | hst
        · rw [hfind] at haccepted
          simp [stateOf, hst] at haccepted
        · simp [hpair, hst]
  unfold areFriends
  rw [← hsearch]
  split
  · rename_i hfound
    simp [hfound]
  · rename_i hmissing
    simp only [hmissing]
    decide

end Searches

theorem friendMap_append {rows : List FriendshipRow} {p : Sym2 ℤ} {r : FriendshipRow}
    (hr : r.hasPair (ends p) = true) (hnone : friendMap rows p = .none) :
    friendMap (rows ++ [r]) = Function.update (friendMap rows) p (stateOf (some r)) := by
  funext q
  by_cases hq : q = p
  · subst q
    rw [friendMap_eq_none_iff] at hnone
    simp [friendMap, List.find?_append, hnone, hr]
  · have hrq : r.hasPair (ends q) = false := by
      rw [Bool.eq_false_iff]
      intro h
      exact hq (hasPair_ends_eq h hr)
    simp [friendMap, List.find?_append, hrq, Function.update_of_ne hq]

/-- The row that UPDATE leaves in the place of r. -/
def acceptRow (p : ℤ × ℤ) (r : FriendshipRow) : FriendshipRow :=
  if r.hasPair p then { r with status := .accepted } else r

@[simp] theorem acceptRow_user1 (p : ℤ × ℤ) (r : FriendshipRow) :
    (acceptRow p r).user1 = r.user1 := by
  unfold acceptRow
  split <;> rfl

@[simp] theorem acceptRow_user2 (p : ℤ × ℤ) (r : FriendshipRow) :
    (acceptRow p r).user2 = r.user2 := by
  unfold acceptRow
  split <;> rfl

@[simp] theorem acceptRow_initiator (p : ℤ × ℤ) (r : FriendshipRow) :
    (acceptRow p r).initiator = r.initiator := by
  unfold acceptRow
  split <;> rfl

@[simp] theorem acceptRow_hasPair (p q : ℤ × ℤ) (r : FriendshipRow) :
    (acceptRow p r).hasPair q = r.hasPair q := by
  simp [FriendshipRow.hasPair]

theorem acceptRow_of_not_hasPair {p : ℤ × ℤ} {r : FriendshipRow} (h : r.hasPair p = false) :
    acceptRow p r = r := by
  simp [acceptRow, h]

theorem friendMap_accept {rows : List FriendshipRow} {p : Sym2 ℤ}
    (hsome : friendMap rows p ≠ .none) :
    friendMap (rows.map (acceptRow (ends p))) = Function.update (friendMap rows) p .accepted := by
  funext q
  have hcomp : FriendshipRow.hasPair (ends q) ∘ acceptRow (ends p) =
      FriendshipRow.hasPair (ends q) :=
    funext (acceptRow_hasPair (ends p) (ends q))
  simp only [friendMap, List.find?_map, hcomp]
  by_cases hq : q = p
  · subst q
    rw [Function.update_self]
    cases hfind : rows.find? (FriendshipRow.hasPair (ends p)) with
    | none => exact absurd (friendMap_eq_none_iff.mpr hfind) hsome
    | some r => simp [acceptRow, List.find?_some hfind, stateOf]
  · rw [Function.update_of_ne hq]
    change _ = stateOf (rows.find? (FriendshipRow.hasPair (ends q)))
    cases hfind : rows.find? (FriendshipRow.hasPair (ends q)) with
    | none => rfl
    | some r =>
      have hrp : r.hasPair (ends p) = false := by
        rw [Bool.eq_false_iff]
        intro h
        exact hq (hasPair_ends_eq (List.find?_some hfind) h)
      rw [Option.map_some, acceptRow_of_not_hasPair hrp]

theorem friendMap_delete (rows : List FriendshipRow) (p : Sym2 ℤ) :
    friendMap (rows.filter (fun r => !r.hasPair (ends p))) =
      Function.update (friendMap rows) p .none := by
  funext q
  by_cases hq : q = p
  · subst q
    rw [Function.update_self, friendMap_eq_none_iff, List.find?_eq_none]
    intro r hr
    simpa using (List.mem_filter.mp hr).2
  · rw [Function.update_of_ne hq]
    have hsame : (fun r : FriendshipRow => decide ((!r.hasPair (ends p)) = true ∧
        r.hasPair (ends q) = true)) = FriendshipRow.hasPair (ends q) := by
      funext r
      cases hrq : r.hasPair (ends q) with
      | false => simp
      | true =>
        have hrp : r.hasPair (ends p) = false := by
          rw [Bool.eq_false_iff]
          intro h
          exact hq (hasPair_ends_eq hrq h)
        simp [hrp]
    unfold friendMap
    rw [List.find?_filter, hsame]

/-- `m` returns, and what it returns and leaves behind is the command `c`. -/
structure CarriesOut (c : Command ℤ) (store : Store) (e : ErrorCode) (store' : Store) : Prop where
  verdict : e = Error.Base.ok ↔ c.Enabled (friendMap store.db.friendships.rows)
  map : friendMap store'.db.friendships.rows = c.exec (friendMap store.db.friendships.rows)
  refused : e ≠ Error.Base.ok → store' = store
  others : store'.db.friendships.rows.filter (fun r => !r.hasPair (ends c.pair)) =
    store.db.friendships.rows.filter (fun r => !r.hasPair (ends c.pair))
  normalised : Normalised store'.db.friendships.rows
  users : store'.db.users = store.db.users

theorem CarriesOut.of_refused {c : Command ℤ} {store : Store} {e : ErrorCode}
    (hn : Normalised store.db.friendships.rows) (he : e ≠ Error.Base.ok)
    (hc : ¬ c.Enabled (friendMap store.db.friendships.rows)) : CarriesOut c store e store where
  verdict := ⟨fun h => absurd h he, fun h => absurd h hc⟩
  map := by rw [Command.exec, if_neg hc]
  refused := fun _ => rfl
  others := rfl
  normalised := hn
  users := rfl

def hasUser (store : Store) (id : ℤ) : Prop := (store.db.findUser id).isSome = true

instance (store : Store) (id : ℤ) : Decidable (hasUser store id) :=
  inferInstanceAs (Decidable (_ = true))

theorem requireUsers_run {store : Store} {ids : List ℤ} (h : ∀ id ∈ ids, hasUser store id) :
    (requireUsers ids).run store = .ok () store := by
  have hall : ids.all (fun id => (store.db.findUser id).isSome) = true := List.all_eq_true.mpr h
  simp only [requireUsers, EStateM.run_bind, EStateM.run_get, hall, if_true, EStateM.run_pure]

/-- A row for a pair that had none keeps the table normalised. -/
theorem normalised_append {rows : List FriendshipRow} (hn : Normalised rows) {x y : ℤ}
    (hxy : x ≠ y) (hnone : rows.find? (FriendshipRow.hasPair (normalize x y)) = none) (id : ℤ) :
    Normalised (rows ++ [⟨id, (normalize x y).1, (normalize x y).2, .pending, x⟩]) := by
  have hends : (normalize x y).1 < (normalize x y).2 ∧
      (x = (normalize x y).1 ∨ x = (normalize x y).2) := by
    unfold normalize
    split
    · exact ⟨by assumption, Or.inl rfl⟩
    · exact ⟨by simp only; omega, Or.inr rfl⟩
  constructor
  · intro r hr
    rcases List.mem_append.mp hr with hold | hnew
    · exact hn.ordered r hold
    · rw [List.mem_singleton.mp hnew]
      exact hends.1
  · intro r hr
    rcases List.mem_append.mp hr with hold | hnew
    · exact hn.status r hold
    · rw [List.mem_singleton.mp hnew]
      exact Or.inl rfl
  · intro r hr
    rcases List.mem_append.mp hr with hold | hnew
    · exact hn.initiator r hold
    · rw [List.mem_singleton.mp hnew]
      exact hends.2
  · rw [List.map_append, List.nodup_append]
    refine ⟨hn.unique, List.nodup_singleton _, ?_⟩
    intro a ha b hb hab
    obtain ⟨r, hr, rfl⟩ := List.mem_map.mp ha
    have hpair : r.hasPair (normalize x y) = true := by
      rw [hasPair_iff, hab, List.mem_singleton.mp hb]
    exact List.find?_eq_none.mp hnone r hr hpair

theorem sendRequest_carriesOut {store : Store} (hn : Normalised store.db.friendships.rows)
    {x y : ℤ} (hx : hasUser store x) (hy : hasUser store y) :
    ∃ e store', (sendRequest x y).run store = .ok e store' ∧
      CarriesOut (.request x y) store e store' := by
  by_cases hxy : x = y
  · exact ⟨Error.Friends.requestToYourself, store, by simp [sendRequest, hxy],
      .of_refused hn (by decide) (fun h => h.1 hxy)⟩
  cases hfind : findPair (normalize x y) store with
  | some r =>
    have hne : friendMap store.db.friendships.rows s(x, y) ≠ .none := by
      rw [Ne, friendMap_eq_none_iff, ← normalize_eq]
      intro h
      rw [findPair, h] at hfind
      cases hfind
    rcases hn.status r (List.mem_of_find?_eq_some hfind) with hst | hst
    · exact ⟨Error.Friends.alreadySent, store, by simp [sendRequest, hxy, hfind, hst],
        .of_refused hn (by decide) (fun h => hne h.2)⟩
    · exact ⟨Error.Friends.alreadyFriends, store, by simp [sendRequest, hxy, hfind, hst],
        .of_refused hn (by decide) (fun h => hne h.2)⟩
  | none =>
    have hnone : friendMap store.db.friendships.rows s(x, y) = .none := by
      rw [friendMap_eq_none_iff, ← normalize_eq]
      exact hfind
    have husers : ∀ id ∈ [(normalize x y).1, (normalize x y).2], hasUser store id := by
      have hboth := forall_normalize.mpr ⟨hx, hy⟩
      simpa using hboth
    have henabled : (Command.request x y).Enabled (friendMap store.db.friendships.rows) :=
      ⟨hxy, hnone⟩
    refine ⟨Error.Base.ok, _, by simp [sendRequest, hxy, hfind, insertFriendship,
      requireUsers_run husers, modifyDb]; rfl, ?_⟩
    constructor
    · exact ⟨fun _ => henabled, fun _ => rfl⟩
    · simp only [Table.rows_insert]
      rw [Command.exec, if_pos henabled, friendMap_append _ hnone]
      · rfl
      · rw [hasPair_iff, ← normalize_eq]
    · exact fun h => absurd rfl h
    · have hpair : FriendshipRow.hasPair (ends s(x, y)) ⟨store.db.friendships.seq + 1,
          (normalize x y).1, (normalize x y).2, .pending, x⟩ = true := by
        rw [hasPair_iff, ← normalize_eq]
      simp [Command.request, Command.pair, hpair]
    · exact normalised_append hn hxy hfind _
    · rfl

/-- The three ways through the guard that accept and reject share; it lets a call pass
exactly when the other user's request is pending. -/
theorem guard_cases {store : Store} (hn : Normalised store.db.friendships.rows) (y x : ℤ) :
    (findPending (normalize y x) store = none ∧
      ¬ (Command.accept y x).Enabled (friendMap store.db.friendships.rows)) ∨
    (∃ r, findPending (normalize y x) store = some r ∧ r.initiator = y ∧
      ¬ (Command.accept y x).Enabled (friendMap store.db.friendships.rows)) ∨
    (∃ r, findPending (normalize y x) store = some r ∧ r.initiator ≠ y ∧
      (Command.accept y x).Enabled (friendMap store.db.friendships.rows)) := by
  have hguard : (∃ r, findPending (normalize y x) store = some r ∧ r.initiator ≠ y) ↔
      (Command.accept y x).Enabled (friendMap store.db.friendships.rows) :=
    findPending_some_iff hn
  cases hfind : findPending (normalize y x) store with
  | none =>
    refine Or.inl ⟨rfl, ?_⟩
    rw [← hguard, hfind]
    rintro ⟨r, hr, -⟩
    cases hr
  | some r =>
    by_cases hinit : r.initiator = y
    · refine Or.inr (Or.inl ⟨r, rfl, hinit, ?_⟩)
      rw [← hguard, hfind]
      rintro ⟨a, ha, hne⟩
      cases ha
      exact hne hinit
    · exact Or.inr (Or.inr ⟨r, rfl, hinit, hguard.mp ⟨r, hfind, hinit⟩⟩)

theorem normalised_accept {rows : List FriendshipRow} (hn : Normalised rows) (p : ℤ × ℤ) :
    Normalised (rows.map (acceptRow p)) := by
  constructor
  · intro r hr
    obtain ⟨a, ha, rfl⟩ := List.mem_map.mp hr
    simpa using hn.ordered a ha
  · intro r hr
    obtain ⟨a, ha, rfl⟩ := List.mem_map.mp hr
    unfold acceptRow
    split
    · exact Or.inr rfl
    · exact hn.status a ha
  · intro r hr
    obtain ⟨a, ha, rfl⟩ := List.mem_map.mp hr
    simpa using hn.initiator a ha
  · have hsame : (fun r : FriendshipRow => (r.user1, r.user2)) ∘ acceptRow p =
        fun r => (r.user1, r.user2) := by
      funext r
      simp
    rw [List.map_map, hsame]
    exact hn.unique

/-- Rows of other pairs pass an UPDATE of this pair untouched. -/
theorem filter_map_acceptRow (rows : List FriendshipRow) (p : ℤ × ℤ) :
    (rows.map (acceptRow p)).filter (fun r => !r.hasPair p) =
      rows.filter (fun r => !r.hasPair p) := by
  induction rows with
  | nil => rfl
  | cons r rest ih =>
    cases hp : r.hasPair p with
    | true => simpa [hp] using ih
    | false => simpa [hp, acceptRow_of_not_hasPair hp] using ih

theorem normalised_filter {rows : List FriendshipRow} (hn : Normalised rows)
    (keep : FriendshipRow → Bool) : Normalised (rows.filter keep) where
  ordered := fun r hr => hn.ordered r (List.mem_of_mem_filter hr)
  status := fun r hr => hn.status r (List.mem_of_mem_filter hr)
  initiator := fun r hr => hn.initiator r (List.mem_of_mem_filter hr)
  unique := hn.unique.sublist (List.filter_sublist.map _)

theorem acceptRequest_carriesOut {store : Store} (hn : Normalised store.db.friendships.rows)
    (y x : ℤ) :
    ∃ e store', (acceptRequest y x).run store = .ok e store' ∧
      CarriesOut (.accept y x) store e store' := by
  rcases guard_cases hn y x with ⟨hfind, hnot⟩ | ⟨r, hfind, hinit, hnot⟩ | ⟨r, hfind, hinit, hen⟩
  · exact ⟨Error.Friends.acceptNonExistentRequest, store, by simp [acceptRequest, hfind],
      .of_refused hn (by decide) hnot⟩
  · exact ⟨Error.Friends.acceptRequestToYourself, store, by simp [acceptRequest, hfind, hinit],
      .of_refused hn (by decide) hnot⟩
  · have hne : friendMap store.db.friendships.rows s(y, x) ≠ .none := by
      have hpending : friendMap store.db.friendships.rows s(y, x) = .pending x := hen.2
      simp [hpending]
    refine ⟨Error.Base.ok, _, by simp [acceptRequest, hfind, hinit, modifyDb]; rfl, ?_⟩
    simp only [normalize_eq]
    constructor
    · exact ⟨fun _ => hen, fun _ => rfl⟩
    · rw [Command.exec, if_pos hen]
      exact friendMap_accept hne
    · exact fun h => absurd rfl h
    · exact filter_map_acceptRow _ _
    · exact normalised_accept hn _
    · rfl

theorem rejectRequest_carriesOut {store : Store} (hn : Normalised store.db.friendships.rows)
    (y x : ℤ) :
    ∃ e store', (rejectRequest y x).run store = .ok e store' ∧
      CarriesOut (.reject y x) store e store' := by
  rcases guard_cases hn y x with ⟨hfind, hnot⟩ | ⟨r, hfind, hinit, hnot⟩ | ⟨r, hfind, hinit, hen⟩
  · exact ⟨Error.Friends.rejectNonExistentRequest, store, by simp [rejectRequest, hfind],
      .of_refused hn (by decide) hnot⟩
  · exact ⟨Error.Friends.rejectRequestToYourself, store, by simp [rejectRequest, hfind, hinit],
      .of_refused hn (by decide) hnot⟩
  · have hreject : (Command.reject y x).Enabled (friendMap store.db.friendships.rows) := hen
    refine ⟨Error.Base.ok, _, by simp [rejectRequest, hfind, hinit, modifyDb]; rfl, ?_⟩
    simp only [normalize_eq]
    constructor
    · exact ⟨fun _ => hreject, fun _ => rfl⟩
    · rw [Command.exec, if_pos hreject]
      exact friendMap_delete _ _
    · exact fun h => absurd rfl h
    · exact (List.filter_filter ..).trans (by simp [Command.reject, Command.pair])
    · exact normalised_filter hn _
    · rfl

/-- A call that changes the table, with its arguments in the source's order. -/
inductive FriendCall where
  | sendRequest (sender target : ℤ)
  | acceptRequest (acceptor requester : ℤ)
  | rejectRequest (rejecter requester : ℤ)
deriving DecidableEq, Repr

namespace FriendCall

def program : FriendCall → StoreM ErrorCode
  | sendRequest x y => FriendRepository.sendRequest x y
  | acceptRequest y x => FriendRepository.acceptRequest y x
  | rejectRequest y x => FriendRepository.rejectRequest y x

def command : FriendCall → Command ℤ
  | sendRequest x y => .request x y
  | acceptRequest y x => .accept y x
  | rejectRequest y x => .reject y x

/-- Both ids are ids of users. -/
def UsersExist (store : Store) (call : FriendCall) : Prop :=
  hasUser store call.command.actor ∧ hasUser store call.command.peer

instance (store : Store) (call : FriendCall) : Decidable (call.UsersExist store) :=
  inferInstanceAs (Decidable (_ ∧ _))

def step (store : Store) (call : FriendCall) : Store := final (call.program.run store)

theorem required_ne_accepted (call : FriendCall) : call.command.required ≠ .accepted := by
  cases call <;> simp [command, Command.request, Command.accept, Command.reject]

theorem carriesOut {store : Store} (hn : Normalised store.db.friendships.rows)
    (call : FriendCall) (h : call.UsersExist store) :
    ∃ e store', call.program.run store = .ok e store' ∧
      CarriesOut call.command store e store' := by
  cases call with
  | sendRequest x y => exact sendRequest_carriesOut hn h.1 h.2
  | acceptRequest y x => exact acceptRequest_carriesOut hn y x
  | rejectRequest y x => exact rejectRequest_carriesOut hn y x

end FriendCall

theorem hasUser_congr {store store' : Store} (h : store'.db.users = store.db.users) (id : ℤ) :
    hasUser store' id ↔ hasUser store id := by
  unfold hasUser Database.findUser
  rw [h]

/-- The table before a call, the commands already carried out, and the users. -/
structure Refines (start : Store) (m : FriendMap ℤ) (store : Store) : Prop where
  normalised : Normalised store.db.friendships.rows
  map : friendMap store.db.friendships.rows = m
  users : store.db.users = start.db.users

theorem refines_step {start store : Store} {m : FriendMap ℤ} (h : Refines start m store)
    {call : FriendCall} (hids : call.UsersExist start) :
    Refines start (call.command.exec m) (call.step store) := by
  have hids' : call.UsersExist store :=
    ⟨(hasUser_congr h.users _).mpr hids.1, (hasUser_congr h.users _).mpr hids.2⟩
  obtain ⟨e, store', hrun, hc⟩ := call.carriesOut h.normalised hids'
  have hstep : call.step store = store' := by
    unfold FriendCall.step
    rw [hrun]
    rfl
  rw [hstep]
  exact ⟨hc.normalised, hc.map.trans (by rw [h.map]), hc.users.trans h.users⟩

theorem refines_run {start store : Store} {m : FriendMap ℤ} (calls : List FriendCall)
    (hids : ∀ call ∈ calls, call.UsersExist start) (h : Refines start m store) :
    Refines start (calls.foldl (fun m call => call.command.exec m) m)
      (LabelledRuns.run FriendCall.step store calls) := by
  induction calls generalizing store m with
  | nil => exact h
  | cons call rest ih =>
    have hcall := hids call List.mem_cons_self
    exact ih (fun c hc => hids c (List.mem_cons_of_mem call hc)) (refines_step h hcall)

/-- After any calls on users that exist, the table is normalised and stands for the map
that the same commands build from the empty one; the next call, whatever it is, returns
and does to the table what its command does to the map. -/
theorem friendships_refine (start : Store) (hempty : start.db.friendships.rows = [])
    (calls : List FriendCall) (hids : ∀ call ∈ calls, call.UsersExist start) :
    let store := LabelledRuns.run FriendCall.step start calls
    Normalised store.db.friendships.rows ∧
      friendMap store.db.friendships.rows =
        calls.foldl (fun m call => call.command.exec m) (fun _ => .none) ∧
      ∀ next : FriendCall, next.UsersExist start →
        ∃ e store', next.program.run store = .ok e store' ∧
          CarriesOut next.command store e store' ∧
          ∀ p, friendMap store.db.friendships.rows p = .accepted →
            friendMap store'.db.friendships.rows p = .accepted := by
  intro store
  have hstart : Refines start (fun _ => .none) start := by
    refine ⟨?_, ?_, rfl⟩
    · rw [hempty]
      exact ⟨by simp, by simp, by simp, by simp⟩
    · rw [hempty]
      rfl
  have hrun : Refines start _ store := refines_run calls hids hstart
  refine ⟨hrun.normalised, hrun.map, ?_⟩
  intro next hnext
  have hnext' : next.UsersExist store :=
    ⟨(hasUser_congr hrun.users _).mpr hnext.1, (hasUser_congr hrun.users _).mpr hnext.2⟩
  obtain ⟨e, store', hprog, hc⟩ := next.carriesOut hrun.normalised hnext'
  refine ⟨e, store', hprog, hc, ?_⟩
  intro p hp
  rw [hc.map]
  exact Command.exec_accepted next.required_ne_accepted hp

/-- A new database with two users, whose ids are 1 and 2. -/
def twoUsers : Store where
  db := {
    Database.created with
    users := (Database.created.users.insert (fun id => ⟨id, [97], [], []⟩) (fun _ => rfl)).insert
      (fun id => ⟨id, [98], [], []⟩) (fun _ => rfl) }
  clockReads := 0
  uuidsDrawn := 0

theorem friendships_refine_twoUsers :
    let store := LabelledRuns.run FriendCall.step twoUsers [.sendRequest 1 2, .acceptRequest 2 1]
    Normalised store.db.friendships.rows ∧
      friendMap store.db.friendships.rows s(1, 2) = .accepted := by
  have h := friendships_refine twoUsers rfl [.sendRequest 1 2, .acceptRequest 2 1] (by decide)
  have hswap : s((2 : ℤ), 1) = s(1, 2) := Sym2.eq_swap
  refine ⟨h.1, ?_⟩
  rw [h.2.1]
  simp [FriendCall.command, Command.exec, Command.Enabled, Command.request, Command.accept,
    Command.pair, hswap]

end Messenger.FriendStates
