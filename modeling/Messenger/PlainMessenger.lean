import Messenger.FriendStates

/-!
The messenger as its users see it, over any logins, passwords, tokens and texts: who has an
account, whom a token stands for and since when, which pairs are friends, and what has been
written to whom and still waits to be fetched. There are no ids, rows, hashes, connections
or exceptions here.
-/
namespace Messenger.PlainMessenger

open FriendStates

structure Grant (L : Type*) where
  login : L
  since : ℤ
deriving DecidableEq, Repr

structure Letter (L X : Type*) where
  sender : L
  recipient : L
  text : X
  time : ℤ
  waiting : Bool
deriving DecidableEq, Repr

structure State (L P T X : Type*) where
  accounts : List (L × P)
  grants : T → Option (Grant L)
  friends : FriendMap L
  letters : List (Letter L X)

inductive FriendOperation where
  | request
  | accept
  | reject
deriving DecidableEq, Repr

def FriendOperation.command {L : Type*} : FriendOperation → L → L → Command L
  | request => .request
  | accept => .accept
  | reject => .reject

/-- `present` only shows a token; `fetch` hands a user what waits for it. -/
inductive Request (L P T X : Type*) where
  | register (login : L) (password : P)
  | login (login : L) (password : P)
  | present (token : T)
  | logout (token : T)
  | befriend (token : T) (operation : FriendOperation) (target : L)
  | write (token : T) (recipient : L) (text : X)
  | fetch (login : L)
deriving DecidableEq, Repr

/-- A request with the token it may be given, the time at which it comes and the time at
which a letter is taken in. -/
structure Asked (L P T X : Type*) where
  request : Request L P T X
  fresh : T
  now : ℤ
  later : ℤ
deriving DecidableEq, Repr

inductive Reply (T : Type*) where
  | token (t : T)
  | done
  | refused
deriving DecidableEq, Repr

namespace State

variable {L P T X : Type*}

def new : State L P T X := ⟨[], fun _ => none, fun _ => .none, []⟩

def Registered (m : State L P T X) (login : L) : Prop := login ∈ m.accounts.map Prod.fst

variable [DecidableEq L] [DecidableEq P] [DecidableEq T]

instance (m : State L P T X) (login : L) : Decidable (m.Registered login) :=
  inferInstanceAs (Decidable (_ ∈ _))

/-- The user that a token stands for. -/
def holder (lifetime : ℤ) (m : State L P T X) (token : T) (now : ℤ) : Option L :=
  (m.grants token).bind fun g => if now - g.since > lifetime then none else some g.login

def grant (m : State L P T X) (token : T) (login : L) (now : ℤ) : State L P T X :=
  { m with grants := Function.update m.grants token (some ⟨login, now⟩) }

def revoke (m : State L P T X) (token : T) : State L P T X :=
  { m with grants := Function.update m.grants token none }

/-- Nothing waits for this user any longer. -/
def fetched (m : State L P T X) (login : L) : State L P T X :=
  { m with
    letters := m.letters.map fun x =>
      if x.recipient = login then { x with waiting := false } else x }

def step (lifetime : ℤ) (m : State L P T X) (a : Asked L P T X) : State L P T X :=
  match a.request with
  | .register login password =>
    if m.Registered login then m
    else { m with accounts := m.accounts ++ [(login, password)] }.grant a.fresh login a.now
  | .login login password =>
    if (login, password) ∈ m.accounts then m.grant a.fresh login a.now else m
  | .present _ => m
  | .logout token => m.revoke token
  | .befriend token operation target =>
    match m.holder lifetime token a.now with
    | none => m
    | some login =>
      if m.Registered target then
        { m with friends := (operation.command login target).exec m.friends }
      else m
  | .write token recipient text =>
    match m.holder lifetime token a.now with
    | none => m
    | some login =>
      if m.Registered recipient ∧ m.friends s(login, recipient) = .accepted then
        { m with letters := m.letters ++ [⟨login, recipient, text, a.later, true⟩] }
      else m
  | .fetch login => m.fetched login

def reply (lifetime : ℤ) (m : State L P T X) (a : Asked L P T X) : Reply T :=
  match a.request with
  | .register login _ => if m.Registered login then .refused else .token a.fresh
  | .login login password => if (login, password) ∈ m.accounts then .token a.fresh else .refused
  | .present token => if (m.holder lifetime token a.now).isSome then .done else .refused
  | .logout _ => .done
  | .befriend token operation target =>
    match m.holder lifetime token a.now with
    | none => .refused
    | some login =>
      if m.Registered target ∧ (operation.command login target).Enabled m.friends then .done
      else .refused
  | .write token recipient _ =>
    match m.holder lifetime token a.now with
    | none => .refused
    | some login =>
      if m.Registered recipient ∧ m.friends s(login, recipient) = .accepted then .done
      else .refused
  | .fetch _ => .done

end State

section

variable {L P T X : Type*} {m : State L P T X}

/-- Nobody has two accounts, and only users with an account hold tokens or have friends. -/
structure WellFormed (m : State L P T X) : Prop where
  logins : (m.accounts.map Prod.fst).Nodup
  holders : ∀ token g, m.grants token = some g → m.Registered g.login
  friends : ∀ a b, m.friends s(a, b) ≠ .none → m.Registered a ∧ m.Registered b

theorem wellFormed_new : WellFormed (State.new : State L P T X) where
  logins := List.nodup_nil
  holders := nofun
  friends := fun _ _ h => absurd rfl h

theorem registered_append {login login' : L} {password : P} :
    State.Registered { m with accounts := m.accounts ++ [(login', password)] } login ↔
      m.Registered login ∨ login = login' := by
  simp [State.Registered]

theorem holder_registered (h : WellFormed m) {lifetime now : ℤ} {token : T} {login : L}
    (hholder : m.holder lifetime token now = some login) : m.Registered login := by
  obtain ⟨g, hg, hlogin⟩ := Option.bind_eq_some_iff.mp hholder
  split at hlogin
  · cases hlogin
  · cases hlogin
    exact h.holders token g hg

theorem WellFormed.register (h : WellFormed m) {login : L} (hfree : ¬ m.Registered login)
    (password : P) : WellFormed { m with accounts := m.accounts ++ [(login, password)] } where
  logins := by
    rw [List.map_append]
    refine List.nodup_append.mpr ⟨h.logins, List.nodup_singleton _, ?_⟩
    rintro a ha b hb rfl
    obtain rfl : a = login := List.mem_singleton.mp hb
    exact hfree ha
  holders := fun token g hg => registered_append.mpr (Or.inl (h.holders token g hg))
  friends := fun a b hne =>
    ⟨registered_append.mpr (Or.inl (h.friends a b hne).1),
      registered_append.mpr (Or.inl (h.friends a b hne).2)⟩

theorem FriendOperation.ends (operation : FriendOperation) (x y : L) :
    (operation.command x y).actor = x ∧ (operation.command x y).peer = y := by
  cases operation <;> exact ⟨rfl, rfl⟩

section

variable [DecidableEq T]

theorem grants_grant_self (token : T) (login : L) (now : ℤ) :
    (m.grant token login now).grants token = some ⟨login, now⟩ := Function.update_self _ _ _

theorem grants_grant_of_ne {token token' : T} (h : token' ≠ token) (login : L) (now : ℤ) :
    (m.grant token login now).grants token' = m.grants token' := Function.update_of_ne h _ _

theorem grants_revoke_self (token : T) : (m.revoke token).grants token = none :=
  Function.update_self _ _ _

theorem grants_revoke_of_ne {token token' : T} (h : token' ≠ token) :
    (m.revoke token).grants token' = m.grants token' := Function.update_of_ne h _ _

theorem WellFormed.grant (h : WellFormed m) {login : L} (hlogin : m.Registered login) (token : T)
    (now : ℤ) : WellFormed (m.grant token login now) where
  logins := h.logins
  holders token' g hg := by
    by_cases hsame : token' = token
    · subst hsame
      rw [grants_grant_self] at hg
      cases hg
      exact hlogin
    · rw [grants_grant_of_ne hsame] at hg
      exact h.holders token' g hg
  friends := h.friends

theorem WellFormed.revoke (h : WellFormed m) (token : T) : WellFormed (m.revoke token) where
  logins := h.logins
  holders token' g hg := by
    by_cases hsame : token' = token
    · subst hsame
      rw [grants_revoke_self] at hg
      cases hg
    · rw [grants_revoke_of_ne hsame] at hg
      exact h.holders token' g hg
  friends := h.friends

end

variable [DecidableEq L]

theorem exec_of_ne {c : Command L} {friends : FriendMap L} {p : Sym2 L} (h : p ≠ c.pair) :
    c.exec friends p = friends p := by
  unfold Command.exec
  split
  · exact Function.update_of_ne h _ _
  · rfl

/-- A command leaves every pair but its own alone. -/
theorem WellFormed.exec (h : WellFormed m) {c : Command L} (hactor : m.Registered c.actor)
    (hpeer : m.Registered c.peer) : WellFormed { m with friends := c.exec m.friends } where
  logins := h.logins
  holders := h.holders
  friends a b hne := by
    by_cases hpair : s(a, b) = c.pair
    · rcases Sym2.eq_iff.mp hpair with ⟨rfl, rfl⟩ | ⟨rfl, rfl⟩
      · exact ⟨hactor, hpeer⟩
      · exact ⟨hpeer, hactor⟩
    · have hsame : c.exec m.friends s(a, b) = m.friends s(a, b) := exec_of_ne hpair
      exact h.friends a b (hsame ▸ hne)

end

section

variable {L P T X : Type*}

/-- The friends of a user, and the others who have asked for it. -/
structure ShowsFriends (m : State L P T X) (login : L) (friends asking : List L) : Prop where
  friendsOnce : friends.Nodup
  askingOnce : asking.Nodup
  friend : ∀ x, x ∈ friends ↔ m.friends s(login, x) = .accepted
  asker : ∀ x, x ∈ asking ↔ x ≠ login ∧ m.friends s(login, x) = .pending x

def Letter.Between (a b : L) (x : Letter L X) : Prop :=
  (x.sender = a ∧ x.recipient = b) ∨ (x.sender = b ∧ x.recipient = a)

variable [DecidableEq L]

instance (a b : L) (x : Letter L X) : Decidable (x.Between a b) :=
  inferInstanceAs (Decidable (_ ∨ _))

/-- What two users have written to each other, in the order in which it was taken in. -/
def State.conversation (m : State L P T X) (a b : L) : List (Letter L X) :=
  m.letters.filter fun x => x.Between a b

/-- The beginning of a conversation when it is told by time. -/
def TellsBeginning (m : State L P T X) (a b : L) (n : ℕ) (shown : List (Letter L X)) : Prop :=
  ∃ told : List (Letter L X), told.Perm (m.conversation a b) ∧
    told.Pairwise (fun x y => x.time ≤ y.time) ∧ shown = told.take n

def Letter.correspondent (login : L) (x : Letter L X) : L :=
  if x.sender = login then x.recipient else x.sender

/-- One letter for each correspondent of a user, a latest one, the latest conversation first. -/
structure ShowsChats (m : State L P T X) (login : L) (shown : List (Letter L X)) : Prop where
  own : ∀ x ∈ shown, x ∈ m.letters ∧ (x.sender = login ∨ x.recipient = login)
  once : (shown.map (Letter.correspondent login)).Nodup
  complete : ∀ y ∈ m.letters, y.sender = login ∨ y.recipient = login →
    ∃ x ∈ shown, x.correspondent login = y.correspondent login ∧ y.time ≤ x.time
  order : shown.Pairwise (fun x y => y.time ≤ x.time)

/-- Everything that waits for a user, by time. -/
def HandsWaiting (m : State L P T X) (login : L) (shown : List (Letter L X)) : Prop :=
  shown.Perm (m.letters.filter fun x => decide (x.recipient = login) && x.waiting) ∧
    shown.Pairwise (fun x y => x.time ≤ y.time)

end

section

variable {α β : Type*} {f : α → β} {S : Set α}

def renamed (f : α → β) : FriendState α → FriendState β
  | .none => .none
  | .pending i => .pending (f i)
  | .accepted => .accepted

def renamedCommand (f : α → β) (c : Command α) : Command β :=
  ⟨f c.actor, f c.peer, renamed f c.required, renamed f c.next⟩

theorem FriendOperation.renamed_command (operation : FriendOperation) (x y : α) :
    renamedCommand f (operation.command x y) = operation.command (f x) (f y) := by
  cases operation <;> rfl

def Within (S : Set α) (state : FriendState α) : Prop := ∀ i, state = .pending i → i ∈ S

theorem FriendOperation.within (operation : FriendOperation) {x y : α} (hx : x ∈ S) (hy : y ∈ S) :
    Within S (operation.command x y).required ∧ Within S (operation.command x y).next := by
  constructor
  · cases operation <;> rintro i h <;> cases h <;> exact hy
  · cases operation <;> rintro i h <;> cases h
    exact hx

theorem renamed_inj (hf : Set.InjOn f S) {a b : FriendState α} (ha : Within S a)
    (hb : Within S b) : renamed f a = renamed f b ↔ a = b := by
  refine ⟨fun h => ?_, congrArg _⟩
  cases a <;> cases b <;> try cases h
  · rfl
  · rename_i i j
    have hij : f i = f j := by injection h
    rw [hf (ha i rfl) (hb j rfl) hij]
  · rfl

/-- `m'` says of the names of users what `m` says of the users in `S`. -/
structure Renames (f : α → β) (S : Set α) (m : FriendMap α) (m' : FriendMap β) : Prop where
  injOn : Set.InjOn f S
  within : ∀ x ∈ S, ∀ y ∈ S, Within S (m s(x, y))
  names : ∀ x ∈ S, ∀ y ∈ S, m' s(f x, f y) = renamed f (m s(x, y))

variable {m : FriendMap α} {m' : FriendMap β} {c : Command α}

theorem Renames.enabled_iff (h : Renames f S m m') (hactor : c.actor ∈ S) (hpeer : c.peer ∈ S)
    (hrequired : Within S c.required) : (renamedCommand f c).Enabled m' ↔ c.Enabled m := by
  have hne : f c.actor ≠ f c.peer ↔ c.actor ≠ c.peer := not_congr (h.injOn.eq_iff hactor hpeer)
  have hstate : m' s(f c.actor, f c.peer) = renamed f c.required ↔
      m s(c.actor, c.peer) = c.required := by
    rw [h.names _ hactor _ hpeer]
    exact renamed_inj h.injOn (h.within _ hactor _ hpeer) hrequired
  exact and_congr hne hstate

theorem Renames.exec [DecidableEq α] [DecidableEq β] (h : Renames f S m m')
    (hactor : c.actor ∈ S) (hpeer : c.peer ∈ S) (hrequired : Within S c.required)
    (hnext : Within S c.next) : Renames f S (c.exec m) ((renamedCommand f c).exec m') := by
  have henabled := h.enabled_iff hactor hpeer hrequired
  have hpair : ∀ x ∈ S, ∀ y ∈ S,
      s(f x, f y) = (renamedCommand f c).pair ↔ s(x, y) = c.pair := by
    intro x hx y hy
    simp only [renamedCommand, Command.pair, Sym2.eq_iff, h.injOn.eq_iff hx hactor,
      h.injOn.eq_iff hx hpeer, h.injOn.eq_iff hy hactor, h.injOn.eq_iff hy hpeer]
  by_cases hc : c.Enabled m
  · have hexec : c.exec m = Function.update m c.pair c.next := if_pos hc
    have hexec' : (renamedCommand f c).exec m' =
        Function.update m' (renamedCommand f c).pair (renamed f c.next) :=
      if_pos (henabled.mpr hc)
    refine ⟨h.injOn, fun x hx y hy => ?_, fun x hx y hy => ?_⟩
    · by_cases hsame : s(x, y) = c.pair
      · rw [hexec, hsame, Function.update_self]
        exact hnext
      · rw [hexec, Function.update_of_ne hsame]
        exact h.within x hx y hy
    · by_cases hsame : s(x, y) = c.pair
      · rw [hexec, hexec', (hpair x hx y hy).mpr hsame, hsame, Function.update_self,
          Function.update_self]
      · have hother := mt (hpair x hx y hy).mp hsame
        rw [hexec, hexec', Function.update_of_ne hsame, Function.update_of_ne hother]
        exact h.names x hx y hy
  · have hexec : c.exec m = m := if_neg hc
    have hexec' : (renamedCommand f c).exec m' = m' := if_neg (mt henabled.mp hc)
    rw [hexec, hexec']
    exact h

end

end Messenger.PlainMessenger
