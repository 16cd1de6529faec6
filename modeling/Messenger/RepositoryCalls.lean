import Messenger.MessageRepository
import Messenger.FriendRepository

/-!
What one repository call can do, said once: what it returns and what it leaves behind,
on every way out. Over a run of calls the accounts only grow: a users row never changes
or goes away, and a sessions row that was not there before bears an identifier that had
not been drawn before.
-/
namespace Messenger

open KeyedTables Outcomes

structure Grows (env : Env) (st st' : Store) : Prop where
  users : st.db.users.rows <+: st'.db.users.rows
  uuids : st.uuidsDrawn ≤ st'.uuidsDrawn
  tokens : ∀ s ∈ st'.db.sessions, s ∈ st.db.sessions ∨
    ∃ n, st.uuidsDrawn ≤ n ∧ n < st'.uuidsDrawn ∧ s.token = env.uuid n

/-- A call that leaves the messages alone as well. -/
structure Quiet (env : Env) (st st' : Store) : Prop extends Grows env st st' where
  messages : st'.db.directMessages = st.db.directMessages

namespace Grows

variable {env : Env} {st st' st'' : Store}

theorem refl (st : Store) : Grows env st st where
  users := List.prefix_rfl
  uuids := le_rfl
  tokens := fun _ h => Or.inl h

theorem trans (h : Grows env st st') (h' : Grows env st' st'') : Grows env st st'' where
  users := h.users.trans h'.users
  uuids := h.uuids.trans h'.uuids
  tokens := by
    intro s hs
    have h₁ := h.uuids
    have h₂ := h'.uuids
    rcases h'.tokens s hs with hmid | ⟨n, hlo, hhi, htoken⟩
    · rcases h.tokens s hmid with hold | ⟨n, hlo, hhi, htoken⟩
      · exact Or.inl hold
      · exact Or.inr ⟨n, hlo, by omega, htoken⟩
    · exact Or.inr ⟨n, by omega, hhi, htoken⟩

theorem of_subset (husers : st'.db.users = st.db.users)
    (hsessions : ∀ s ∈ st'.db.sessions, s ∈ st.db.sessions)
    (huuids : st.uuidsDrawn ≤ st'.uuidsDrawn) : Grows env st st' where
  users := husers ▸ List.prefix_rfl
  uuids := huuids
  tokens := fun s hs => Or.inl (hsessions s hs)

/-- A login that is taken stays with its user. -/
theorem findLogin (h : Grows env st st') {login : Bytes} {u : UserRow}
    (hu : st.db.findLogin login = some u) : st'.db.findLogin login = some u := by
  obtain ⟨new, hnew⟩ := h.users
  unfold Database.findLogin at *
  rw [← hnew, List.find?_append, hu]
  rfl

theorem getIdByLogin (h : Grows env st st') {login : Bytes} {id : ℤ}
    (hid : UserRepository.getIdByLogin login st = .ok id) :
    UserRepository.getIdByLogin login st' = .ok id := by
  unfold UserRepository.getIdByLogin at *
  cases hu : st.db.findLogin login with
  | none =>
    rw [hu] at hid
    cases hid
  | some u =>
    rw [hu] at hid
    rw [h.findLogin hu]
    exact hid

theorem findUser (h : Grows env st st') {id : ℤ} {u : UserRow}
    (hu : st.db.findUser id = some u) : st'.db.findUser id = some u := by
  obtain ⟨new, hnew⟩ := h.users
  unfold Database.findUser at *
  rw [← hnew, List.find?_append, hu]
  rfl

end Grows

namespace Quiet

variable {env : Env} {st st' st'' : Store}

theorem refl (st : Store) : Quiet env st st := ⟨.refl st, rfl⟩

theorem trans (h : Quiet env st st') (h' : Quiet env st' st'') : Quiet env st st'' :=
  ⟨h.toGrows.trans h'.toGrows, h'.messages.trans h.messages⟩

theorem of_moves {α : Type} {m : StoreM α} (h : Moves (Quiet env) m st) :
    Quiet env st (final (m.run st)) :=
  Moves.collapse refl (fun _ _ _ => trans) h

/-- Anything may happen to the friendships and the clock, and tokens may go. -/
theorem of_subset (husers : st'.db.users = st.db.users)
    (hsessions : ∀ s ∈ st'.db.sessions, s ∈ st.db.sessions)
    (hmessages : st'.db.directMessages = st.db.directMessages)
    (huuids : st.uuidsDrawn ≤ st'.uuidsDrawn) : Quiet env st st' :=
  ⟨.of_subset husers hsessions huuids, hmessages⟩

end Quiet

namespace UserRepository

theorem user_key (login salt hash : Bytes) (id : ℤ) :
    UserRow.id ⟨id, login, salt, hash⟩ = id := rfl

def withUser (st : Store) (login salt hash : Bytes) : Store :=
  { st with
    db := { st.db with
      users := st.db.users.insert (fun id => ⟨id, login, salt, hash⟩)
        (user_key login salt hash) }
    uuidsDrawn := st.uuidsDrawn + 1 }

def withSession (st : Store) (token : Bytes) (id now : ℤ) : Store :=
  { st with
    db := { st.db with sessions := st.db.sessions ++ [⟨token, id, now⟩] }
    clockReads := st.clockReads + 1
    uuidsDrawn := st.uuidsDrawn + 1 }

theorem registerUser_cases (env : Env) (login password : Bytes) (st : Store) :
    ((st.db.findLogin login).isSome ∧
      (registerUser env login password).run st = .ok Error.Auth.loginExists st) ∨
    (st.db.findLogin login = none ∧
      (registerUser env login password).run st = .ok Error.Base.ok
        (withUser st login (env.uuid st.uuidsDrawn)
          (sha256 env (password ++ env.uuid st.uuidsDrawn)))) := by
  cases h : st.db.findLogin login with
  | some u =>
    refine Or.inl ⟨rfl, ?_⟩
    simp only [registerUser, EStateM.run_bind, EStateM.run_get, h, Option.isSome_some, if_true,
      EStateM.run_pure]
  | none =>
    refine Or.inr ⟨rfl, ?_⟩
    simp only [registerUser, generateSalt, insertUser, EStateM.run_bind, EStateM.run_get, h,
      Option.isSome_none, Bool.false_eq_true, if_false, run_generateUuid, run_modifyDb,
      EStateM.run_pure]
    rfl

theorem verifyUser_cases (env : Env) (login password : Bytes) (st : Store) :
    (verifyPassword env login password st = false ∧
      (verifyUser env login password).run st =
        .ok (.error Error.Auth.incorrectCredentials) st) ∨
    (verifyPassword env login password st = true ∧
      ((∃ u, st.db.findLogin login = some u ∧ st.db.findToken (env.uuid st.uuidsDrawn) = none ∧
        (verifyUser env login password).run st = .ok (.ok (env.uuid st.uuidsDrawn))
          (withSession st (env.uuid st.uuidsDrawn) u.id (env.clock st.clockReads))) ∨
      ∃ e, (verifyUser env login password).run st =
        .error e { st with
          clockReads := st.clockReads + 1
          uuidsDrawn := st.uuidsDrawn + 1 })) := by
  cases hpw : verifyPassword env login password st with
  | false =>
    refine Or.inl ⟨rfl, ?_⟩
    simp only [verifyUser, EStateM.run_bind, EStateM.run_get, hpw, Bool.not_false, if_true,
      EStateM.run_pure]
  | true =>
    refine Or.inr ⟨rfl, ?_⟩
    cases hlogin : st.db.findLogin login with
    | none =>
      refine Or.inr ⟨.undefinedBehaviour, ?_⟩
      simp only [verifyUser, EStateM.run_bind, EStateM.run_get, hpw, Bool.not_true,
        Bool.false_eq_true, if_false, run_generateUuid, run_systemNow, hlogin, run_throw_any]
    | some u =>
      have hrun : (verifyUser env login password).run st =
          (do
            insertSession (env.uuid st.uuidsDrawn) u.id (env.clock st.clockReads)
            return .ok (env.uuid st.uuidsDrawn) : StoreM (Except ErrorCode Bytes)).run
          { st with
            clockReads := st.clockReads + 1
            uuidsDrawn := st.uuidsDrawn + 1 } := by
        simp only [verifyUser, EStateM.run_bind, EStateM.run_get, hpw, Bool.not_true,
          Bool.false_eq_true, if_false, run_generateUuid, run_systemNow, hlogin]
      rw [hrun]
      simp only [insertSession, EStateM.run_bind, EStateM.run_get]
      cases htoken : st.db.findToken (env.uuid st.uuidsDrawn) with
      | some s => exact Or.inr ⟨_, rfl⟩
      | none =>
        simp only [Option.isSome_none, Bool.false_eq_true, if_false, EStateM.run_bind]
        rcases requireUsers_cases [u.id] { st with
          clockReads := st.clockReads + 1
          uuidsDrawn := st.uuidsDrawn + 1 } with ⟨-, h⟩ | h
        · refine Or.inl ⟨u, rfl, trivial, ?_⟩
          rw [h]
          rfl
        · refine Or.inr ⟨.sqliteException "FOREIGN KEY constraint failed", ?_⟩
          rw [h]

theorem findLogin_of_verifyPassword {env : Env} {login password : Bytes} {st : Store}
    (h : verifyPassword env login password st = true) :
    ∃ u, st.db.findLogin login = some u ∧
      sha256 env (password ++ getText u.salt) = getText u.password := by
  unfold verifyPassword at h
  cases hu : st.db.findLogin login with
  | none =>
    rw [hu] at h
    cases h
  | some u =>
    rw [hu] at h
    exact ⟨u, rfl, by simpa using h⟩

/-- With the right password and a token that is not in the table, nothing can fail. -/
theorem verifyUser_run {env : Env} {login password : Bytes} (st : Store)
    (hpw : verifyPassword env login password st = true)
    (hfresh : st.db.findToken (env.uuid st.uuidsDrawn) = none) :
    ∃ u, st.db.findLogin login = some u ∧ (verifyUser env login password).run st =
      .ok (.ok (env.uuid st.uuidsDrawn))
        (withSession st (env.uuid st.uuidsDrawn) u.id (env.clock st.clockReads)) := by
  obtain ⟨u, hu, -⟩ := findLogin_of_verifyPassword hpw
  have huser : (st.db.findUser u.id).isSome := by
    rw [Database.findUser_of_findLogin hu]
    rfl
  refine ⟨u, hu, ?_⟩
  simp only [verifyUser, EStateM.run_bind, EStateM.run_get, hpw, Bool.not_true,
    Bool.false_eq_true, if_false, run_generateUuid, run_systemNow, hu, insertSession, hfresh,
    Option.isSome_none, requireUsers, List.all_cons, huser, List.all_nil, Bool.and_self, if_true,
    run_modifyDb, EStateM.run_pure]
  rfl

/-- The login that a token stands for at the next reading of the clock. -/
def tokenLogin (env : Env) (token : Bytes) (st : Store) : Option Bytes :=
  match st.db.findToken token with
  | none => none
  | some check =>
    if env.clock st.clockReads - check.createdAt > tokenTtl then none
    else (st.db.findUser check.id).map (fun q => getText q.login)

/-- What looking a token up returns and leaves behind. -/
structure Lookup (env : Env) (token : Bytes) (st : Store) (r : Except ErrorCode Bytes)
    (st' : Store) : Prop where
  login : r.toOption = tokenLogin env token st
  users : st'.db.users = st.db.users
  sessions : ∀ s ∈ st'.db.sessions, s ∈ st.db.sessions
  messages : st'.db.directMessages = st.db.directMessages
  uuids : st'.uuidsDrawn = st.uuidsDrawn

/-- The clock has been read once more. -/
def ticked (st : Store) : Store := { st with clockReads := st.clockReads + 1 }

def withoutToken (st : Store) (token : Bytes) : Store :=
  { st with
    db := { st.db with sessions := st.db.sessions.filter (fun s => !(s.token == token)) } }

/-- The four ways in which the lookup of a token ends. Only an expired one is deleted. -/
inductive LookedUp (env : Env) (token : Bytes) (st : Store) :
    Except ErrorCode Bytes → Store → Prop where
  | unknown (hcheck : st.db.findToken token = none) :
      LookedUp env token st (.error Error.Auth.nonAuthorized) st
  | expired (check : SessionRow) (hcheck : st.db.findToken token = some check)
      (hold : env.clock st.clockReads - check.createdAt > tokenTtl) :
      LookedUp env token st (.error Error.Auth.tokenExpired) (withoutToken (ticked st) token)
  | orphan (check : SessionRow) (hcheck : st.db.findToken token = some check)
      (hyoung : ¬ env.clock st.clockReads - check.createdAt > tokenTtl)
      (huser : st.db.findUser check.id = none) :
      LookedUp env token st (.error Error.User.notFound) (ticked st)
  | found (check : SessionRow) (q : UserRow) (hcheck : st.db.findToken token = some check)
      (hyoung : ¬ env.clock st.clockReads - check.createdAt > tokenTtl)
      (huser : st.db.findUser check.id = some q) :
      LookedUp env token st (.ok (getText q.login)) (ticked st)

theorem LookedUp.reads {env : Env} {token : Bytes} {st st' : Store} {r : Except ErrorCode Bytes}
    (h : LookedUp env token st r st') : st.clockReads ≤ st'.clockReads := by
  cases h with
  | unknown _ => exact le_rfl
  | expired _ _ _ => exact Nat.le_succ _
  | orphan _ _ _ _ => exact Nat.le_succ _
  | found _ _ _ _ _ => exact Nat.le_succ _

theorem getLoginByToken_lookedUp (env : Env) (token : Bytes) (st : Store) :
    ∃ r st', (getLoginByToken env token).run st = .ok r st' ∧ LookedUp env token st r st' := by
  cases hcheck : st.db.findToken token with
  | none =>
    refine ⟨_, _, ?_, .unknown hcheck⟩
    simp only [getLoginByToken, EStateM.run_bind, EStateM.run_get, hcheck, EStateM.run_pure]
  | some check =>
    by_cases hold : env.clock st.clockReads - check.createdAt > tokenTtl
    · refine ⟨_, _, ?_, .expired check hcheck hold⟩
      simp only [getLoginByToken, deleteToken, EStateM.run_bind, EStateM.run_get, hcheck,
        run_systemNow, if_pos hold, run_modifyDb, EStateM.run_pure]
      rfl
    · cases huser : st.db.findUser check.id with
      | none =>
        refine ⟨_, _, ?_, .orphan check hcheck hold huser⟩
        simp only [getLoginByToken, EStateM.run_bind, EStateM.run_get, hcheck, run_systemNow,
          if_neg hold, huser, EStateM.run_pure]
        rfl
      | some q =>
        refine ⟨_, _, ?_, .found check q hcheck hold huser⟩
        simp only [getLoginByToken, EStateM.run_bind, EStateM.run_get, hcheck, run_systemNow,
          if_neg hold, huser, EStateM.run_pure]
        rfl

theorem tokenLogin_of_lookedUp {env : Env} {token : Bytes} {st st' : Store}
    {r : Except ErrorCode Bytes} (h : LookedUp env token st r st') :
    tokenLogin env token st = r.toOption := by
  cases h with
  | unknown hcheck =>
    simp only [tokenLogin, hcheck]
    rfl
  | expired check hcheck hold =>
    simp only [tokenLogin, hcheck, if_pos hold]
    rfl
  | orphan check hcheck hyoung huser =>
    simp only [tokenLogin, hcheck, if_neg hyoung, huser]
    rfl
  | found check q hcheck hyoung huser =>
    simp only [tokenLogin, hcheck, if_neg hyoung, huser]
    rfl

/-- A token is looked up without a throw. -/
theorem getLoginByToken_run (env : Env) (token : Bytes) (st : Store) :
    ∃ r st', (getLoginByToken env token).run st = .ok r st' ∧ Lookup env token st r st' := by
  obtain ⟨r, st', hrun, hlook⟩ := getLoginByToken_lookedUp env token st
  have hlogin := (tokenLogin_of_lookedUp hlook).symm
  refine ⟨r, st', hrun, ?_⟩
  cases hlook with
  | unknown _ => exact ⟨hlogin, rfl, fun _ hs => hs, rfl, rfl⟩
  | expired _ _ _ => exact ⟨hlogin, rfl, fun _ hs => List.mem_of_mem_filter hs, rfl, rfl⟩
  | orphan _ _ _ _ => exact ⟨hlogin, rfl, fun _ hs => hs, rfl, rfl⟩
  | found _ _ _ _ _ => exact ⟨hlogin, rfl, fun _ hs => hs, rfl, rfl⟩

theorem registerUser_quiet (env : Env) (login password : Bytes) (st : Store) :
    Quiet env st (final ((registerUser env login password).run st)) := by
  rcases registerUser_cases env login password st with ⟨-, h⟩ | ⟨-, h⟩
  · rw [h]
    exact .refl st
  · rw [h]
    exact ⟨⟨List.prefix_append _ _, Nat.le_succ _, fun _ hs => Or.inl hs⟩, rfl⟩

theorem verifyUser_quiet (env : Env) (login password : Bytes) (st : Store) :
    Quiet env st (final ((verifyUser env login password).run st)) := by
  rcases verifyUser_cases env login password st with ⟨-, h⟩ | ⟨-, ⟨u, -, -, h⟩ | ⟨e, h⟩⟩
  · rw [h]
    exact .refl st
  · rw [h]
    refine ⟨⟨List.prefix_rfl, Nat.le_succ _, ?_⟩, rfl⟩
    intro s hs
    rcases List.mem_append.mp hs with hold | hnew
    · exact Or.inl hold
    · rw [List.mem_singleton.mp hnew]
      exact Or.inr ⟨st.uuidsDrawn, le_rfl, Nat.lt_succ_self _, rfl⟩
  · rw [h]
    exact .of_subset rfl (fun _ hs => hs) rfl (Nat.le_succ _)

theorem getLoginByToken_quiet (env : Env) (token : Bytes) (st : Store) :
    Quiet env st (final ((getLoginByToken env token).run st)) := by
  obtain ⟨r, st', h, hlook⟩ := getLoginByToken_run env token st
  rw [h]
  exact .of_subset hlook.users hlook.sessions hlook.messages hlook.uuids.ge

theorem logout_quiet (env : Env) (token : Bytes) (st : Store) :
    Quiet env st (final ((logout token).run st)) :=
  .of_subset rfl (fun _ hs => List.mem_of_mem_filter hs) rfl le_rfl

theorem cleanExpiredTokens_quiet (env : Env) (st : Store) :
    Quiet env st (final ((cleanExpiredTokens env).run st)) :=
  .of_subset rfl (fun _ hs => List.mem_of_mem_filter hs) rfl le_rfl

end UserRepository

namespace FriendRepository

variable (env : Env)

theorem insertFriendship_quiet (p : ℤ × ℤ) (status : Status) (initiator : ℤ) (st : Store) :
    Quiet env st (final ((insertFriendship p status initiator).run st)) := by
  rcases requireUsers_cases [p.1, p.2] st with ⟨-, h⟩ | h
  · simp only [insertFriendship, EStateM.run_bind, h, run_modifyDb, final_ok]
    exact .of_subset rfl (fun _ hs => hs) rfl le_rfl
  · simp only [insertFriendship, EStateM.run_bind, h, final_error]
    exact .refl st

theorem sendRequest_quiet (sender target : ℤ) (st : Store) :
    Quiet env st (final ((sendRequest sender target).run st)) := by
  refine Quiet.of_moves (moves_ite (fun _ => moves_pure _ _) fun _ => ?_)
  refine moves_bind (moves_get st) fun store t _ => ?_
  split
  · exact moves_pure _ _
  · exact moves_pure _ _
  · exact moves_bind (.single (insertFriendship_quiet env _ _ _ t)) fun _ _ _ => moves_pure _ _

theorem acceptRequest_quiet (acceptor requester : ℤ) (st : Store) :
    Quiet env st (final ((acceptRequest acceptor requester).run st)) := by
  refine Quiet.of_moves (moves_bind (moves_get st) fun store t _ => ?_)
  split
  · exact moves_pure _ _
  · refine moves_ite (fun _ => moves_pure _ _) fun _ => ?_
    exact moves_bind (moves_modify (.of_subset rfl (fun _ hs => hs) rfl le_rfl))
      fun _ _ _ => moves_pure _ _

theorem rejectRequest_quiet (rejecter requester : ℤ) (st : Store) :
    Quiet env st (final ((rejectRequest rejecter requester).run st)) := by
  refine Quiet.of_moves (moves_bind (moves_get st) fun store t _ => ?_)
  split
  · exact moves_pure _ _
  · refine moves_ite (fun _ => moves_pure _ _) fun _ => ?_
    exact moves_bind (moves_modify (.of_subset rfl (fun _ hs => hs) rfl le_rfl))
      fun _ _ _ => moves_pure _ _

end FriendRepository

namespace MessageRepository

def withMessage (st : Store) (sender recipient now : ℤ) (message : Bytes) : Store :=
  { st with
    db := { st.db with
      directMessages := st.db.directMessages.insert
        (fun id => ⟨id, sender, recipient, now, message, 0⟩) (fun _ => rfl) }
    clockReads := st.clockReads + 1 }

theorem saveMessage_cases (env : Env) (sender recipient : ℤ) (message : Bytes) (st : Store) :
    ((st.db.findUser recipient).isSome ∧
      (saveMessage env sender recipient message).run st = .ok (st.db.directMessages.seq + 1)
        (withMessage st sender recipient (env.clock st.clockReads) message)) ∨
    ∃ e, (saveMessage env sender recipient message).run st =
      .error e { st with clockReads := st.clockReads + 1 } := by
  rcases requireUsers_cases [sender, recipient] { st with clockReads := st.clockReads + 1 } with
    ⟨husers, h⟩ | h
  · refine Or.inl ⟨husers recipient (by simp), ?_⟩
    simp only [saveMessage, EStateM.run_bind, run_systemNow, h, run_modifyDb, EStateM.run_get,
      EStateM.run_pure]
    rfl
  · refine Or.inr ⟨.sqliteException "FOREIGN KEY constraint failed", ?_⟩
    simp only [saveMessage, EStateM.run_bind, run_systemNow, h]

/-- Between users who exist a message is stored. -/
theorem saveMessage_run (env : Env) {sender recipient : ℤ} (message : Bytes) {st : Store}
    (husers : ∀ id ∈ [sender, recipient], (st.db.findUser id).isSome) :
    (saveMessage env sender recipient message).run st = .ok (st.db.directMessages.seq + 1)
      (withMessage st sender recipient (env.clock st.clockReads) message) := by
  have hall : [sender, recipient].all (fun id => (st.db.findUser id).isSome) = true :=
    List.all_eq_true.mpr husers
  simp only [saveMessage, EStateM.run_bind, run_systemNow, requireUsers, EStateM.run_get, hall,
    if_true, run_modifyDb, EStateM.run_pure]
  rfl

theorem delivered_key (r : DirectMessageRow) : { r with delivered := 1 }.id = r.id := rfl

def withDelivered (st : Store) (ids : List ℤ) : Store :=
  { st with
    db := { st.db with
      directMessages := st.db.directMessages.update (fun r => ids.contains r.id)
        (fun r => { r with delivered := 1 }) delivered_key } }

/-- A long list of ids is refused before the statement runs. -/
theorem markDelivered_cases (ids : List ℤ) (st : Store) :
    (ids.length ≤ maxVariableNumber ∧
      (markDelivered ids).run st = .ok () (withDelivered st ids)) ∨
    (maxVariableNumber < ids.length ∧ (markDelivered ids).run st =
      .error (.sqliteException "too many SQL variables") st) := by
  by_cases h : ids.length > maxVariableNumber
  · refine Or.inr ⟨h, ?_⟩
    simp only [markDelivered, if_pos h, run_throw_any]
  · refine Or.inl ⟨not_lt.mp h, ?_⟩
    simp only [markDelivered, if_neg h, run_modifyDb]
    rfl

end MessageRepository

end Messenger
