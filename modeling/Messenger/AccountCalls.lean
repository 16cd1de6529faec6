import Messenger.RepositoryCalls
import Messenger.LabelledRuns

/-!
Runs of the calls of user_repository.hpp that touch accounts. A call is given the reading
of the clock and the identifier it will find, so that calls can be put into a run or taken
out of it without moving the others in time. Tokens stay distinct whatever is drawn, because
they are the key of their table.
-/
namespace Messenger.AccountCalls

open KeyedTables Outcomes UserRepository

inductive AccountCall where
  | registerUser (login password : Bytes)
  | verifyUser (login password : Bytes)
  | getLoginByToken (token : Bytes)
  | logout (token : Bytes)
  | cleanExpiredTokens
deriving DecidableEq, Repr

/-- A call, and which reading of the clock and which identifier it gets. -/
structure TimedCall where
  call : AccountCall
  reading : ℕ
  draw : ℕ
deriving DecidableEq, Repr

/-- The store as a call finds it. -/
def given (st : Store) (reading draw : ℕ) : Store :=
  { st with clockReads := reading, uuidsDrawn := draw }

@[simp] theorem given_db (st : Store) (reading draw : ℕ) : (given st reading draw).db = st.db :=
  rfl

def exec (env : Env) (st : Store) : AccountCall → Store
  | .registerUser login password => final ((registerUser env login password).run st)
  | .verifyUser login password => final ((verifyUser env login password).run st)
  | .getLoginByToken token => final ((getLoginByToken env token).run st)
  | .logout token => final ((logout token).run st)
  | .cleanExpiredTokens => final ((cleanExpiredTokens env).run st)

def step (env : Env) (st : Store) (c : TimedCall) : Store :=
  exec env (given st c.reading c.draw) c.call

/-- The login and password of a registration that returns OK. -/
def registered (env : Env) (st : Store) (c : TimedCall) : Option (Bytes × Bytes) :=
  match c.call with
  | .registerUser login password =>
    match (registerUser env login password).run (given st c.reading c.draw) with
    | .ok e _ => if e = Error.Base.ok then some (login, password) else none
    | .error _ _ => none
  | _ => none

/-- The token that a verifyUser returns. -/
def issued (env : Env) (st : Store) (c : TimedCall) : Option Bytes :=
  match c.call with
  | .verifyUser login password =>
    match (verifyUser env login password).run (given st c.reading c.draw) with
    | .ok (.ok token) _ => some token
    | _ => none
  | _ => none

/-- The token that a verifyUser draws, whether or not it can be stored. -/
def generated (env : Env) (st : Store) (c : TimedCall) : Option Bytes :=
  match c.call with
  | .verifyUser login password =>
    if verifyPassword env login password st then some (env.uuid c.draw) else none
  | _ => none

/-- All tokens drawn in a run, in order. -/
def generatedTokens (env : Env) : Store → List TimedCall → List Bytes
  | _, [] => []
  | st, c :: rest => (generated env st c).toList ++ generatedTokens env (step env st c) rest

theorem generatedTokens_append (env : Env) (st : Store) (before after : List TimedCall) :
    generatedTokens env st (before ++ after) = generatedTokens env st before ++
      generatedTokens env (LabelledRuns.run (step env) st before) after := by
  induction before generalizing st with
  | nil => rfl
  | cons c rest ih =>
    simp only [List.cons_append, generatedTokens, ih, List.append_assoc, LabelledRuns.run_cons]

/-- The ways in which a call changes the accounts. -/
inductive Effect (env : Env) (st : Store) (c : TimedCall) : Store → Prop where
  | same (st' : Store) (husers : st'.db.users = st.db.users)
      (hsessions : st'.db.sessions = st.db.sessions) (hregistered : registered env st c = none)
      (hissued : issued env st c = none) (hcall : ∀ token, c.call ≠ .logout token) :
      Effect env st c st'
  | registered (login password : Bytes) (hcall : c.call = .registerUser login password)
      (hfree : st.db.findLogin login = none)
      (hregistered : registered env st c = some (login, password)) :
      Effect env st c (withUser (given st c.reading c.draw) login (env.uuid c.draw)
        (sha256 env (password ++ env.uuid c.draw)))
  | issued (login password : Bytes) (u : UserRow) (hcall : c.call = .verifyUser login password)
      (hpassword : verifyPassword env login password st = true)
      (hu : st.db.findLogin login = some u) (hfresh : st.db.findToken (env.uuid c.draw) = none)
      (hissued : issued env st c = some (env.uuid c.draw)) :
      Effect env st c (withSession (given st c.reading c.draw) (env.uuid c.draw) u.id
        (env.clock c.reading))
  | expired (token : Bytes) (check : SessionRow) (hcall : c.call = .getLoginByToken token)
      (hcheck : st.db.findToken token = some check)
      (hold : env.clock c.reading - check.createdAt > tokenTtl) :
      Effect env st c (withoutToken (ticked (given st c.reading c.draw)) token)
  | loggedOut (token : Bytes) (hcall : c.call = .logout token) :
      Effect env st c (withoutToken (given st c.reading c.draw) token)
  | cleaned (st' : Store) (hcall : c.call = .cleanExpiredTokens)
      (husers : st'.db.users = st.db.users)
      (hsessions : st'.db.sessions = st.db.sessions.filter
        (fun s => !decide (env.clock c.reading - s.createdAt > tokenTtl))) :
      Effect env st c st'

theorem step_effect (env : Env) (st : Store) (c : TimedCall) :
    Effect env st c (step env st c) := by
  obtain ⟨call, reading, draw⟩ := c
  cases call with
  | registerUser login password =>
    have hcases := registerUser_cases env login password (given st reading draw)
    simp only [step, exec]
    rcases hcases with ⟨-, hrun⟩ | ⟨hfree, hrun⟩
    · rw [hrun]
      refine .same _ rfl rfl ?_ rfl nofun
      simp only [registered, hrun]
      rfl
    · rw [hrun]
      refine .registered login password rfl hfree ?_
      simp only [registered, hrun, if_true]
  | verifyUser login password =>
    have hcases := verifyUser_cases env login password (given st reading draw)
    simp only [step, exec]
    rcases hcases with ⟨-, hrun⟩ | ⟨hpw, ⟨u, hu, hfresh, hrun⟩ | ⟨e, hrun⟩⟩
    · rw [hrun]
      refine .same _ rfl rfl rfl ?_ nofun
      simp only [issued, hrun]
    · rw [hrun]
      refine .issued login password u rfl hpw hu hfresh ?_
      simp only [issued, hrun]
      rfl
    · rw [hrun]
      refine .same _ rfl rfl rfl ?_ nofun
      simp only [issued, hrun]
  | getLoginByToken token =>
    obtain ⟨r, st', hrun, hlook⟩ := getLoginByToken_lookedUp env token (given st reading draw)
    simp only [step, exec, hrun, final_ok]
    cases hlook with
    | unknown _ => exact .same _ rfl rfl rfl rfl nofun
    | expired check hcheck hold => exact .expired token check rfl hcheck hold
    | orphan _ _ _ _ => exact .same _ rfl rfl rfl rfl nofun
    | found _ _ _ _ _ => exact .same _ rfl rfl rfl rfl nofun
  | logout token => exact .loggedOut token rfl
  | cleanExpiredTokens => exact .cleaned _ rfl rfl rfl

def Keyed (st : Store) : Prop := (st.db.sessions.map SessionRow.token).Nodup

theorem keyed_step (env : Env) {st : Store} (c : TimedCall) (h : Keyed st) :
    Keyed (step env st c) := by
  have heffect := step_effect env st c
  generalize step env st c = st' at heffect
  unfold Keyed at *
  cases heffect with
  | same _ _ hsessions _ _ _ =>
    rw [hsessions]
    exact h
  | registered _ _ _ _ _ => exact h
  | issued _ _ u _ _ _ hfresh _ =>
    simp only [withSession, List.map_append]
    refine List.nodup_append.mpr ⟨h, List.nodup_singleton _, ?_⟩
    intro a ha b hb hab
    obtain ⟨s, hs, rfl⟩ := List.mem_map.mp ha
    have hno := List.find?_eq_none.mp hfresh s hs
    rw [List.map_singleton, List.mem_singleton] at hb
    simp [hab, hb] at hno
  | expired _ _ _ _ _ => exact (List.filter_sublist.map _).nodup h
  | loggedOut _ _ => exact (List.filter_sublist.map _).nodup h
  | cleaned _ _ _ hsessions =>
    rw [hsessions]
    exact (List.filter_sublist.map _).nodup h

theorem keyed_run (env : Env) {st : Store} (hnew : st.db.sessions = [])
    (calls : List TimedCall) : Keyed (LabelledRuns.run (step env) st calls) := by
  have hstart : Keyed st := by
    unfold Keyed
    rw [hnew]
    exact List.nodup_nil
  exact LabelledRuns.invariant (fun st c h => keyed_step env c h) hstart calls

/-- The row of a token is what a search for it finds. -/
theorem findToken_of_mem {st : Store} (h : Keyed st) {s : SessionRow}
    (hs : s ∈ st.db.sessions) : st.db.findToken s.token = some s := by
  cases hfind : st.db.findToken s.token with
  | none =>
    have hno := List.find?_eq_none.mp hfind s hs
    simp at hno
  | some t =>
    have ht : t ∈ st.db.sessions := List.mem_of_find?_eq_some hfind
    have htoken : t.token = s.token := by simpa using List.find?_some hfind
    rw [List.inj_on_of_nodup_map h ht hs htoken]

end Messenger.AccountCalls
