import Messenger.AccountCalls
import Mathlib.Data.List.Induction

/-!
How long a token is good for. A row of the sessions table dies by logout, at a lookup that
finds it expired, or under the cleaner; the last two only take what no later lookup would
accept. So a lookup succeeds exactly for a token that was issued, is young enough and has
not been logged out, whatever else was called in between.
-/
namespace Messenger.TokenLifetimes

open KeyedTables Outcomes UserRepository AccountCalls

/-- A verifyUser for this login has returned the token, not longer than its lifetime before
the reading `now`, and it has not been logged out since. -/
def AliveFor (env : Env) (st : Store) (calls : List TimedCall) (token : Bytes) (now : ℕ)
    (login : Bytes) : Prop :=
  ∃ before c after password, calls = before ++ c :: after ∧
    c.call = .verifyUser login password ∧
    issued env (LabelledRuns.run (step env) st before) c = some token ∧
    env.clock now - env.clock c.reading ≤ tokenTtl ∧
    ∀ d ∈ after, d.call ≠ .logout token

/-- The last call of a run either issues the token or lets it live on. -/
theorem aliveFor_append (env : Env) (st : Store) (calls : List TimedCall) (d : TimedCall)
    (token : Bytes) (now : ℕ) (login : Bytes) :
    AliveFor env st (calls ++ [d]) token now login ↔
      (AliveFor env st calls token now login ∧ d.call ≠ .logout token) ∨
      ∃ password, d.call = .verifyUser login password ∧
        issued env (LabelledRuns.run (step env) st calls) d = some token ∧
        env.clock now - env.clock d.reading ≤ tokenTtl := by
  constructor
  · rintro ⟨before, c, after, password, hcalls, hcall, hissued, hyoung, hkept⟩
    rcases List.eq_nil_or_concat after with rfl | ⟨init, last, rfl⟩
    · obtain ⟨rfl, hlast⟩ := List.append_inj' hcalls rfl
      obtain rfl := List.singleton_inj.mp hlast
      exact Or.inr ⟨password, hcall, hissued, hyoung⟩
    · rw [List.concat_eq_append, ← List.cons_append, ← List.append_assoc] at hcalls
      obtain ⟨rfl, hlast⟩ := List.append_inj' hcalls rfl
      obtain rfl := List.singleton_inj.mp hlast
      refine Or.inl ⟨⟨before, c, init, password, rfl, hcall, hissued, hyoung, ?_⟩, ?_⟩
      · exact fun e he => hkept e (by simp [he])
      · exact hkept d (by simp)
  · rintro (⟨⟨before, c, after, password, rfl, hcall, hissued, hyoung, hkept⟩, hd⟩ |
      ⟨password, hcall, hissued, hyoung⟩)
    · refine ⟨before, c, after ++ [d], password, by simp, hcall, hissued, hyoung, ?_⟩
      intro e he
      rcases List.mem_append.mp he with hold | hnew
      · exact hkept e hold
      · rw [List.mem_singleton.mp hnew]
        exact hd
    · exact ⟨calls, d, [], password, rfl, hcall, hissued, hyoung,
        fun e he => absurd he List.not_mem_nil⟩

/-- A row that a lookup at the reading `now` would accept, of the user with this login. -/
def Held (env : Env) (st : Store) (token : Bytes) (now : ℕ) (login : Bytes) : Prop :=
  ∃ s ∈ st.db.sessions, s.token = token ∧ env.clock now - s.createdAt ≤ tokenTtl ∧
    ∃ u, st.db.findUser s.id = some u ∧ u.login = login

/-- A token names one row, and a row names a user. -/
structure WellKept (st : Store) : Prop where
  keyed : Keyed st
  owned : ∀ s ∈ st.db.sessions, (st.db.findUser s.id).isSome

theorem findUser_withUser {st : Store} {id : ℤ} {u : UserRow} (h : st.db.findUser id = some u)
    (login salt password : Bytes) :
    (withUser st login salt password).db.findUser id = some u := by
  unfold Database.findUser at *
  simp only [withUser, Table.rows_insert, List.find?_append, h]
  rfl

theorem findUser_step (env : Env) {st : Store} {id : ℤ} {u : UserRow} (c : TimedCall)
    (h : st.db.findUser id = some u) : (step env st c).db.findUser id = some u := by
  have heffect := step_effect env st c
  generalize step env st c = st' at heffect
  cases heffect with
  | same _ husers _ _ _ _ =>
    rw [Database.findUser, husers]
    exact h
  | registered _ _ _ _ _ => exact findUser_withUser h _ _ _
  | issued _ _ _ _ _ _ _ _ => exact h
  | expired _ _ _ _ _ => exact h
  | loggedOut _ _ => exact h
  | cleaned _ _ husers _ =>
    rw [Database.findUser, husers]
    exact h

theorem wellKept_step (env : Env) {st : Store} (c : TimedCall) (h : WellKept st) :
    WellKept (step env st c) := by
  refine ⟨keyed_step env c h.keyed, ?_⟩
  have hold : ∀ s ∈ st.db.sessions, ((step env st c).db.findUser s.id).isSome := by
    intro s hs
    obtain ⟨u, hu⟩ := Option.isSome_iff_exists.mp (h.owned s hs)
    rw [findUser_step env c hu]
    rfl
  have heffect := step_effect env st c
  generalize step env st c = st' at hold heffect
  cases heffect with
  | same _ _ hsessions _ _ _ =>
    rw [hsessions]
    exact hold
  | registered _ _ _ _ _ => exact hold
  | issued login password u hcall _ hu _ _ =>
    intro s hs
    rcases List.mem_append.mp hs with hmem | hnew
    · exact hold s hmem
    · rw [List.mem_singleton.mp hnew]
      exact Option.isSome_iff_exists.mpr ⟨u, Database.findUser_of_findLogin hu⟩
  | expired _ _ _ _ _ => exact fun s hs => hold s (List.mem_of_mem_filter hs)
  | loggedOut _ _ => exact fun s hs => hold s (List.mem_of_mem_filter hs)
  | cleaned _ _ _ hsessions =>
    rw [hsessions]
    exact fun s hs => hold s (List.mem_of_mem_filter hs)

theorem wellKept_run (env : Env) {st : Store} (hnew : st.db.sessions = [])
    (calls : List TimedCall) : WellKept (LabelledRuns.run (step env) st calls) := by
  have hstart : WellKept st := by
    refine ⟨keyed_run env hnew [], ?_⟩
    rw [hnew]
    exact fun s hs => absurd hs List.not_mem_nil
  exact LabelledRuns.invariant (fun st c h => wellKept_step env c h) hstart calls

theorem held_congr {env : Env} {st st' : Store} (husers : st'.db.users = st.db.users)
    (hsessions : st'.db.sessions = st.db.sessions) (token : Bytes) (now : ℕ) (login : Bytes) :
    Held env st' token now login ↔ Held env st token now login := by
  unfold Held Database.findUser
  rw [husers, hsessions]

/-- Rows that a lookup would still accept outlive a deletion that spares them. -/
theorem held_filter {env : Env} {st st' : Store} (keep : SessionRow → Bool)
    (husers : st'.db.users = st.db.users)
    (hsessions : st'.db.sessions = st.db.sessions.filter keep) {token : Bytes} {now : ℕ}
    {login : Bytes}
    (hkeep : ∀ s ∈ st.db.sessions, s.token = token →
      env.clock now - s.createdAt ≤ tokenTtl → keep s = true) :
    Held env st' token now login ↔ Held env st token now login := by
  unfold Held Database.findUser
  rw [husers, hsessions]
  constructor
  · rintro ⟨s, hs, hrest⟩
    exact ⟨s, List.mem_of_mem_filter hs, hrest⟩
  · rintro ⟨s, hs, htoken, hyoung, huser⟩
    exact ⟨s, List.mem_filter.mpr ⟨hs, hkeep s hs htoken hyoung⟩, htoken, hyoung, huser⟩

section

variable {env : Env} {st : Store} {token login : Bytes} {now : ℕ}

theorem held_withUser (h : WellKept st) (login' salt password : Bytes) :
    Held env (withUser st login' salt password) token now login ↔
      Held env st token now login := by
  have hfind : ∀ s ∈ st.db.sessions,
      (withUser st login' salt password).db.findUser s.id = st.db.findUser s.id := by
    intro s hs
    obtain ⟨v, hv⟩ := Option.isSome_iff_exists.mp (h.owned s hs)
    rw [hv, findUser_withUser hv]
  constructor
  · rintro ⟨s, hs, htoken, hyoung, u, hu, hlogin⟩
    exact ⟨s, hs, htoken, hyoung, u, (hfind s hs).symm.trans hu, hlogin⟩
  · rintro ⟨s, hs, htoken, hyoung, u, hu, hlogin⟩
    exact ⟨s, hs, htoken, hyoung, u, (hfind s hs).trans hu, hlogin⟩

theorem held_withSession {login' : Bytes} {u : UserRow} (hu : st.db.findLogin login' = some u)
    (fresh : Bytes) (created : ℤ) :
    Held env (withSession st fresh u.id created) token now login ↔
      Held env st token now login ∨
        (login' = login ∧ fresh = token ∧ env.clock now - created ≤ tokenTtl) := by
  constructor
  · rintro ⟨s, hs, htoken, hyoung, v, hv, hlogin⟩
    rcases List.mem_append.mp hs with hmem | hnew
    · exact Or.inl ⟨s, hmem, htoken, hyoung, v, hv, hlogin⟩
    · obtain rfl := List.mem_singleton.mp hnew
      have hsame : u = v := by
        have hfind : st.db.findUser u.id = some v := hv
        rw [Database.findUser_of_findLogin hu] at hfind
        exact Option.some.inj hfind
      refine Or.inr ⟨?_, htoken, hyoung⟩
      rw [← hlogin, ← hsame, Database.login_of_findLogin hu]
  · rintro (⟨s, hs, hrest⟩ | ⟨hlogin, htoken, hyoung⟩)
    · exact ⟨s, List.mem_append_left _ hs, hrest⟩
    · exact ⟨_, List.mem_append_right _ (List.mem_singleton_self _), htoken, hyoung, u,
        Database.findUser_of_findLogin hu, (Database.login_of_findLogin hu).trans hlogin⟩

theorem not_held_withoutToken : ¬ Held env (withoutToken st token) token now login := by
  rintro ⟨s, hs, htoken, -⟩
  have hkept := (List.mem_filter.mp hs).2
  simp [htoken] at hkept

/-- Deleting a token matters to no other, and not even to itself when it has expired. -/
theorem held_withoutToken {token' : Bytes}
    (hother : ∀ s ∈ st.db.sessions, s.token = token → env.clock now - s.createdAt ≤ tokenTtl →
      s.token ≠ token') :
    Held env (withoutToken st token') token now login ↔ Held env st token now login := by
  refine held_filter (fun s => !(s.token == token')) (by rfl) (by rfl) ?_
  intro s hs htoken hyoung
  simp [hother s hs htoken hyoung]

end

/-- One call, seen from any later reading: the cleaner and a lookup change nothing. -/
theorem held_step (env : Env) {st : Store} (c : TimedCall) (h : WellKept st) {now : ℕ}
    (hnow : env.clock c.reading ≤ env.clock now) (token login : Bytes) :
    Held env (step env st c) token now login ↔
      (Held env st token now login ∧ c.call ≠ .logout token) ∨
      ∃ password, c.call = .verifyUser login password ∧ issued env st c = some token ∧
        env.clock now - env.clock c.reading ≤ tokenTtl := by
  have heffect := step_effect env st c
  generalize step env st c = st' at heffect
  have hgiven : Held env (given st c.reading c.draw) token now login ↔
      Held env st token now login := Iff.rfl
  -- calls that neither issue nor log out
  have quiet : (∀ password, c.call ≠ .verifyUser login password) → c.call ≠ .logout token →
      (Held env st' token now login ↔ Held env st token now login) →
      (Held env st' token now login ↔ (Held env st token now login ∧ c.call ≠ .logout token) ∨
        ∃ password, c.call = .verifyUser login password ∧ issued env st c = some token ∧
          env.clock now - env.clock c.reading ≤ tokenTtl) := by
    intro hverify hlogout hsame
    rw [hsame, and_iff_left hlogout, or_iff_left]
    rintro ⟨password, hcall, -⟩
    exact hverify password hcall
  cases heffect with
  | same _ husers hsessions _ hissued hcall =>
    rw [held_congr husers hsessions, and_iff_left (hcall token), or_iff_left]
    rintro ⟨_, _, hsome, _⟩
    rw [hissued] at hsome
    cases hsome
  | registered login' password' hcall hfree _ =>
    have hkept : WellKept (given st c.reading c.draw) := ⟨h.keyed, h.owned⟩
    exact quiet (by simp [hcall]) (by simp [hcall]) (held_withUser hkept _ _ _)
  | issued login' password' u hcall _ hu _ hissued =>
    have hknown : (given st c.reading c.draw).db.findLogin login' = some u := hu
    rw [and_iff_left (by simp [hcall]), held_withSession hknown, hgiven, hissued, hcall]
    refine or_congr_right ⟨?_, ?_⟩
    · rintro ⟨rfl, htoken, hyoung⟩
      exact ⟨password', rfl, congrArg some htoken, hyoung⟩
    · rintro ⟨password, hsame, htoken, hyoung⟩
      cases hsame
      exact ⟨rfl, Option.some.inj htoken, hyoung⟩
  | expired token' check hcall hcheck hexpired =>
    refine quiet (by simp [hcall]) (by simp [hcall]) (held_withoutToken ?_)
    rintro s hs htoken hyoung rfl
    rw [findToken_of_mem h.keyed hs] at hcheck
    cases hcheck
    omega
  | loggedOut token' hcall =>
    by_cases hsame : token' = token
    · subst hsame
      refine iff_of_false not_held_withoutToken ?_
      rintro (⟨-, hne⟩ | ⟨_, hcall', _⟩)
      · exact hne hcall
      · rw [hcall] at hcall'
        cases hcall'
    · refine quiet (by simp [hcall]) (by simp [hcall, hsame]) (held_withoutToken ?_)
      intro s hs htoken _ heq
      exact hsame (heq.symm.trans htoken)
  | cleaned _ hcall husers hsessions =>
    refine quiet (by simp [hcall]) (by simp [hcall]) (held_filter _ husers hsessions ?_)
    intro s hs _ hyoung
    have hreading : ¬ env.clock c.reading - s.createdAt > tokenTtl := by omega
    simp [hreading]

/-- The table holds a token for a login exactly as long as it is alive for it. -/
theorem held_run_iff (env : Env) {st : Store} (hnew : st.db.sessions = [])
    (calls : List TimedCall) (now : ℕ)
    (hnow : ∀ c ∈ calls, env.clock c.reading ≤ env.clock now) (token login : Bytes) :
    Held env (LabelledRuns.run (step env) st calls) token now login ↔
      AliveFor env st calls token now login := by
  induction calls using List.reverseRecOn with
  | nil =>
    constructor
    · rintro ⟨s, hs, -⟩
      rw [LabelledRuns.run_nil, hnew] at hs
      cases hs
    · rintro ⟨before, c, after, _, hcalls, -⟩
      simp at hcalls
  | append_singleton calls d ih =>
    have hbefore := ih (fun c hc => hnow c (List.mem_append_left _ hc))
    have hd := hnow d (List.mem_append_right _ (List.mem_singleton_self d))
    rw [LabelledRuns.run_append, LabelledRuns.run_cons, LabelledRuns.run_nil,
      held_step env d (wellKept_run env hnew calls) hd, hbefore, aliveFor_append]

/-- A lookup returns the login of the row it accepts, as a C string. -/
theorem lookup_iff_held {env : Env} {st : Store} (h : WellKept st) (now draw : ℕ)
    (token r : Bytes) :
    (∃ st', (getLoginByToken env token).run (given st now draw) = .ok (.ok r) st') ↔
      ∃ login, Held env st token now login ∧ r = getText login := by
  obtain ⟨r', st', hrun, hlook⟩ := getLoginByToken_lookedUp env token (given st now draw)
  rw [hrun]
  -- the row that a lookup finds is the only one it could accept
  have row : ∀ login, Held env st token now login → ∃ s u, st.db.findToken token = some s ∧
      env.clock now - s.createdAt ≤ tokenTtl ∧ st.db.findUser s.id = some u ∧ u.login = login := by
    rintro login ⟨s, hs, rfl, hyoung, u, hu, hlogin⟩
    exact ⟨s, u, findToken_of_mem h.keyed hs, hyoung, hu, hlogin⟩
  cases hlook with
  | unknown hcheck =>
    refine ⟨nofun, ?_⟩
    rintro ⟨login, hheld, -⟩
    obtain ⟨s, u, hs, -⟩ := row login hheld
    cases hs.symm.trans hcheck
  | expired check hcheck hold =>
    refine ⟨nofun, ?_⟩
    rintro ⟨login, hheld, -⟩
    obtain ⟨s, u, hs, hyoung, -⟩ := row login hheld
    obtain rfl : s = check := Option.some.inj (hs.symm.trans hcheck)
    exact absurd hyoung (not_le.mpr hold)
  | orphan check hcheck _ huser =>
    refine ⟨nofun, ?_⟩
    rintro ⟨login, hheld, -⟩
    obtain ⟨s, u, hs, -, hu, -⟩ := row login hheld
    obtain rfl : s = check := Option.some.inj (hs.symm.trans hcheck)
    cases hu.symm.trans huser
  | found check q hcheck hyoung huser =>
    constructor
    · rintro ⟨_, hok⟩
      cases hok
      refine ⟨q.login, ⟨check, List.mem_of_find?_eq_some hcheck, ?_, not_lt.mp hyoung, q, huser,
        rfl⟩, rfl⟩
      simpa using List.find?_some hcheck
    · rintro ⟨login, hheld, rfl⟩
      obtain ⟨s, u, hs, -, hu, hlogin⟩ := row login hheld
      obtain rfl : s = check := Option.some.inj (hs.symm.trans hcheck)
      obtain rfl : u = q := Option.some.inj (hu.symm.trans huser)
      exact ⟨_, by rw [hlogin]⟩

/-- The calls that decide the fate of a token: registrations, its issue, its logout. -/
def concerns (env : Env) (token : Bytes) (c : TimedCall) : Bool :=
  match c.call with
  | .registerUser _ _ => true
  | .verifyUser _ _ => env.uuid c.draw == token
  | .logout token' => token' == token
  | _ => false

theorem users_step_of_ne (env : Env) (st : Store) {c : TimedCall}
    (h : ∀ login password, c.call ≠ .registerUser login password) :
    (step env st c).db.users = st.db.users := by
  have heffect := step_effect env st c
  generalize step env st c = st' at heffect
  cases heffect with
  | same _ husers _ _ _ _ => exact husers
  | registered login password hcall _ _ => exact absurd hcall (h login password)
  | issued _ _ _ _ _ _ _ _ => rfl
  | expired _ _ _ _ _ => rfl
  | loggedOut _ _ => rfl
  | cleaned _ _ husers _ => exact husers

theorem users_step_congr (env : Env) {st st' : Store} (husers : st.db.users = st'.db.users)
    (c : TimedCall) : (step env st c).db.users = (step env st' c).db.users := by
  by_cases hregister : ∃ login password, c.call = .registerUser login password
  · obtain ⟨login, password, hcall⟩ := hregister
    have hfind : st.db.findLogin login = st'.db.findLogin login := by
      rw [Database.findLogin, husers]
      rfl
    simp only [step, hcall, exec]
    rcases registerUser_cases env login password (given st c.reading c.draw) with
      ⟨htaken, hrun⟩ | ⟨hfree, hrun⟩ <;>
    rcases registerUser_cases env login password (given st' c.reading c.draw) with
      ⟨htaken', hrun'⟩ | ⟨hfree', hrun'⟩
    · rw [hrun, hrun']
      exact husers
    · rw [given_db, hfind] at htaken
      rw [given_db] at hfree'
      rw [hfree'] at htaken
      cases htaken
    · rw [given_db, ← hfind] at htaken'
      rw [given_db] at hfree
      rw [hfree] at htaken'
      cases htaken'
    · rw [hrun, hrun']
      simp only [final_ok, withUser, given_db, husers]
      rfl
  · have hne : ∀ login password, c.call ≠ .registerUser login password :=
      fun login password hcall => hregister ⟨login, password, hcall⟩
    rw [users_step_of_ne env st hne, users_step_of_ne env st' hne, husers]

theorem generated_congr (env : Env) {st st' : Store} (husers : st.db.users = st'.db.users)
    (c : TimedCall) : generated env st c = generated env st' c := by
  unfold generated verifyPassword Database.findLogin
  rw [husers]

/-- Who is registered does not depend on the calls that are left out. -/
theorem users_run_filter (env : Env) (st : Store) (token : Bytes) (calls : List TimedCall) :
    (LabelledRuns.run (step env) st (calls.filter (concerns env token))).db.users =
      (LabelledRuns.run (step env) st calls).db.users := by
  induction calls using List.reverseRecOn with
  | nil => rfl
  | append_singleton calls d ih =>
    rw [List.filter_append, LabelledRuns.run_append, LabelledRuns.run_append]
    cases hd : concerns env token d with
    | true =>
      simp only [List.filter_cons, hd, if_true, List.filter_nil, LabelledRuns.run_cons,
        LabelledRuns.run_nil]
      exact users_step_congr env ih d
    | false =>
      simp only [List.filter_cons, hd, Bool.false_eq_true, if_false, List.filter_nil,
        LabelledRuns.run_cons, LabelledRuns.run_nil]
      rw [users_step_of_ne, ih]
      intro login password hcall
      simp [concerns, hcall] at hd

theorem generatedTokens_filter_subset (env : Env) (st : Store) (token : Bytes)
    (calls : List TimedCall) :
    generatedTokens env st (calls.filter (concerns env token)) ⊆ generatedTokens env st calls := by
  induction calls using List.reverseRecOn with
  | nil => exact fun _ h => h
  | append_singleton calls d ih =>
    have hsame := generated_congr env (users_run_filter env st token calls) d
    intro t ht
    rw [generatedTokens_append]
    rw [List.filter_append, generatedTokens_append] at ht
    rcases List.mem_append.mp ht with hold | hnew
    · exact List.mem_append_left _ (ih hold)
    · refine List.mem_append_right _ ?_
      cases hd : concerns env token d with
      | true =>
        simpa only [List.filter_cons, hd, if_true, List.filter_nil, generatedTokens,
          List.append_nil, hsame] using hnew
      | false =>
        simp [hd, generatedTokens] at hnew

/-- A token in the table has been drawn in the run. -/
theorem sessions_generated (env : Env) {st : Store} (hnew : st.db.sessions = [])
    (calls : List TimedCall) :
    ∀ s ∈ (LabelledRuns.run (step env) st calls).db.sessions,
      s.token ∈ generatedTokens env st calls := by
  induction calls using List.reverseRecOn with
  | nil =>
    intro s hs
    rw [LabelledRuns.run_nil, hnew] at hs
    cases hs
  | append_singleton calls d ih =>
    rw [LabelledRuns.run_append, LabelledRuns.run_cons, LabelledRuns.run_nil,
      generatedTokens_append]
    have heffect := step_effect env (LabelledRuns.run (step env) st calls) d
    generalize step env (LabelledRuns.run (step env) st calls) d = st' at heffect
    intro s hs
    cases heffect with
    | same _ _ hsessions _ _ _ =>
      rw [hsessions] at hs
      exact List.mem_append_left _ (ih s hs)
    | registered _ _ _ _ _ => exact List.mem_append_left _ (ih s hs)
    | issued login password u hcall hpassword _ _ _ =>
      rcases List.mem_append.mp hs with hold | hlast
      · exact List.mem_append_left _ (ih s hold)
      · rw [List.mem_singleton.mp hlast]
        refine List.mem_append_right _ ?_
        simp [generatedTokens, generated, hcall, hpassword]
    | expired _ _ _ _ _ => exact List.mem_append_left _ (ih s (List.mem_of_mem_filter hs))
    | loggedOut _ _ => exact List.mem_append_left _ (ih s (List.mem_of_mem_filter hs))
    | cleaned _ _ _ hsessions =>
      rw [hsessions] at hs
      exact List.mem_append_left _ (ih s (List.mem_of_mem_filter hs))

theorem generated_of_issued {env : Env} {st : Store} {c : TimedCall} {token : Bytes}
    (h : issued env st c = some token) : generated env st c = some token := by
  have heffect := step_effect env st c
  generalize step env st c = st' at heffect
  cases heffect with
  | same _ _ _ _ hissued _ =>
    rw [hissued] at h
    cases h
  | registered _ _ hcall _ _ => simp [issued, hcall] at h
  | issued _ _ _ hcall hpassword _ _ hissued =>
    rw [hissued] at h
    simpa [generated, hcall, hpassword] using h
  | expired _ _ hcall _ _ => simp [issued, hcall] at h
  | loggedOut _ hcall => simp [issued, hcall] at h
  | cleaned _ hcall _ _ => simp [issued, hcall] at h

/-- A token that is drawn while it is not in the table is returned. -/
theorem issued_of_generated {env : Env} {st : Store} {c : TimedCall} {token : Bytes}
    (h : generated env st c = some token) (hfresh : ∀ s ∈ st.db.sessions, s.token ≠ token) :
    issued env st c = some token := by
  unfold generated at h
  split at h
  · rename_i login password hcall
    split at h
    · rename_i hpassword
      obtain rfl := Option.some.inj h
      have hnone : (given st c.reading c.draw).db.findToken (env.uuid c.draw) = none := by
        refine List.find?_eq_none.mpr fun s hs hsame => hfresh s hs ?_
        simpa using hsame
      obtain ⟨u, -, hrun⟩ := verifyUser_run (given st c.reading c.draw) hpassword hnone
      simp only [issued, hcall, hrun]
      rfl
    · cases h
  · cases h

section Fresh

variable {env : Env} {st : Store} (hnew : st.db.sessions = []) (token : Bytes)
include hnew

/-- While no token is drawn twice, leaving out other calls does not change what is issued. -/
theorem issued_filter_iff {calls : List TimedCall} {d : TimedCall}
    (hfresh : (generatedTokens env st (calls ++ [d])).Nodup) :
    issued env (LabelledRuns.run (step env) st (calls.filter (concerns env token))) d =
        some token ↔
      issued env (LabelledRuns.run (step env) st calls) d = some token := by
  have hsame := generated_congr env (users_run_filter env st token calls) d
  rw [generatedTokens_append] at hfresh
  have hother : generated env (LabelledRuns.run (step env) st calls) d = some token →
      token ∉ generatedTokens env st calls := by
    intro hd hmem
    refine (List.nodup_append.mp hfresh).2.2 token hmem token ?_ rfl
    simp [generatedTokens, hd]
  constructor
  · intro h
    have hd := hsame ▸ generated_of_issued h
    refine issued_of_generated hd ?_
    rintro s hs rfl
    exact hother hd (sessions_generated env hnew calls s hs)
  · intro h
    have hd := generated_of_issued h
    refine issued_of_generated (hsame.trans hd) ?_
    rintro s hs rfl
    exact hother hd (generatedTokens_filter_subset env st _ calls
      (sessions_generated env hnew _ s hs))

theorem aliveFor_filter {calls : List TimedCall} (hfresh : (generatedTokens env st calls).Nodup)
    (now : ℕ) (login : Bytes) :
    AliveFor env st (calls.filter (concerns env token)) token now login ↔
      AliveFor env st calls token now login := by
  induction calls using List.reverseRecOn with
  | nil => rfl
  | append_singleton calls d ih =>
    have hissued := issued_filter_iff hnew token hfresh
    rw [generatedTokens_append] at hfresh
    have hcalls := ih (List.nodup_append.mp hfresh).1
    rw [List.filter_append, aliveFor_append env st calls d]
    cases hd : concerns env token d with
    | true =>
      simp only [List.filter_cons, hd, if_true, List.filter_nil]
      rw [aliveFor_append, hcalls, hissued]
    | false =>
      simp only [List.filter_cons, hd, Bool.false_eq_true, if_false, List.filter_nil,
        List.append_nil]
      have hlogout : d.call ≠ .logout token := by
        intro hcall
        simp [concerns, hcall] at hd
      rw [hcalls, and_iff_left hlogout, or_iff_left]
      rintro ⟨password, hcall, hsome, -⟩
      have hgenerated := generated_of_issued hsome
      simp only [concerns, hcall, beq_eq_false_iff_ne] at hd
      simp only [generated, hcall, Option.ite_none_right_eq_some, Option.some.injEq] at hgenerated
      exact hd hgenerated.2

end Fresh

/-- A lookup at a time that is not behind the run succeeds exactly for a token that a
verifyUser of the run returned, that is not older than its lifetime and that has not been
logged out since, and returns its login. In any other run with the same registrations, the
same issue and the same logouts of this token, the same lookups succeed with the same
results: cleaning, other lookups and other tokens make no difference. -/
theorem lookup_iff_alive (env : Env) (st : Store) (hnew : st.db.sessions = [])
    (calls : List TimedCall) (hfresh : (generatedTokens env st calls).Nodup) (now draw : ℕ)
    (hclock : ∀ c ∈ calls, env.clock c.reading ≤ env.clock now) (token : Bytes) :
    (∀ r, (∃ st', (getLoginByToken env token).run
          (given (LabelledRuns.run (step env) st calls) now draw) = .ok (.ok r) st') ↔
        ∃ login, AliveFor env st calls token now login ∧ r = getText login) ∧
      ∀ calls', (generatedTokens env st calls').Nodup →
        (∀ c ∈ calls', env.clock c.reading ≤ env.clock now) →
        calls'.filter (concerns env token) = calls.filter (concerns env token) →
        ∀ r draw', (∃ st', (getLoginByToken env token).run
            (given (LabelledRuns.run (step env) st calls') now draw') = .ok (.ok r) st') ↔
          ∃ st', (getLoginByToken env token).run
            (given (LabelledRuns.run (step env) st calls) now draw) = .ok (.ok r) st' := by
  have alive : ∀ calls : List TimedCall, (∀ c ∈ calls, env.clock c.reading ≤ env.clock now) →
      ∀ r draw, (∃ st', (getLoginByToken env token).run
          (given (LabelledRuns.run (step env) st calls) now draw) = .ok (.ok r) st') ↔
        ∃ login, AliveFor env st calls token now login ∧ r = getText login := by
    intro calls hclock r draw
    rw [lookup_iff_held (wellKept_run env hnew calls)]
    simp only [held_run_iff env hnew calls now hclock]
  refine ⟨fun r => alive calls hclock r draw, ?_⟩
  intro calls' hfresh' hclock' hsame r draw'
  rw [alive calls' hclock', alive calls hclock]
  simp only [← aliveFor_filter hnew token hfresh, ← aliveFor_filter hnew token hfresh', hsame]

/-- A new database, and a token that lives on past the cleaner and a stranger's logout. -/
def newStore : Store := ⟨Database.created, 0, 0⟩

def issuedThenCleaned : List TimedCall :=
  [⟨.registerUser [97] [112], 0, 0⟩, ⟨.verifyUser [97] [112], 1, 1⟩,
    ⟨.verifyUser [97] [112], 2, 2⟩, ⟨.cleanExpiredTokens, 3, 0⟩, ⟨.logout [97, 97, 97], 0, 0⟩]

theorem lookup_iff_alive_cleaned :
    ∃ login, AliveFor Env.plain newStore issuedThenCleaned [97, 97] 4 login ∧
      [97] = getText login :=
  ((lookup_iff_alive Env.plain newStore rfl issuedThenCleaned (by decide) 4 0 (by decide)
    [97, 97]).1 [97]).mp ⟨_, rfl⟩

end Messenger.TokenLifetimes
