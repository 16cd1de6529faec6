import Messenger.Refinement
import Mathlib.Data.List.Induction

/-!
Who may act for whom, and why. A token stands for a login because the handler of a REGISTER
or LOGIN gave it out for them, not longer ago than tokens live, and no LOGOUT has named it
since. And whoever logs in has shown the password with which the login was registered, the
only one it ever had.
-/
namespace Messenger.Credentials

open Outcomes UserRepository ClientSession HandlerActions HandlePacket ServerSteps TokenIdentity
  TokenRequests PlainMessenger Representations Refinement LabelledRuns

/-- The handler of a REGISTER or LOGIN with this login and password gives the token. -/
inductive Gives (env : Env) (w : World) (token login password : Bytes) : Event → Prop where
  | taken (c : ConnId) (packetType : PacketType) (body : Bytes) (w₁ : World)
      (hrunning : w.status = .running) (hlive : (w.sessions c).isSome)
      (htype : packetType = .register ∨ packetType = .login)
      (hreq : deserialize AuthRequest body = .ok ⟨login, password⟩)
      (hrun : (dispatch env c packetType body).run w =
        .ok (some (.auth ⟨token, Error.Base.ok⟩), some login) w₁) :
      Gives env w token login password (.packet c packetType body)

def isRegister : Event → Bool
  | .packet _ packetType _ => packetType == .register
  | _ => false

/-- A REGISTER that opens an account. -/
def Registers (env : Env) (login password : Bytes) (w : World) (e : Event) : Prop :=
  isRegister e = true ∧ ∃ token, Gives env w token login password e

/-- A LOGOUT that names the token. -/
inductive Revokes (w : World) (token : Bytes) : Event → Prop where
  | taken (c : ConnId) (body : Bytes) (hrunning : w.status = .running)
      (hlive : (w.sessions c).isSome) (hreq : deserialize LogoutRequest body = .ok ⟨token⟩) :
      Revokes w token (.packet c .logout body)

section

variable {env : Env} {w : World} {token token' login login' password password' : Bytes} {e : Event}

theorem Gives.unique (h : Gives env w token login password e)
    (h' : Gives env w token' login' password' e) :
    token = token' ∧ login = login' ∧ password = password' := by
  obtain ⟨c, packetType, body, w₁, -, -, -, hreq, hrun⟩ := h
  obtain ⟨_, _, _, w₁', -, -, -, hreq', hrun'⟩ := h'
  cases hreq.symm.trans hreq'
  cases hrun.symm.trans hrun'
  exact ⟨rfl, rfl, rfl⟩

theorem Gives.not_revokes (h : Gives env w token login password e) (token' : Bytes) :
    ¬ Revokes w token' e := by
  intro hrevokes
  obtain ⟨c, packetType, body, w₁, -, -, htype, -, -⟩ := h
  cases hrevokes
  rcases htype with hregister | hlogin
  · cases hregister
  · cases hlogin

theorem Gives.registers_iff (h : Gives env w token login password e) :
    Registers env login' password' w e ↔
      isRegister e = true ∧ login' = login ∧ password' = password := by
  constructor
  · rintro ⟨hregister, token', h'⟩
    obtain ⟨-, rfl, rfl⟩ := h.unique h'
    exact ⟨hregister, rfl, rfl⟩
  · rintro ⟨hregister, rfl, rfl⟩
    exact ⟨hregister, token, h⟩

theorem Revokes.unique (h : Revokes w token e) (h' : Revokes w token' e) : token = token' := by
  obtain ⟨c, body, -, -, hreq⟩ := h
  obtain ⟨_, _, -, -, hreq'⟩ := h'
  cases hreq.symm.trans hreq'
  rfl

/-- A token that is given out is drawn for it. -/
theorem Gives.fresh (h : Gives env w token login password e) :
    ∃ n, w.store.uuidsDrawn ≤ n ∧ token = env.uuid n := by
  obtain ⟨c, packetType, body, w₁, -, -, htype, hreq, hrun⟩ := h
  rcases htype with rfl | rfl
  · obtain ⟨response, hend, hresponse⟩ := answerAuth_ok hrun
    rcases handleRegister_cases env c w hreq with
      ⟨-, hcase⟩ | ⟨-, ⟨salt, hash, store, u, hstore, -, -, hcase⟩ | ⟨e, w₂, hcase⟩⟩
    · cases hcase.symm.trans hend
    · cases hcase.symm.trans hend
      cases hresponse
      refine ⟨store.uuidsDrawn, ?_, rfl⟩
      rw [hstore]
      exact Nat.le_succ _
    · cases hcase.symm.trans hend
  · obtain ⟨response, hend, hresponse⟩ := answerAuth_ok hrun
    rcases handleLogin_cases env c w hreq with
      ⟨-, hcase⟩ | ⟨-, ⟨u, -, -, hcase⟩ | ⟨e, w₂, hcase⟩⟩
    · cases hcase.symm.trans hend
    · cases hcase.symm.trans hend
      cases hresponse
      exact ⟨w.store.uuidsDrawn, le_rfl, rfl⟩
    · cases hcase.symm.trans hend

theorem Gives.drawn (h : Gives env w token login password e) :
    ∃ n < (w.step env e).store.uuidsDrawn, token = env.uuid n := by
  obtain ⟨c, packetType, body, w₁, hrunning, hlive, htype, hreq, hrun⟩ := h
  obtain ⟨id, hissued⟩ := issued_of_dispatch htype hreq hrun
  have hstep : w.step env (.packet c packetType body) = w.receive env c packetType body := by
    simp only [World.step, hrunning, hlive, and_self, if_true]
  rw [hstep]
  refine receive_preserves (P := fun w' : World => ∃ n < w'.store.uuidsDrawn, token = env.uuid n)
    env hlive (fun _ _ _ h => h) (fun _ _ h => h) (fun _ r h => ?_) (fun _ h => h) ?_
  · cases r <;> exact h
  · rw [hrun]
    exact hissued.drawn

variable {m m' : Plain}

/-- An event, as far as tokens and accounts are concerned. -/
inductive TokenStep (env : Env) (w : World) (e : Event) (m m' : Plain) : Prop where
  | registered (token login password : Bytes) (hgives : Gives env w token login password e)
      (hregister : isRegister e = true)
      (hgrants : m'.grants = (m.grant token login (env.clock w.store.clockReads)).grants)
      (haccounts : m'.accounts = m.accounts ++ [(login, password)])
  | loggedIn (token login password : Bytes) (hgives : Gives env w token login password e)
      (hregister : isRegister e = false) (hknown : (login, password) ∈ m.accounts)
      (hgrants : m'.grants = (m.grant token login (env.clock w.store.clockReads)).grants)
      (haccounts : m'.accounts = m.accounts)
  | revoked (token : Bytes) (hrevokes : Revokes w token e)
      (hgrants : m'.grants = (m.revoke token).grants) (haccounts : m'.accounts = m.accounts)
  | kept (hgives : ∀ token login password, ¬ Gives env w token login password e)
      (hrevokes : ∀ token, ¬ Revokes w token e) (hgrants : m'.grants = m.grants)
      (haccounts : m'.accounts = m.accounts)

theorem step_of_carried {a : Ask} {token : Bytes} (h : carriedToken a.request = some token) :
    (m.step tokenTtl a).grants = m.grants ∧ (m.step tokenTtl a).accounts = m.accounts := by
  unfold State.step
  cases hrequest : a.request with
  | present token' => exact ⟨rfl, rfl⟩
  | befriend token' operation target =>
    simp only
    cases m.holder tokenTtl token' a.now with
    | none => exact ⟨rfl, rfl⟩
    | some login =>
      simp only
      split <;> exact ⟨rfl, rfl⟩
  | write token' recipient text =>
    simp only
    cases m.holder tokenTtl token' a.now with
    | none => exact ⟨rfl, rfl⟩
    | some login =>
      simp only
      split <;> exact ⟨rfl, rfl⟩
  | register | login | logout | fetch =>
    rw [hrequest] at h
    cases h

/-- An event that gives and revokes nothing leaves tokens and accounts alone. -/
theorem kept_of_quiet (hgives : ∀ token login password, ¬ Gives env w token login password e)
    (hrevokes : ∀ token, ¬ Revokes w token e) : TokenStep env w e m m :=
  .kept hgives hrevokes rfl rfl

/-- Handing over what waits concerns neither tokens nor accounts. -/
theorem TokenStep.fetched (h : TokenStep env w e m m') (login : Bytes) :
    TokenStep env w e m (m'.fetched login) := by
  cases h with
  | registered token login password hgives hregister hgrants haccounts =>
    exact .registered token login password hgives hregister hgrants haccounts
  | loggedIn token login password hgives hregister hknown hgrants haccounts =>
    exact .loggedIn token login password hgives hregister hknown hgrants haccounts
  | revoked token hrevokes hgrants haccounts => exact .revoked token hrevokes hgrants haccounts
  | kept hgives hrevokes hgrants haccounts => exact .kept hgives hrevokes hgrants haccounts

variable {c : ConnId} {packetType : PacketType} {body : Bytes}

theorem request_tokenStep (hclock : Monotone env.clock) (hsha : Function.Injective (sha256 env))
    (h : Represents env w.store m) (hnul : NulFreeLogin packetType body)
    (hrunning : w.status = .running) (hlive : (w.sessions c).isSome) {q : PlainRequest}
    (hplain : plainRequest packetType body = some q) :
    TokenStep env w (.packet c packetType body) m (m.step tokenTtl (ask env w.store q)) := by
  have hother : packetType ≠ .register → packetType ≠ .login → packetType ≠ .logout →
      (∃ token, carriedToken q = some token) →
      TokenStep env w (.packet c packetType body) m (m.step tokenTtl (ask env w.store q)) := by
    rintro hregister hlogin hlogout ⟨token, htoken⟩
    obtain ⟨hgrants, haccounts⟩ := step_of_carried (m := m) (a := ask env w.store q) htoken
    refine .kept ?_ ?_ hgrants haccounts
    · rintro token login password ⟨_, _, _, w₁, -, -, htype, -, -⟩
      rcases htype with hsame | hsame
      · exact hregister hsame
      · exact hlogin hsame
    · rintro token ⟨_, _, -, -, -⟩
      exact hlogout rfl
  cases packetType with
  | register =>
    obtain ⟨req, hreq, rfl⟩ := toOption_map_some hplain
    have hregistered : m.Registered req.login ↔ _ := registered_iff_findLogin h
    rcases handleRegister_cases env c w hreq with ⟨htaken, hrun⟩ | ⟨hfree, -⟩
    · have hsame : m.step tokenTtl (ask env w.store (.register req.login req.password)) = m := by
        simp only [State.step, ask, if_pos (hregistered.mpr htaken)]
      rw [hsame]
      refine kept_of_quiet ?_ (by rintro token ⟨⟩)
      rintro token login password ⟨_, _, _, w₁, -, -, -, -, hend⟩
      cases (answerAuth_run hrun).symm.trans hend
    · have hunregistered : ¬ m.Registered req.login := by
        rw [hregistered, hfree]
        exact Bool.false_ne_true
      obtain ⟨st', hrun, -⟩ := register_given hclock c h hreq
        (hnul rfl req (by rw [hreq]; rfl)) hfree
      refine .registered _ req.login req.password
        (.taken c .register body _ hrunning hlive (Or.inl rfl) hreq (answerAuth_run hrun)) rfl ?_ ?_
      · simp only [State.step, ask, if_neg hunregistered]
        rfl
      · simp only [State.step, ask, if_neg hunregistered]
        rfl
  | login =>
    obtain ⟨req, hreq, rfl⟩ := toOption_map_some hplain
    have hverified := Registrations.verifyPassword_iff h.accounts
      (Registrations.noCollision_of_injective hsha w.store m.accounts req.login req.password)
    rcases handleLogin_cases env c w hreq with ⟨hpw, hrun⟩ | ⟨hpw, -⟩
    · have hunknown : (req.login, req.password) ∉ m.accounts := by
        rw [← hverified, hpw]
        exact Bool.false_ne_true
      have hsame : m.step tokenTtl (ask env w.store (.login req.login req.password)) = m := by
        simp only [State.step, ask, if_neg hunknown]
      rw [hsame]
      refine kept_of_quiet ?_ (by rintro token ⟨⟩)
      rintro token login password ⟨_, _, _, w₁, -, -, -, -, hend⟩
      cases (answerAuth_run hrun).symm.trans hend
    · have hknown := hverified.mp hpw
      obtain ⟨st', hrun, -⟩ := login_given hclock c h hreq hpw
      refine .loggedIn _ req.login req.password
        (.taken c .login body _ hrunning hlive (Or.inr rfl) hreq (answerAuth_run hrun)) rfl
        hknown ?_ ?_
      · simp only [State.step, ask, if_pos hknown]
        rfl
      · simp only [State.step, ask, if_pos hknown]
        rfl
  | logout =>
    obtain ⟨req, hreq, rfl⟩ := toOption_map_some hplain
    exact .revoked req.oldToken (.taken c body hrunning hlive hreq) rfl rfl
  | result | friendNewRequest | friendRequestAccepted | friendRequestRejected | unnamed =>
    cases hplain
  | _ =>
    obtain ⟨req, -, rfl⟩ := toOption_map_some hplain
    exact hother (by rintro ⟨⟩) (by rintro ⟨⟩) (by rintro ⟨⟩) ⟨_, rfl⟩

theorem event_tokenStep (hclock : Monotone env.clock) (hsha : Function.Injective (sha256 env))
    (h : Represents env w.store m) (e : Event) (hnul : NulFreeEvent e) :
    TokenStep env w e m (LabelledRuns.run (State.step tokenTtl) m (shown env w e)) := by
  cases e with
  | packet c packetType body =>
    simp only [shown]
    split
    · rename_i hready
      obtain ⟨hrunning, hlive⟩ := hready
      have hrequest : TokenStep env w (.packet c packetType body) m
          (LabelledRuns.run (State.step tokenTtl) m
            ((plainRequest packetType body).map (ask env w.store)).toList) := by
        cases hplain : plainRequest packetType body with
        | some q => exact request_tokenStep hclock hsha h hnul hrunning hlive hplain
        | none =>
          refine kept_of_quiet ?_ ?_
          · rintro token login password ⟨_, _, _, w₁, -, -, htype, hreq, -⟩
            rcases htype with rfl | rfl
            · rw [plainRequest, hreq] at hplain
              cases hplain
            · rw [plainRequest, hreq] at hplain
              cases hplain
          · rintro token ⟨_, _, -, -, hreq⟩
            rw [plainRequest, hreq] at hplain
            cases hplain
      unfold asked
      rw [LabelledRuns.run_append]
      split
      · exact hrequest
      · cases authenticatesAs env w packetType body with
        | none => exact hrequest
        | some login => exact hrequest.fetched login
    · rename_i hready
      refine kept_of_quiet ?_ ?_
      · rintro token login password ⟨_, _, _, w₁, hrunning, hlive, -, -, -⟩
        exact hready ⟨hrunning, hlive⟩
      · rintro token ⟨_, _, hrunning, hlive, -⟩
        exact hready ⟨hrunning, hlive⟩
  | _ => exact kept_of_quiet (by rintro _ _ _ ⟨⟩) (by rintro _ ⟨⟩)

end

/-- A packet at the time `since` gave the token for `login`, and no later one revoked it. -/
def GivenFor (env : Env) (files : ℕ → Option Bytes) (events : List Event) (token login : Bytes)
    (since : ℤ) : Prop :=
  ∃ before e after password, events = before ++ e :: after ∧
    Gives env (LabelledRuns.run (World.step env) (World.initial env files) before) token login
      password e ∧
    since = env.clock
      (LabelledRuns.run (World.step env) (World.initial env files) before).store.clockReads ∧
    Along (World.step env) (fun w e => ¬ Revokes w token e)
      (LabelledRuns.run (World.step env) (World.initial env files) (before ++ [e])) after

section

variable {env : Env} {files : ℕ → Option Bytes} {events : List Event} {e : Event}
  {m m' : Plain} {token login : Bytes} {since : ℤ}

theorem givenFor_snoc :
    GivenFor env files (events ++ [e]) token login since ↔
      (GivenFor env files events token login since ∧
        ¬ Revokes (LabelledRuns.run (World.step env) (World.initial env files) events) token e) ∨
      ∃ password, Gives env
          (LabelledRuns.run (World.step env) (World.initial env files) events) token login
          password e ∧
        since = env.clock (LabelledRuns.run (World.step env) (World.initial env files)
          events).store.clockReads := by
  constructor
  · rintro ⟨before, e₀, after, password, hevents, hgives, hsince, hkept⟩
    rcases List.eq_nil_or_concat after with rfl | ⟨init, last, rfl⟩
    · obtain ⟨rfl, hlast⟩ := List.append_inj' hevents rfl
      obtain rfl := List.singleton_inj.mp hlast
      exact Or.inr ⟨password, hgives, hsince⟩
    · rw [List.concat_eq_append, ← List.cons_append, ← List.append_assoc] at hevents
      obtain ⟨rfl, hlast⟩ := List.append_inj' hevents rfl
      obtain rfl := List.singleton_inj.mp hlast
      rw [List.concat_eq_append] at hkept
      obtain ⟨hinit, hnot, -⟩ := along_append_iff.mp hkept
      rw [← LabelledRuns.run_append, List.append_assoc, List.singleton_append] at hnot
      exact Or.inl ⟨⟨before, e₀, init, password, rfl, hgives, hsince, hinit⟩, hnot⟩
  · rintro (⟨⟨before, e₀, after, password, rfl, hgives, hsince, hkept⟩, hnot⟩ |
      ⟨password, hgives, hsince⟩)
    · refine ⟨before, e₀, after ++ [e], password, ?_, hgives, hsince, ?_⟩
      · rw [List.append_assoc, List.cons_append]
      · refine along_append_iff.mpr ⟨hkept, ?_, trivial⟩
        rw [← LabelledRuns.run_append, List.append_assoc, List.singleton_append]
        exact hnot
    · exact ⟨events, e, [], password, rfl, hgives, hsince, trivial⟩

/-- A token that has been given is not drawn again. -/
theorem GivenFor.drawn (h : GivenFor env files events token login since) :
    ∃ n < (LabelledRuns.run (World.step env) (World.initial env files) events).store.uuidsDrawn,
      token = env.uuid n := by
  obtain ⟨before, e, after, password, rfl, hgives, -, -⟩ := h
  obtain ⟨n, hn, htoken⟩ := hgives.drawn
  refine ⟨n, ?_, htoken⟩
  rw [LabelledRuns.run_append, LabelledRuns.run_cons]
  exact LabelledRuns.invariant (P := fun w : World => n < w.store.uuidsDrawn)
    (fun w e h => h.trans_le (step_grows env w e).uuids) hn after

theorem GivenFor.not_given (h : GivenFor env files events token login since)
    {login' password : Bytes} : ¬ Gives env
      (LabelledRuns.run (World.step env) (World.initial env files) events) token login'
      password e := by
  intro hgives
  obtain ⟨n, hn, htoken⟩ := h.drawn
  obtain ⟨n', hn', htoken'⟩ := hgives.fresh
  have hsame : n = n' := env.uuid_injective (htoken.symm.trans htoken')
  omega

theorem tokenStep_run (files : ℕ → Option Bytes) (hclock : Monotone env.clock)
    (hsha : Function.Injective (sha256 env))
    (hnul : ∀ e ∈ events, NulFreeEvent e) (hlast : NulFreeEvent e) :
    TokenStep env (LabelledRuns.run (World.step env) (World.initial env files) events) e
      (played env files events) (played env files (events ++ [e])) := by
  rw [played_snoc]
  exact event_tokenStep hclock hsha (represents_run hclock hsha files hnul) e hlast

/-- A packet that gives a token, as far as the history of any token is concerned. -/
theorem grants_given_iff (hgiven : m.grants token = some ⟨login, since⟩ ↔
      GivenFor env files events token login since) {token' login' password : Bytes}
    (hgives : Gives env (LabelledRuns.run (World.step env) (World.initial env files) events) token'
      login' password e)
    (hgrants : m'.grants = (m.grant token' login' (env.clock (LabelledRuns.run (World.step env)
      (World.initial env files) events).store.clockReads)).grants) :
    m'.grants token = some ⟨login, since⟩ ↔
      GivenFor env files (events ++ [e]) token login since := by
  rw [givenFor_snoc, hgrants]
  by_cases htoken : token = token'
  · subst htoken
    rw [grants_grant_self]
    constructor
    · intro hsame
      cases hsame
      exact Or.inr ⟨password, hgives, rfl⟩
    · rintro (⟨hearlier, -⟩ | ⟨password', hgives', rfl⟩)
      · exact absurd hgives hearlier.not_given
      · obtain ⟨-, rfl, -⟩ := hgives.unique hgives'
        rfl
  · rw [grants_grant_of_ne htoken, hgiven]
    constructor
    · exact fun hearlier => Or.inl ⟨hearlier, hgives.not_revokes token⟩
    · rintro (⟨hearlier, -⟩ | ⟨password', hgives', -⟩)
      · exact hearlier
      · exact absurd (hgives.unique hgives').1.symm htoken

/-- For whom a token stands, and since when, is what the packets of the run say. -/
theorem grants_iff (hclock : Monotone env.clock) (hsha : Function.Injective (sha256 env))
    (hnul : ∀ e ∈ events, NulFreeEvent e) :
    (played env files events).grants token = some ⟨login, since⟩ ↔
      GivenFor env files events token login since := by
  induction events using List.reverseRecOn with
  | nil =>
    constructor
    · intro h
      cases h
    · rintro ⟨before, e, after, password, hevents, -⟩
      exact absurd hevents.symm (by simp)
  | append_singleton events e ih =>
    obtain ⟨hbefore, hlast⟩ := List.forall_mem_append.mp hnul
    have hstep := tokenStep_run files hclock hsha hbefore
      (hlast e (List.mem_singleton_self e))
    have hgiven := ih hbefore
    cases hstep with
    | registered token' login' password hgives _ hgrants _ =>
      exact grants_given_iff hgiven hgives hgrants
    | loggedIn token' login' password hgives _ _ hgrants _ =>
      exact grants_given_iff hgiven hgives hgrants
    | revoked token' hrevokes hgrants _ =>
      rw [givenFor_snoc, hgrants]
      by_cases htoken : token = token'
      · subst htoken
        rw [grants_revoke_self]
        constructor
        · intro h
          cases h
        · rintro (⟨-, hnot⟩ | ⟨password, hgives, -⟩)
          · exact absurd hrevokes hnot
          · exact absurd hrevokes (hgives.not_revokes token)
      · rw [grants_revoke_of_ne htoken, hgiven]
        constructor
        · refine fun hearlier => Or.inl ⟨hearlier, fun hrevokes' => htoken ?_⟩
          exact hrevokes'.unique hrevokes
        · rintro (⟨hearlier, -⟩ | ⟨password, hgives, -⟩)
          · exact hearlier
          · exact absurd hrevokes (hgives.not_revokes token')
    | kept hgives hrevokes hgrants _ =>
      rw [givenFor_snoc, hgrants, hgiven]
      constructor
      · exact fun hearlier => Or.inl ⟨hearlier, hrevokes token⟩
      · rintro (⟨hearlier, -⟩ | ⟨password, hgives', -⟩)
        · exact hearlier
        · exact absurd hgives' (hgives token login password)

/-- Who has an account, and with what password. -/
theorem accounts_iff (hclock : Monotone env.clock) (hsha : Function.Injective (sha256 env))
    (hnul : ∀ e ∈ events, NulFreeEvent e) {login password : Bytes} :
    (login, password) ∈ (played env files events).accounts ↔
      Occurred (World.step env) (Registers env login password) (World.initial env files)
        events := by
  induction events using List.reverseRecOn with
  | nil =>
    constructor
    · intro h
      cases h
    · rintro ⟨before, e, after, hevents, -⟩
      exact absurd hevents.symm (by simp)
  | append_singleton events e ih =>
    obtain ⟨hbefore, hlast⟩ := List.forall_mem_append.mp hnul
    have hstep := tokenStep_run files hclock hsha hbefore
      (hlast e (List.mem_singleton_self e))
    rw [occurred_snoc_iff, ← ih hbefore]
    cases hstep with
    | registered token login' password' hgives hregister _ haccounts =>
      rw [haccounts, List.mem_append, List.mem_singleton, hgives.registers_iff, Prod.mk.injEq]
      simp only [hregister, true_and]
    | loggedIn token login' password' hgives hregister _ _ haccounts =>
      rw [haccounts, hgives.registers_iff, hregister]
      simp only [Bool.false_eq_true, false_and, or_false]
    | revoked token hrevokes _ haccounts =>
      rw [haccounts]
      refine (or_iff_left ?_).symm
      rintro ⟨-, token', hgives⟩
      exact hgives.not_revokes token hrevokes
    | kept hgives _ _ haccounts =>
      rw [haccounts]
      refine (or_iff_left ?_).symm
      rintro ⟨-, token, hgives'⟩
      exact hgives token login password hgives'

/-- After every run a token is accepted for a login exactly when a REGISTER or LOGIN gave it
for them, not longer ago than tokens live, and no LOGOUT has named it since; whoever was
given one had shown the password with which an account was opened for the login, not later;
and no login ever has accounts with two passwords. As everywhere, a run counts up to where
the files of the database are overwritten. -/
theorem authentic_run (env : Env) (hclock : Monotone env.clock)
    (hsha : Function.Injective (sha256 env)) (files : ℕ → Option Bytes) (events : List Event)
    (hnul : ∀ e ∈ events, NulFreeEvent e) :
    (∀ token login,
      tokenLogin env token
          (LabelledRuns.run (World.step env) (World.initial env files) events).store = some login ↔
        ∃ since, GivenFor env files events token login since ∧
          env.clock (LabelledRuns.run (World.step env) (World.initial env files)
            events).store.clockReads - since ≤ tokenTtl) ∧
    (∀ before e after token login password, events = before ++ e :: after →
      Gives env (LabelledRuns.run (World.step env) (World.initial env files) before) token login
        password e →
      Occurred (World.step env) (Registers env login password) (World.initial env files)
        (before ++ [e])) ∧
    ∀ login password password',
      Occurred (World.step env) (Registers env login password) (World.initial env files) events →
      Occurred (World.step env) (Registers env login password') (World.initial env files) events →
      password = password' := by
  have hrepresents := represents_run hclock hsha files hnul
  refine ⟨fun token login => ?_, ?_, fun login password password' h h' => ?_⟩
  · rw [tokenLogin_eq_holder hrepresents, State.holder, Option.bind_eq_some_iff]
    constructor
    · rintro ⟨⟨login', since⟩, hgrants, hyoung⟩
      split at hyoung
      · cases hyoung
      · rename_i hnot
        cases hyoung
        exact ⟨since, (grants_iff hclock hsha hnul).mp hgrants, not_lt.mp hnot⟩
    · rintro ⟨since, hgiven, hyoung⟩
      exact ⟨⟨login, since⟩, (grants_iff hclock hsha hnul).mpr hgiven, if_neg (not_lt.mpr hyoung)⟩
  · rintro before e after token login password rfl hgives
    obtain ⟨hbefore, hrest⟩ := List.forall_mem_append.mp hnul
    have hlast := hrest e List.mem_cons_self
    rw [← accounts_iff hclock hsha (List.forall_mem_append.mpr
      ⟨hbefore, List.forall_mem_singleton.mpr hlast⟩)]
    cases tokenStep_run files hclock hsha hbefore hlast with
    | registered token' login' password' hgives' _ _ haccounts =>
      obtain ⟨-, rfl, rfl⟩ := hgives.unique hgives'
      rw [haccounts]
      exact List.mem_append_right _ (List.mem_singleton_self _)
    | loggedIn token' login' password' hgives' _ hknown _ haccounts =>
      obtain ⟨-, rfl, rfl⟩ := hgives.unique hgives'
      rw [haccounts]
      exact hknown
    | revoked token' hrevokes _ _ => exact absurd hrevokes (hgives.not_revokes token')
    | kept hnone _ _ _ => exact absurd hgives (hnone token login password)
  · have hmem := (accounts_iff hclock hsha hnul).mpr h
    have hmem' := (accounts_iff hclock hsha hnul).mpr h'
    have hsame := List.inj_on_of_nodup_map hrepresents.wellFormed.logins hmem hmem' rfl
    exact congrArg Prod.snd hsame

/-- The token of "a" was given to them. -/
theorem authentic_run_twoFriends :
    ∃ since, GivenFor Env.plain (fun _ => none) twoFriends [97, 97] [97] since := by
  obtain ⟨since, hgiven, -⟩ := ((authentic_run Env.plain clock_plain_monotone
    Registrations.sha256_plain_injective (fun _ => none) twoFriends nulFree_twoFriends).1
    [97, 97] [97]).mp (by decide)
  exact ⟨since, hgiven⟩

end

end Messenger.Credentials
