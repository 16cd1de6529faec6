import Messenger.TableSteps
import Messenger.Registrations

/-!
Authentications in a reachable state. A REGISTER, LOGIN or TOKEN_VERIFY that decodes is
either refused, and then at most an expired token goes, or it is accepted; the welcome
that follows ends in one of three ways.
-/
namespace Messenger.Authentications

open KeyedTables Outcomes ClientSession UserRepository MessageRepository FriendStates
  HandlerActions HandlePacket MalformedBodies MessageRows TokenRequests TableSteps

theorem findToken_fresh {env : Env} {st : Store}
    (hdrawn : ∀ s ∈ st.db.sessions, ∃ n < st.uuidsDrawn, s.token = env.uuid n) {n : ℕ}
    (hn : st.uuidsDrawn ≤ n) : st.db.findToken (env.uuid n) = none := by
  refine List.find?_eq_none.mpr fun s hs hsame => ?_
  obtain ⟨m, hm, htoken⟩ := hdrawn s hs
  have hmn : env.uuid m = env.uuid n := htoken.symm.trans (beq_iff_eq.mp hsame)
  exact absurd (env.uuid_injective hmn) (hm.trans_le hn).ne

/-- The row that a registration adds. -/
theorem findLogin_withUser {st : Store} {login : Bytes} (hfree : st.db.findLogin login = none)
    (salt hash : Bytes) :
    (withUser st login salt hash).db.findLogin login =
      some ⟨st.db.users.seq + 1, login, salt, hash⟩ := by
  unfold Database.findLogin at *
  have hrows : (withUser st login salt hash).db.users.rows =
      st.db.users.rows ++ [⟨st.db.users.seq + 1, login, salt, hash⟩] := rfl
  rw [hrows, List.find?_append, hfree]
  simp

/-- A password opens the account that was registered with it. -/
theorem verifyPassword_withUser (env : Env) {st : Store} {login salt : Bytes}
    (hfree : st.db.findLogin login = none) (hsalt : 0 ∉ salt) (password : Bytes) :
    verifyPassword env login password
      (withUser st login salt (sha256 env (password ++ salt))) = true := by
  unfold verifyPassword
  simp only [findLogin_withUser hfree, (getText_eq_self_iff _).mpr hsalt,
    (getText_eq_self_iff _).mpr (Registrations.sha256_nulFree env _), beq_self_eq_true]

/-- How an authenticating packet leaves the switch. -/
inductive Authentication (env : Env) (self : ConnId) (packetType : PacketType) (body : Bytes)
    (w : World) : EStateM.Result Exn World (Option Response × Option Bytes) → Prop where
  | refused (r : Response) (st : Store) (herror : r.error.ok = false)
      (hnone : authenticatesAs env w packetType body = none)
      (hstore : st = w.store ∨ ∃ req e, packetType = .tokenVerify ∧
        deserialize TokenVerifyRequest body = .ok req ∧
        LookedUp env req.oldToken w.store (.error e) st) :
      Authentication env self packetType body w (.ok (some r, none) { w with store := st })
  | accepted (r : Response) (login : Bytes) (st : Store) (token : Bytes)
      (herror : r.error = Error.Base.ok)
      (hlogin : authenticatesAs env w packetType body = some login)
      (hquiet : Quiet env w.store st)
      (hknown : (st.db.findLogin login).isSome ↔
        (packetType ≠ .tokenVerify ∨ (w.store.db.findLogin login).isSome)) :
      Authentication env self packetType body w
        (.ok (some r, some login) (withToken w self st token))

section

variable {env : Env} {self : ConnId} {body : Bytes} {w : World}
  (hdrawn : ∀ s ∈ w.store.db.sessions, ∃ n < w.store.uuidsDrawn, s.token = env.uuid n)

include hdrawn

theorem login_authentication {req : AuthRequest} (hreq : deserialize AuthRequest body = .ok req) :
    Authentication env self .login body w ((dispatch env self .login body).run w) := by
  rcases handleLogin_cases env self w hreq with ⟨hpw, hrun⟩ | ⟨hpw, -⟩
  · have hdispatch := answerAuth_run hrun
    refine hdispatch ▸ .refused _ w.store rfl ?_ (Or.inl rfl)
    simp only [authenticatesAs, hreq, hpw, Bool.false_eq_true, if_false]
  · obtain ⟨u, hu, hverify⟩ := verifyUser_run w.store hpw (findToken_fresh hdrawn le_rfl)
    have hquiet := verifyUser_quiet env req.login req.password w.store
    rw [hverify] at hquiet
    have hrun : (handleLogin env self body).run w =
        .ok (.auth ⟨env.uuid w.store.uuidsDrawn, Error.Base.ok⟩, some req.login)
          (withToken w self (withSession w.store (env.uuid w.store.uuidsDrawn) u.id
            (env.clock w.store.clockReads)) (env.uuid w.store.uuidsDrawn)) := by
      simp only [handleLogin, EStateM.run_bind, decode_run hreq, liftStore_run, liftStore, hverify]
      rfl
    refine answerAuth_run hrun ▸ .accepted _ _ _ _ rfl ?_ hquiet ?_
    · simp only [authenticatesAs, hreq, hpw, if_true]
    · exact ⟨fun _ => Or.inl (by decide), fun _ => Option.isSome_iff_exists.mpr ⟨u, hu⟩⟩

theorem register_authentication {req : AuthRequest}
    (hreq : deserialize AuthRequest body = .ok req) :
    Authentication env self .register body w ((dispatch env self .register body).run w) := by
  rcases registerUser_cases env req.login req.password w.store with
    ⟨htaken, hregister⟩ | ⟨hfree, hregister⟩
  · have hrun : (handleRegister env self body).run w =
        .ok (.auth ⟨[], Error.Auth.loginExists⟩, none) w := by
      simp only [handleRegister, EStateM.run_bind, decode_run hreq, liftStore_run, liftStore,
        hregister]
      rfl
    refine answerAuth_run hrun ▸ .refused _ w.store rfl ?_ (Or.inl rfl)
    simp only [authenticatesAs, hreq, htaken, if_true]
  · have hregistered := registerUser_quiet env req.login req.password w.store
    rw [hregister] at hregistered
    have hpw := verifyPassword_withUser env hfree
      (env.uuid_nulFree w.store.uuidsDrawn) req.password
    generalize hstore : withUser w.store req.login (env.uuid w.store.uuidsDrawn)
      (sha256 env (req.password ++ env.uuid w.store.uuidsDrawn)) = st at *
    have hfresh : st.db.findToken (env.uuid st.uuidsDrawn) = none := by
      subst hstore
      exact findToken_fresh hdrawn (Nat.le_succ _)
    obtain ⟨u, hu, hverify⟩ := verifyUser_run st hpw hfresh
    have hverified := verifyUser_quiet env req.login req.password st
    rw [hverify] at hverified
    have hrun : (handleRegister env self body).run w =
        .ok (.auth ⟨env.uuid st.uuidsDrawn, Error.Base.ok⟩, some req.login)
          (withToken w self (withSession st (env.uuid st.uuidsDrawn) u.id
            (env.clock st.clockReads)) (env.uuid st.uuidsDrawn)) := by
      simp only [handleRegister, EStateM.run_bind, decode_run hreq, liftStore_run, liftStore,
        hregister, base_ok, if_true, hverify]
      rfl
    refine answerAuth_run hrun ▸ .accepted _ _ _ _ rfl ?_ (hregistered.trans hverified) ?_
    · simp only [authenticatesAs, hreq, hfree, Option.isSome_none, Bool.false_eq_true, if_false]
    · exact ⟨fun _ => Or.inl (by decide), fun _ => Option.isSome_iff_exists.mpr ⟨u, hu⟩⟩

omit hdrawn in
theorem tokenVerify_authentication {req : TokenVerifyRequest}
    (hreq : deserialize TokenVerifyRequest body = .ok req) :
    Authentication env self .tokenVerify body w ((dispatch env self .tokenVerify body).run w) := by
  obtain ⟨r, st, hrun, hlook⟩ := getLoginByToken_lookedUp env req.oldToken w.store
  have hlogin := tokenLogin_of_lookedUp hlook
  have hauth : authenticatesAs env w .tokenVerify body = r.toOption := by
    simp only [authenticatesAs, hreq, hlogin]
  cases r with
  | error e =>
    have hhandle : (handleTokenVerify env self body).run w =
        .ok (.tokenVerify ⟨e⟩, none) { w with store := st } := by
      simp only [handleTokenVerify, EStateM.run_bind, decode_run hreq, liftStore_run, liftStore,
        hrun]
      rfl
    exact answerAuth_run hhandle ▸ .refused _ st (ok_of_lookedUp_error hlook) hauth
      (Or.inr ⟨req, e, rfl, hreq, hlook⟩)
  | ok login =>
    have hhandle : (handleTokenVerify env self body).run w =
        .ok (.tokenVerify ⟨Error.Base.ok⟩, some login) (withToken w self st req.oldToken) := by
      simp only [handleTokenVerify, EStateM.run_bind, decode_run hreq, liftStore_run, liftStore,
        hrun]
      rfl
    have hquiet := getLoginByToken_quiet env req.oldToken w.store
    rw [hrun] at hquiet
    refine answerAuth_run hhandle ▸ .accepted _ _ _ _ rfl hauth hquiet ?_
    have husers : st.db.users = w.store.db.users := by
      cases hlook with
      | found _ _ _ _ _ => rfl
    simp only [Database.findLogin, husers, ne_eq, not_true_eq_false, false_or]

theorem dispatch_authentication (self : ConnId) {packetType : PacketType}
    (hauth : Authenticating packetType)
    (hdecodes : ∀ T, requestStruct packetType = some T → ¬ Malformed T body) :
    Authentication env self packetType body w ((dispatch env self packetType body).run w) := by
  rcases hauth with rfl | rfl | rfl
  · obtain ⟨req, hreq⟩ := not_forall_not.mp (hdecodes .authRequest rfl)
    exact register_authentication hdrawn hreq
  · obtain ⟨req, hreq⟩ := not_forall_not.mp (hdecodes .authRequest rfl)
    exact login_authentication hdrawn hreq
  · obtain ⟨req, hreq⟩ := not_forall_not.mp (hdecodes .tokenVerifyRequest rfl)
    exact tokenVerify_authentication hreq

end

theorem decodes_of_authenticatesAs {env : Env} {w : World} {packetType : PacketType}
    {body login : Bytes} (h : authenticatesAs env w packetType body = some login) :
    ∀ T, requestStruct packetType = some T → ¬ Malformed T body := by
  intro T hT hbad
  obtain ⟨e, he⟩ := malformed_iff.mp hbad
  rcases authenticating_of_authenticatesAs h with rfl | rfl | rfl
  · cases hT
    have hreq : deserialize AuthRequest body = .error e := he
    simp only [authenticatesAs, hreq] at h
    cases h
  · cases hT
    have hreq : deserialize AuthRequest body = .error e := he
    simp only [authenticatesAs, hreq] at h
    cases h
  · cases hT
    have hreq : deserialize TokenVerifyRequest body = .error e := he
    simp only [authenticatesAs, hreq] at h
    cases h

/-- A packet that authenticates somebody is accepted, and little else happens. -/
theorem accepted_of_authenticatesAs {env : Env} {w : World} {packetType : PacketType}
    {body login : Bytes} (h : Sound env w.store) (self : ConnId)
    (hauth : authenticatesAs env w packetType body = some login) :
    ∃ r st token,
      (dispatch env self packetType body).run w =
        .ok (some r, some login) (withToken w self st token) ∧
      r.error = Error.Base.ok ∧ Quiet env w.store st ∧
      ((st.db.findLogin login).isSome ↔
        (packetType ≠ .tokenVerify ∨ (w.store.db.findLogin login).isSome)) := by
  have hcase := dispatch_authentication h.drawn self
    (authenticating_of_authenticatesAs hauth) (decodes_of_authenticatesAs hauth)
  generalize (dispatch env self packetType body).run w = result at hcase
  cases hcase with
  | refused r st _ hnone _ => cases hauth.symm.trans hnone
  | accepted r login' st token herror hlogin hquiet hknown =>
    cases hauth.symm.trans hlogin
    exact ⟨r, st, token, rfl, herror, hquiet, hknown⟩

/-- How the welcome of an accepted login ends when all senders of its backlog have logins. -/
inductive Welcoming (env : Env) (self : ConnId) (packetType : PacketType) (w₁ : World)
    (login : Bytes) (r : Response) : EStateM.Result Exn World Unit → Prop where
  | unknown (w' : World) (hunknown : w₁.store.db.findLogin login = none) :
      Welcoming env self packetType w₁ login r (.error .badExpectedAccess w')
  | overlong (w' : World) (hknown : (w₁.store.db.findLogin login).isSome)
      (hlong : maxVariableNumber < (backlog env login w₁.store).length) :
      Welcoming env self packetType w₁ login r
        (.error (.sqliteException "too many SQL variables") w')
  | welcomed (hknown : (w₁.store.db.findLogin login).isSome)
      (hshort : (backlog env login w₁.store).length ≤ maxVariableNumber) :
      Welcoming env self packetType w₁ login r
        (.ok () (withAnswer (welcomed env w₁ self login) self packetType (some r)))

theorem getIdByLogin_error_iff {login : Bytes} {st : Store} :
    (∃ e, getIdByLogin login st = .error e) ↔ st.db.findLogin login = none := by
  unfold getIdByLogin
  cases st.db.findLogin login <;> simp

theorem handlePacket_welcoming {env : Env} {self : ConnId} {packetType : PacketType}
    {body login : Bytes} {w w₁ : World} {r : Response}
    (hrun : (dispatch env self packetType body).run w = .ok (some r, some login) w₁)
    (hlive : (w₁.sessions self).isSome)
    (hsenders : SendersFound w₁.store (backlog env login w₁.store)) :
    Welcoming env self packetType w₁ login r
      ((handlePacket env self packetType body).run w) := by
  have hcurrent := currentLogin_withLogin hlive login
  have hstore : (withLogin w₁ self login).store = w₁.store := rfl
  have hcases := deliverPending_cases env self (withLogin w₁ self login)
  rw [hcurrent, hstore, getIdByLogin_error_iff] at hcases
  have known : ∀ id, getIdByLogin login w₁.store = .ok id →
      (w₁.store.db.findLogin login).isSome := by
    intro id hid
    cases hfind : w₁.store.db.findLogin login with
    | some u => rfl
    | none =>
      obtain ⟨e, he⟩ := getIdByLogin_error_iff.mpr hfind
      cases he.symm.trans hid
  rcases hcases with ⟨⟨id, hid⟩, -, hshort, hok⟩ | ⟨handed, hlost, -, herror⟩ | ⟨hlong, herror⟩
  · rw [handlePacket_delivered hrun hok]
    exact .welcomed (known id hid) hshort
  · rw [handlePacket_undelivered hrun herror]
    rcases hlost with hunknown | hlost
    · exact .unknown _ hunknown
    · exact absurd hsenders hlost
  · rw [handlePacket_undelivered hrun herror]
    cases hid : getIdByLogin login w₁.store with
    | error e =>
      rw [backlog, hid] at hlong
      exact absurd hlong (Nat.not_lt_zero _)
    | ok id => exact .overlong _ (known id hid) hlong

/-- In a store whose messages have senders, every backlog has them. -/
theorem sendersFound_backlog {st : Store}
    (hcorresponding : ∀ r ∈ st.db.directMessages.rows, hasUser st r.sender ∧
      hasUser st r.recipient) (env : Env) (login : Bytes) :
    SendersFound st (backlog env login st) := by
  intro el hel
  unfold backlog at hel
  cases hid : getIdByLogin login st with
  | error e =>
    rw [hid] at hel
    exact absurd hel List.not_mem_nil
  | ok id =>
    rw [hid] at hel
    obtain ⟨r, hr, rfl⟩ := List.mem_map.mp hel
    have hrow : r ∈ st.db.directMessages.rows :=
      List.mem_of_mem_filter ((env.sqlite.orderBy_perm _ _).subset hr)
    obtain ⟨u, hu⟩ := Option.isSome_iff_exists.mp (hcorresponding r hrow).1
    exact ⟨getText u.login, by simp only [getLoginById, hu]⟩

/-- The welcome that follows an accepted authentication in a reachable state. -/
theorem accepted_welcoming {env : Env} {self : ConnId} {packetType : PacketType}
    {body login token : Bytes} {w : World} {st : Store} {r : Response} (h : Sound env w.store)
    (hlive : (w.sessions self).isSome) (hquiet : Quiet env w.store st)
    (hrun : (dispatch env self packetType body).run w =
      .ok (some r, some login) (withToken w self st token)) :
    Welcoming env self packetType (withToken w self st token) login r
      ((handlePacket env self packetType body).run w) := by
  have hsenders : SendersFound st (backlog env login st) :=
    sendersFound_backlog (h.corresponding_of_quiet hquiet) env login
  exact handlePacket_welcoming hrun (isSome_withToken hlive st token) hsenders

end Messenger.Authentications
