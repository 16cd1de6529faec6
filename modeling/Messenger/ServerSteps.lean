import Messenger.HandlePacket

/-!
One step of the server, case by case, and what holds of every step: users stay as they
were registered, and a token that appears has just been drawn.
-/
namespace Messenger.ServerSteps

open Outcomes ClientSession UserRepository MessageRepository HandlerActions HandlePacket

/-- What a step does, for each kind of event that does something. -/
inductive Stepping (env : Env) (w : World) : Event → World → Prop where
  | idle (e : Event) : Stepping env w e w
  | restart : Stepping env w .restart (w.boot env)
  | connect (hrunning : w.status = .running) : Stepping env w .connect w.accept
  | packet (c : ConnId) (packetType : PacketType) (body : Bytes) (hrunning : w.status = .running)
      (hlive : (w.sessions c).isSome) :
      Stepping env w (.packet c packetType body) (w.receive env c packetType body)
  | disconnect (c : ConnId) (hrunning : w.status = .running) :
      Stepping env w (.disconnect c) (w.destroy c)
  | cleanTokens (hrunning : w.status = .running) :
      Stepping env w .cleanTokens { w with store := final ((cleanExpiredTokens env).run w.store) }

theorem step_stepping (env : Env) (w : World) (e : Event) :
    Stepping env w e (w.step env e) := by
  cases e with
  | restart =>
    simp only [World.step]
    split
    · exact .idle _
    · exact .restart
  | connect =>
    simp only [World.step]
    split
    · exact .connect (by assumption)
    · exact .idle _
  | packet c packetType body =>
    simp only [World.step]
    split
    · rename_i h
      exact .packet c packetType body h.1 h.2
    · exact .idle _
  | disconnect c =>
    simp only [World.step]
    split
    · exact .disconnect c (by assumption)
    · exact .idle _
  | cleanTokens =>
    simp only [World.step]
    split
    · exact .cleanTokens (by assumption)
    · exact .idle _

theorem step_of_handled {env : Env} {w w' : World} (hrunning : w.status = .running) {c : ConnId}
    (hlive : (w.sessions c).isSome) {packetType : PacketType} {body : Bytes}
    (hrun : (handlePacket env c packetType body).run w = .ok () w') :
    w.step env (.packet c packetType body) = w' := by
  simp only [World.step, hrunning, hlive, and_self, if_true, World.receive, hrun]

/-- REGISTER and LOGIN with a fixed password, for concrete runs. -/
def registerEvent (c : ConnId) (login : Bytes) : Event :=
  .packet c .register (serialize (AuthRequest.mk login [112]))

def loginEvent (c : ConnId) (login : Bytes) : Event :=
  .packet c .login (serialize (AuthRequest.mk login [112]))

/-- "a" and "c" register on connections 0 and 1 and become friends; the tokens are those
of `Env.plain`. -/
def twoFriends : List Event :=
  [.connect, .connect, registerEvent 0 [97], registerEvent 1 [99],
    .packet 0 .friendRequest (serialize (FriendRequest.mk [97, 97] [99])),
    .packet 1 .friendAccept (serialize (FriendRequest.mk [97, 97, 97, 97] [97]))]

/-- "c" writes to "a". -/
def messageEvent : Event :=
  .packet 1 .directMessage (serialize (DirectMessageRequest.mk [97, 97, 97, 97] [97] [104]))

theorem Action.grows {env : Env} {w w' : World} (h : Action env w w') :
    Grows env w.store w'.store := by
  cases h with
  | account h =>
    cases h with
    | store st hq => exact hq.toGrows
    | token c t => exact .refl _
  | draw _ => exact .refl _
  | write _ _ _ => exact .refl _
  | relay _ _ _ _ _ _ _ _ => exact .refl _
  | direct _ _ _ _ _ _ _ => exact .of_subset rfl (fun _ hs => hs) le_rfl

theorem dispatch_grows (env : Env) (self : ConnId) (packetType : PacketType) (body : Bytes)
    (w : World) :
    Grows env w.store (final ((dispatch env self packetType body).run w)).store := by
  have haction : ∀ s t, Action env s t → Grows env w.store s.store → Grows env w.store t.store :=
    fun s t hst hs => hs.trans (Action.grows hst)
  exact dispatch_preserves env self packetType body haction
    (fun store hquiet => hquiet.toGrows) (.refl _)

theorem receive_grows (env : Env) {w : World} {c : ConnId} (packetType : PacketType)
    (body : Bytes) (hlive : (w.sessions c).isSome) :
    Grows env w.store (w.receive env c packetType body).store := by
  refine receive_preserves (P := fun w' : World => Grows env w.store w'.store) env hlive
    (fun _ _ _ h => h) ?_ ?_ (fun _ h => h) (dispatch_grows env c packetType body w)
  · intro w₁ login h
    have hmark : Grows env w₁.store (welcomed env w₁ c login).store :=
      .of_subset rfl (fun _ hs => hs) le_rfl
    exact h.trans hmark
  · intro w₁ r h
    cases r <;> exact h

theorem step_grows (env : Env) (w : World) (e : Event) :
    Grows env w.store (w.step env e).store := by
  have h := step_stepping env w e
  generalize w.step env e = w' at h
  cases h with
  | idle e => exact .refl _
  | restart => exact (cleanExpiredTokens_quiet env w.store).toGrows
  | connect _ => exact .refl _
  | packet c packetType body _ hlive => exact receive_grows env packetType body hlive
  | disconnect c _ => exact .refl _
  | cleanTokens _ => exact (cleanExpiredTokens_quiet env w.store).toGrows

/-- The login that a packet gives its session, when it is handled to its end. -/
def setsLogin (env : Env) (w : World) (packetType : PacketType) (body : Bytes) :
    Option Bytes :=
  match packetType with
  | .logout =>
    match deserialize LogoutRequest body with
    | .ok _ => some []
    | .error _ => none
  | _ => authenticatesAs env w packetType body

theorem setsLogin_of_authenticates {env : Env} {w : World} {packetType : PacketType}
    {body new : Bytes} (h : authenticatesAs env w packetType body = some new) :
    setsLogin env w packetType body = some new := by
  rcases authenticating_of_authenticatesAs h with rfl | rfl | rfl <;> exact h

/-- A step, as far as logins and the map are concerned. -/
inductive LoginStep (env : Env) (w : World) : Event → World → Prop where
  | same (e : Event) (w' : World) (h : SameLogins w w') : LoginStep env w e w'
  | closed (e : Event) (w' : World) (hlogin : ∀ c, login w' c = none)
      (hentries : w'.onlineUsers = w.onlineUsers ∨ w'.onlineUsers = ∅)
      (hnext : w'.nextConn = w.nextConn) : LoginStep env w e w'
  | connected : LoginStep env w .connect w.accept
  | destroyed (c : ConnId) : LoginStep env w (.disconnect c) (w.destroy c)
  | set (c : ConnId) (packetType : PacketType) (body new : Bytes) (w' : World)
      (hset : setsLogin env w packetType body = some new) (hlive : (login w c).isSome)
      (hlogin : ∀ d, login w' d = if d = c then some new else login w d)
      (hentries : w'.onlineUsers =
        if packetType = .logout then w.onlineUsers else w.onlineUsers.insert new c)
      (hnext : w'.nextConn = w.nextConn) : LoginStep env w (.packet c packetType body) w'

theorem sameLogins_withAnswer {w w' : World} (h : SameLogins w w') (self : ConnId)
    (packetType : PacketType) (r : Option Response) :
    SameLogins w (withAnswer w' self packetType r) := by
  cases r with
  | none => exact h
  | some r => exact ⟨h.login, h.onlineUsers, h.nextConn⟩

theorem login_update (w : World) (c d : ConnId) (f : ClientSession → ClientSession) :
    ((Function.update w.sessions c ((w.sessions c).map f)) d).map ClientSession.currentLogin =
      if d = c then (w.sessions c).map (fun s => (f s).currentLogin) else login w d := by
  by_cases hd : d = c
  · subst hd
    rw [Function.update_self, if_pos rfl, Option.map_map]
    rfl
  · rw [Function.update_of_ne hd, if_neg hd]
    rfl

/-- Setting the login of a live session. -/
theorem login_set {w : World} {c : ConnId} (hlive : (login w c).isSome)
    (f : ClientSession → ClientSession) {new : Bytes} (hf : ∀ s, (f s).currentLogin = new)
    (d : ConnId) :
    ((Function.update w.sessions c ((w.sessions c).map f)) d).map ClientSession.currentLogin =
      if d = c then some new else login w d := by
  rw [login_update]
  obtain ⟨s, hs⟩ := Option.isSome_iff_exists.mp (isSome_login ▸ hlive)
  simp only [hs, Option.map_some, hf]

/-- A LOGOUT that is handled to its end. -/
theorem loginStep_logout (env : Env) {w w₁ : World} {c : ConnId} {body : Bytes}
    {r : Option Response} (hlive : (login w c).isSome)
    (hrun : (dispatch env c .logout body).run w = .ok (r, none) w₁) :
    LoginStep env w (.packet c .logout body) (withAnswer w₁ c .logout r) := by
  cases hreq : deserialize LogoutRequest body with
  | error e =>
    have hbad : (dispatch env c .logout body).run w = .error e w := by
      simp only [dispatch, handleLogout, decode, hreq, EStateM.run_bind, run_throw_any]
    cases hrun.symm.trans hbad
  | ok req =>
    rcases dispatch_logout env c body w with ⟨e', hrun'⟩ | ⟨store, -, hrun'⟩
    · cases hrun.symm.trans hrun'
    · cases hrun.symm.trans hrun'
      refine .set c .logout body [] _ (by simp only [setsLogin, hreq]) hlive ?_ rfl rfl
      exact login_set hlive (fun _ => ⟨[], []⟩) (fun _ => rfl)

/-- An authentication that is handled to its end. -/
theorem loginStep_welcomed (env : Env) {w w₁ : World} {c : ConnId} {packetType : PacketType}
    {body new : Bytes} {r : Option Response} (hlive : (login w c).isSome)
    (hrun : (dispatch env c packetType body).run w = .ok (r, some new) w₁) :
    LoginStep env w (.packet c packetType body)
      (withAnswer (welcomed env w₁ c new) c packetType r) := by
  obtain ⟨hauth, hunseen⟩ := unseen_of_dispatch hrun
  have hne : packetType ≠ .logout := by
    rintro rfl
    cases hauth
  have hlive₁ : (login w₁ c).isSome := by
    rw [hunseen.logins.login]
    exact hlive
  have hwelcome : ∀ d, login (welcomed env w₁ c new) d =
      if d = c then some new else login w d := by
    intro d
    rw [← hunseen.logins.login d]
    exact login_set hlive₁ (fun s => { s with currentLogin := new }) (fun _ => rfl) d
  have hentries : (welcomed env w₁ c new).onlineUsers = w.onlineUsers.insert new c := by
    rw [← hunseen.logins.onlineUsers]
    rfl
  have hsame : SameLogins (welcomed env w₁ c new)
      (withAnswer (welcomed env w₁ c new) c packetType r) :=
    sameLogins_withAnswer ⟨fun _ => rfl, rfl, rfl⟩ c packetType r
  refine .set c packetType body new _ (setsLogin_of_authenticates hauth) hlive
    (fun d => (hsame.login d).trans (hwelcome d)) ?_
    (hsame.nextConn.trans hunseen.logins.nextConn)
  rw [if_neg hne]
  exact hsame.onlineUsers.trans hentries

theorem receive_loginStep (env : Env) {w : World} {c : ConnId} (packetType : PacketType)
    (body : Bytes) (hlive : (w.sessions c).isSome) :
    LoginStep env w (.packet c packetType body) (w.receive env c packetType body) := by
  have hstart : (login w c).isSome := isSome_login.trans hlive
  have hcases := handlePacket_handling env packetType body hlive
  unfold World.receive
  generalize (handlePacket env c packetType body).run w = result at hcases
  have hdispatch : packetType ≠ .logout →
      SameLogins w (final ((dispatch env c packetType body).run w)) :=
    fun h => sameLogins_of_moves (dispatch_moves env c body w h)
  have terminated : ∀ w₁ : World, w₁.onlineUsers = w.onlineUsers → w₁.nextConn = w.nextConn →
      LoginStep env w (.packet c packetType body) w₁.terminate :=
    fun w₁ hentries hnext => .closed _ _ (fun _ => rfl) (Or.inl hentries) hnext
  cases hcases with
  | thrown e w₁ hrun =>
    by_cases hlogout : packetType = .logout
    · subst hlogout
      rcases dispatch_logout env c body w with ⟨e', hrun'⟩ | ⟨store, -, hrun'⟩
      · cases hrun.symm.trans hrun'
        exact terminated w rfl rfl
      · cases hrun.symm.trans hrun'
    · have hsame := hdispatch hlogout
      rw [hrun] at hsame
      exact terminated w₁ hsame.onlineUsers hsame.nextConn
  | answered r w₁ hrun =>
    by_cases hlogout : packetType = .logout
    · subst hlogout
      exact loginStep_logout env hstart hrun
    · have hsame := hdispatch hlogout
      rw [hrun] at hsame
      exact .same _ _ (sameLogins_withAnswer hsame c packetType r)
  | undelivered r new w₁ e handed hrun _ =>
    obtain ⟨-, hunseen⟩ := unseen_of_dispatch hrun
    exact terminated _ hunseen.logins.onlineUsers hunseen.logins.nextConn
  | welcomed r new w₁ hrun _ _ => exact loginStep_welcomed env hstart hrun

theorem step_loginStep (env : Env) (w : World) (e : Event) :
    LoginStep env w e (w.step env e) := by
  have h := step_stepping env w e
  generalize w.step env e = w' at h
  cases h with
  | idle e => exact .same _ _ ⟨fun _ => rfl, rfl, rfl⟩
  | restart => exact .closed _ _ (fun _ => rfl) (Or.inr rfl) rfl
  | connect _ => exact .connected
  | packet c packetType body _ hlive => exact receive_loginStep env packetType body hlive
  | disconnect c _ => exact .destroyed c
  | cleanTokens _ => exact .same _ _ ⟨fun _ => rfl, rfl, rfl⟩

end Messenger.ServerSteps
