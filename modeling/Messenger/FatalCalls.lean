import Messenger.Terminations
import Messenger.Linearizations

/-!
How a client like ours can end the server. All that it sends is well formed, so of all that
a packet may lack two things are left: that the peer whose history is asked for exists, and
that the letters that wait for whoever is welcomed fit in one statement. Both can be told
from what the users have asked for before.
-/
namespace Messenger.FatalCalls

open Outcomes ClientSession UserRepository HandlePacket ServerSteps NetworkSession
  ClientHandlerQml PendingRequests WiredLinks TokenRequests ExpectedAccesses MalformedBodies
  Terminations PlainMessenger Representations Refinement PlainReadings Networks Linearizations

/-- The letters that wait for a user. -/
def waitingFor (m : Plain) (login : Bytes) : List (Letter Bytes Bytes) :=
  m.letters.filter fun x => decide (x.recipient = login) && x.waiting

/-- More letters wait for the user than one statement can mark. -/
def Overdue (m : Plain) (login : Bytes) : Prop :=
  maxVariableNumber < (waitingFor m login).length

instance (m : Plain) (login : Bytes) : Decidable (Overdue m login) :=
  inferInstanceAs (Decidable (_ < _))

/-- The calls of a client with this token that the server does not survive at this time. -/
def Fatal (env : Env) (m : Plain) (now : ℤ) (token : Bytes) : ClientCall → Prop
  | .getHistoryDirectMessage peerLogin =>
    (∃ login, m.holder tokenTtl token now = some login) ∧ ¬ m.Registered peerLogin
  | .loginUser login password => (login, sha256 env password) ∈ m.accounts ∧ Overdue m login
  | .checkSavedToken saved => ∃ login, m.holder tokenTtl saved now = some login ∧ Overdue m login
  | _ => False

section

variable {env : Env} {w : World} {m : Plain} {packetType : PacketType} {body : Bytes}

theorem backlog_length (h : Represents env w.store m) {login : Bytes}
    (hlogin : m.Registered login) :
    (backlog env login w.store).length = (waitingFor m login).length := by
  obtain ⟨shown, hshown, hperm, -⟩ := handsWaiting h hlogin 0 login
  have hlength := congrArg List.length hshown
  simp only [List.length_map] at hlength
  exact hlength.trans hperm.length_eq

theorem backlog_fits_iff (h : Represents env w.store m) {login : Bytes}
    (hlogin : m.Registered login) :
    (backlog env login w.store).length ≤ maxVariableNumber ↔ ¬ Overdue m login := by
  rw [backlog_length h hlogin, Overdue, not_lt]

/-- Nothing waits for whoever is not there. -/
theorem backlog_unknown {login : Bytes} {st : Store} (h : (st.db.findLogin login).isSome = false) :
    backlog env login st = [] := by
  have hnone : st.db.findLogin login = none := by simpa using h
  simp only [backlog, getIdByLogin, hnone]

/-- Of the users that a packet relies on, only the peer of a history may be missing. -/
theorem usersFound_of_represents (h : Represents env w.store m)
    (hhistory : packetType ≠ .messageHistory) : UsersFound env w packetType body := by
  have known : ∀ token login, tokenLogin env token w.store = some login →
      (w.store.db.findLogin login).isSome := by
    intro token login htoken
    rw [tokenLogin_eq_holder h] at htoken
    exact (registered_iff_findLogin h).mp (holder_registered h.wellFormed htoken)
  cases packetType with
  | friendList | chatList | tokenVerify => exact fun _ _ _ htoken => known _ _ htoken
  | directMessage => exact fun _ _ _ htoken _ => known _ _ htoken
  | messageHistory => exact absurd rfl hhistory
  | _ => trivial

def Decodes (packetType : PacketType) (body : Bytes) : Prop :=
  ∃ T x, requestStruct packetType = some T ∧ T.deserialize body = .ok x

/-- A packet that decodes and is about no file. -/
theorem manageable_iff_of_decodes (hdecodes : Decodes packetType body)
    (hupload : packetType ≠ .upload) (hdownload : packetType ≠ .download) :
    Manageable env w packetType body ↔ UsersNeeded env w packetType body ∧
      ∀ login, authenticatesAs env w packetType body = some login →
        (backlog env login w.store).length ≤ maxVariableNumber := by
  constructor
  · exact fun hmanageable => ⟨hmanageable.users, hmanageable.backlog⟩
  · rintro ⟨husers, hbacklog⟩
    refine ⟨fun T' hT' => ?_, husers, hbacklog, ?_⟩
    · obtain ⟨T, x, hrequest, hx⟩ := hdecodes
      obtain rfl := Option.some.inj (hrequest.symm.trans hT')
      exact fun hmalformed => hmalformed x hx
    · cases packetType with
      | upload => exact absurd rfl hupload
      | download => exact absurd rfl hdownload
      | _ => trivial

/-- A welcome comes to its end when the backlog fits. -/
theorem manageable_iff_backlog (h : Represents env w.store m)
    (hdecodes : Decodes packetType body) (hhistory : packetType ≠ .messageHistory)
    (hupload : packetType ≠ .upload) (hdownload : packetType ≠ .download) :
    Manageable env w packetType body ↔
      ∀ login, authenticatesAs env w packetType body = some login →
        (backlog env login w.store).length ≤ maxVariableNumber :=
  (manageable_iff_of_decodes hdecodes hupload hdownload).trans
    (and_iff_right (Or.inr (usersFound_of_represents h hhistory)))

theorem login_manageable_iff (hsha : Function.Injective (sha256 env))
    (h : Represents env w.store m) {req : AuthRequest}
    (hreq : deserialize AuthRequest body = .ok req) :
    Manageable env w .login body ↔ ¬ ((req.login, req.password) ∈ m.accounts ∧
      Overdue m req.login) := by
  have hverified := Registrations.verifyPassword_iff h.accounts
    (Registrations.noCollision_of_injective hsha w.store m.accounts req.login req.password)
  rw [manageable_iff_backlog h ⟨.authRequest, req, rfl, hreq⟩ (by decide) (by decide)
    (by decide)]
  simp only [authenticatesAs, hreq]
  by_cases hknown : (req.login, req.password) ∈ m.accounts
  · have hregistered : m.Registered req.login := List.mem_map_of_mem hknown
    rw [if_pos (hverified.mpr hknown)]
    constructor
    · rintro hfits ⟨-, hoverdue⟩
      exact (backlog_fits_iff h hregistered).mp (hfits req.login rfl) hoverdue
    · intro hnot login heq
      obtain rfl := Option.some.inj heq
      exact (backlog_fits_iff h hregistered).mpr fun hoverdue => hnot ⟨hknown, hoverdue⟩
  · rw [if_neg (mt hverified.mp hknown)]
    refine iff_of_true (fun login heq => ?_) fun hboth => hknown hboth.1
    cases heq

theorem register_manageable (h : Represents env w.store m) {req : AuthRequest}
    (hreq : deserialize AuthRequest body = .ok req) : Manageable env w .register body := by
  rw [manageable_iff_backlog h ⟨.authRequest, req, rfl, hreq⟩ (by decide) (by decide)
    (by decide)]
  intro login hlogin
  simp only [authenticatesAs, hreq] at hlogin
  split at hlogin
  · cases hlogin
  · rename_i hfree
    obtain rfl := Option.some.inj hlogin
    rw [backlog_unknown (Bool.eq_false_iff.mpr hfree)]
    exact Nat.zero_le _

theorem verify_manageable_iff (h : Represents env w.store m) {req : TokenVerifyRequest}
    (hreq : deserialize TokenVerifyRequest body = .ok req) :
    Manageable env w .tokenVerify body ↔
      ¬ ∃ login, m.holder tokenTtl req.oldToken (env.clock w.store.clockReads) = some login ∧
        Overdue m login := by
  rw [manageable_iff_backlog h ⟨.tokenVerifyRequest, req, rfl, hreq⟩ (by decide) (by decide)
    (by decide)]
  simp only [authenticatesAs, hreq, tokenLogin_eq_holder h]
  constructor
  · rintro hfits ⟨login, hholder, hoverdue⟩
    exact (backlog_fits_iff h (holder_registered h.wellFormed hholder)).mp
      (hfits login hholder) hoverdue
  · intro hnot login hholder
    exact (backlog_fits_iff h (holder_registered h.wellFormed hholder)).mpr
      fun hoverdue => hnot ⟨login, hholder, hoverdue⟩

theorem history_manageable_iff (h : Represents env w.store m) {req : HistoryRequest}
    (hreq : deserialize HistoryRequest body = .ok req) :
    Manageable env w .messageHistory body ↔
      ¬ ((∃ login, m.holder tokenTtl req.token (env.clock w.store.clockReads) = some login) ∧
        ¬ m.Registered req.peerLogin) := by
  rw [manageable_iff_of_decodes ⟨.historyRequest, req, rfl, hreq⟩ (by decide) (by decide),
    usersNeeded_iff (by decide)]
  constructor
  · rintro ⟨husers, -⟩ ⟨⟨login, hholder⟩, hpeer⟩
    rw [← tokenLogin_eq_holder h] at hholder
    exact hpeer ((registered_iff_findLogin h).mpr (husers req login hreq hholder).2)
  · intro hnot
    refine ⟨fun req' login hreq' htoken => ?_, fun login hlogin => ?_⟩
    · obtain rfl : req' = req := Except.ok.inj (hreq'.symm.trans hreq)
      rw [tokenLogin_eq_holder h] at htoken
      refine ⟨(registered_iff_findLogin h).mp (holder_registered h.wellFormed htoken),
        (registered_iff_findLogin h).mp ?_⟩
      by_contra hpeer
      exact hnot ⟨⟨login, htoken⟩, hpeer⟩
    · cases hlogin

theorem decodes_packetOf {token : Bytes} {call : ClientCall} {packet : Packet}
    (hcall : packetOf env token call = some packet) (hfits : packet.2.length < 2 ^ 32) :
    Decodes packet.1 packet.2 := by
  cases call with
  | checkSavedToken saved =>
    obtain rfl := packetOf_checkSavedToken hcall
    have hreq := deserialize_serialize_of_length hfits
    exact ⟨_, _, rfl, hreq⟩
  | logout =>
    obtain rfl := packetOf_logout hcall
    have hreq := deserialize_serialize_of_length hfits
    exact ⟨_, _, rfl, hreq⟩
  | _ =>
    cases hcall
    have hreq := deserialize_serialize_of_length hfits
    exact ⟨_, _, rfl, hreq⟩

/-- What a client posts has all it needs unless its call is fatal. -/
theorem manageable_iff_not_fatal (hsha : Function.Injective (sha256 env))
    (h : Represents env w.store m) {token : Bytes} {call : ClientCall} {packet : Packet}
    (hcall : packetOf env token call = some packet) (hfits : packet.2.length < 2 ^ 32) :
    Manageable env w packet.1 packet.2 ↔
      ¬ Fatal env m (env.clock w.store.clockReads) token call := by
  have hdecodes := decodes_packetOf hcall hfits
  -- nobody is welcomed and no peer is looked up
  have calm : packet.1 ≠ .messageHistory → packet.1 ≠ .upload → packet.1 ≠ .download →
      authenticatesAs env w packet.1 packet.2 = none → Manageable env w packet.1 packet.2 := by
    intro hhistory hupload hdownload hnobody
    rw [manageable_iff_backlog h hdecodes hhistory hupload hdownload, hnobody]
    exact fun login hlogin => absurd hlogin.symm (Option.some_ne_none _)
  cases call with
  | checkSavedToken saved =>
    obtain rfl := packetOf_checkSavedToken hcall
    exact verify_manageable_iff h (deserialize_serialize_of_length hfits)
  | registerUser login password =>
    cases hcall
    exact iff_of_true (register_manageable h (deserialize_serialize_of_length hfits)) id
  | loginUser login password =>
    cases hcall
    exact login_manageable_iff hsha h (deserialize_serialize_of_length hfits)
  | getHistoryDirectMessage peerLogin =>
    cases hcall
    exact history_manageable_iff h (deserialize_serialize_of_length hfits)
  | logout =>
    obtain rfl := packetOf_logout hcall
    exact iff_of_true (calm (by rintro ⟨⟩) (by rintro ⟨⟩) (by rintro ⟨⟩) rfl) id
  | _ =>
    cases hcall
    exact iff_of_true (calm (by rintro ⟨⟩) (by rintro ⟨⟩) (by rintro ⟨⟩) rfl) id

end

/-- With this event the server takes a fatal call from a client. -/
inductive TakesFatal (env : Env) (m : Plain) (n : Network) : NetworkEvent → Prop where
  | taken (c : ConnId) (s : WiredSystem) (packet : Packet) (token : Bytes) (call : ClientCall)
      (hview : n.view c = some s) (hrunning : n.world.status = .running)
      (hlive : (n.world.sessions c).isSome) (hhanded : handed s.uplink = some packet)
      (hcall : packetOf env token call = some packet)
      (hfatal : Fatal env m (env.clock n.world.store.clockReads) token call) :
      TakesFatal env m n (.ends c .serverRead)

section

variable {env : Env} {n : Network} {m : Plain}

/-- The server ends with a packet that lacks something. -/
theorem terminated_iff (hsound : TableSteps.Sound env n.world.store)
    (hup : n.world.status ≠ .terminated) (e : NetworkEvent) :
    (n.step env e).world.status = .terminated ↔
      ∃ event ∈ historyShown n e, ¬ Manages env n.world event := by
  rw [world_step]
  rcases historyShown_short n e with hnothing | ⟨event, hone⟩
  · rw [hnothing]
    exact iff_of_false hup fun ⟨_, hmem, _⟩ => absurd hmem List.not_mem_nil
  · rw [hone]
    have hstep := not_congr (step_up_iff hsound hup event)
    rw [not_not] at hstep
    refine hstep.trans ⟨fun hnot => ⟨event, List.mem_singleton_self event, hnot⟩, ?_⟩
    rintro ⟨event', hmem, hnot⟩
    obtain rfl := List.mem_singleton.mp hmem
    exact hnot

/-- What a client posts lacks something exactly when its call is fatal. -/
theorem takesFatal_iff (hsha : Function.Injective (sha256 env))
    (h : Represents env n.world.store m)
    (hcalled : ∀ c s packet, n.view c = some s → handed s.uplink = some packet →
      CalledFor env packet ∧ packet.2.length < 2 ^ 32) (e : NetworkEvent) :
    (∃ event ∈ historyShown n e, ¬ Manages env n.world event) ↔ TakesFatal env m n e := by
  constructor
  · rintro ⟨event, hmem, hnot⟩
    cases e with
    | connect | restart | disconnect _ | cleanTokens =>
      obtain rfl := List.mem_singleton.mp hmem
      exact absurd trivial hnot
    | ends c d =>
      simp only [historyShown] at hmem
      cases hview : n.view c with
      | none =>
        rw [hview] at hmem
        cases hmem
      | some s =>
        have hworld := world_of_view hview
        rw [hview] at hmem
        cases d with
        | serverRead =>
          simp only [ofServer, Bool.false_eq_true, if_false, serverShown, hworld] at hmem
          split at hmem
          · rename_i hready
            obtain ⟨packet, hpacket, rfl⟩ := List.mem_map.mp hmem
            have hhanded : handed s.uplink = some packet := by simpa using hpacket
            obtain ⟨⟨token, call, -, hcall⟩, hfits⟩ := hcalled c s packet hview hhanded
            refine .taken c s packet token call hview hready.1 hready.2 hhanded hcall ?_
            by_contra hcalm
            exact hnot fun _ _ => (manageable_iff_not_fatal hsha h hcall hfits).mpr hcalm
          · cases hmem
        | _ => cases hmem
  · rintro ⟨c, s, packet, token, call, hview, hrunning, hlive, hhanded, hcall, hfatal⟩
    obtain ⟨-, hfits⟩ := hcalled c s packet hview hhanded
    refine ⟨.packet c packet.1 packet.2, ?_, fun hmanages => ?_⟩
    · have hready : s.world.status = .running ∧ (s.world.sessions c).isSome :=
        (world_of_view hview).symm ▸ ⟨hrunning, hlive⟩
      simp only [historyShown, hview, ofServer, Bool.false_eq_true, if_false, serverShown,
        if_pos hready, hhanded]
      exact List.mem_singleton_self _
    · exact (manageable_iff_not_fatal hsha h hcall hfits).mp (hmanages hrunning hlive) hfatal

end

/-- After every run, the next event ends the server exactly when with it the server takes a
history of somebody unknown from whoever holds a token, or a login or a saved token of
somebody for whom too many letters wait. -/
theorem server_ends_iff (env : Env) (hclock : Monotone env.clock)
    (hsha : Function.Injective (sha256 env)) (files : ℕ → Option Bytes)
    (events : List NetworkEvent) (hcalls : ∀ e ∈ events, NulFreeCalls e)
    (hundisturbed : LabelledRuns.Along (Network.step env)
      (fun n e => (n.step env e).Undisturbed) (.new (World.initial env files)) events)
    (e : NetworkEvent) :
    ((system env files events).step env e).world.status = .terminated ↔
      TakesFatal env (played env files (historyOf env files events)) (system env files events)
        e := by
  have htogether := together_run hcalls hundisturbed
  have hrepresents : Represents env (system env files events).world.store
      (played env files (historyOf env files events)) := by
    rw [htogether.world]
    exact represents_run hclock hsha files htogether.nulFree
  have hup : (system env files events).world.status ≠ .terminated :=
    LabelledRuns.invariant_along (P := fun n : Network => n.world.status ≠ .terminated)
      (fun _ _ _ hnext => hnext.1) (by nofun) hundisturbed
  refine (terminated_iff hrepresents.sound hup e).trans
    (takesFatal_iff hsha hrepresents (fun c s packet hview hhanded => ?_) e)
  obtain ⟨w, t, turns, rfl, hheard, -, hgenuine, -⟩ := htogether.attached c s hview
  exact genuine_handed hheard.exchanged hgenuine hhanded

/-- "a" has registered and asks for what it has written to "b", who is not there. -/
def unknownPeer : List NetworkEvent :=
  [.connect, .ends 0 (.call (.registerUser [97] [112]))] ++ carriedUp 0 ++
    [.ends 0 (.setToken [97, 97]), .ends 0 (.call (.getHistoryDirectMessage [98])),
      .ends 0 .post, .ends 0 (.clientWriter .runPosted), .ends 0 (.clientWriter (.transmit 0 99)),
      .ends 0 .serverRead]

theorem server_ends_iff_unknownPeer :
    TakesFatal Env.plain
      (played Env.plain (fun _ => none) (historyOf Env.plain (fun _ => none) unknownPeer))
      (system Env.plain (fun _ => none) unknownPeer) (.ends 0 .serverRead) :=
  (server_ends_iff Env.plain clock_plain_monotone Registrations.sha256_plain_injective
    (fun _ => none) unknownPeer (by decide +kernel) (by decide +kernel) (.ends 0 .serverRead)).mp
    (by decide +kernel)

end Messenger.FatalCalls
