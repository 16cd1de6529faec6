import Messenger.Refinement
import Messenger.BodySizes
import Messenger.ServerSends
import Messenger.OnlineEntries

/-!
Who is told what, and where. A line for the general chat is for everybody else, a letter and
a notice about friends for the user that they name, and only if the messenger lets them
through. The server pushes each of them once to every connection that the map has for one
of its addressees; and whatever connection that is, it has been authenticated as the
addressee since the server was started.
-/
namespace Messenger.Notices

open KeyedTables Outcomes ClientSession UserRepository FriendStates HandlerActions HandlePacket
  ServerSteps ServerSends TokenRequests TableSteps BodySizes PlainMessenger Representations
  Refinement

/-- The notices about friends do not say by whom they were caused. -/
inductive Notice where
  | line (sender text : Bytes)
  | asked
  | accepted
  | rejected
  | letter (sender text : Bytes)
deriving DecidableEq, Repr

def noticeOf : FriendOperation → Notice
  | .request => .asked
  | .accept => .accepted
  | .reject => .rejected

def friendNotice (m : Plain) (now : ℤ) (operation : FriendOperation) (body login : Bytes) :
    Option Notice :=
  (deserialize FriendRequest body).toOption.bind fun req =>
    (m.holder tokenTtl req.token now).bind fun sender =>
      if login = req.targetLogin ∧ m.Registered req.targetLogin ∧
          (operation.command sender req.targetLogin).Enabled m.friends then
        some (noticeOf operation)
      else none

/-- What a packet makes the messenger tell the user `login`. -/
def noticeFor (m : Plain) (now : ℤ) (packetType : PacketType) (body login : Bytes) :
    Option Notice :=
  match packetType with
  | .message => (deserialize ChatSendRequest body).toOption.bind fun req =>
      (m.holder tokenTtl req.token now).bind fun sender =>
        if login = sender then none else some (.line sender req.message)
  | .friendRequest => friendNotice m now .request body login
  | .friendAccept => friendNotice m now .accept body login
  | .friendReject => friendNotice m now .reject body login
  | .directMessage => (deserialize DirectMessageRequest body).toOption.bind fun req =>
      (m.holder tokenTtl req.token now).bind fun sender =>
        if login = req.recipientLogin ∧ m.Registered req.recipientLogin ∧
            m.friends s(sender, req.recipientLogin) = .accepted then
          some (.letter sender req.message)
        else none
  | _ => none

/-- The packet tells the notice; the time in a letter is the number of its row. -/
def Tells (p : Sent) : Notice → Prop
  | .line sender text => p.packetType = .message ∧ p.body = serialize (ChatIncoming.mk sender text)
  | .asked => p.packetType = .friendNewRequest ∧ p.body = []
  | .accepted => p.packetType = .friendRequestAccepted ∧ p.body = []
  | .rejected => p.packetType = .friendRequestRejected ∧ p.body = []
  | .letter sender text => p.packetType = .directMessage ∧
      ∃ time, p.body = serialize (DirectMessageIncoming.mk sender text time)

/-- The live connections in the map, each with what its login is told. -/
def addressed (w : World) (notice : Bytes → Option Notice) : List (ConnId × Notice) :=
  w.onlineUsers.entries.filterMap fun e =>
    (w.lock e.2).bind fun sess => (notice e.1).map fun told => (sess, told)

/-- One packet for each connection that is addressed, in the order of the map. -/
def Informs (w w' : World) (notice : Bytes → Option Notice) : Prop :=
  ∃ pushes, w'.sent = w.sent ++ pushes ∧
    List.Forall₂ (fun p e => p.conn = e.1 ∧ Tells p e.2) pushes (addressed w notice)

section

variable {env : Env} {w w' w₁ : World} {notice : Bytes → Option Notice}

/-- A packet among the pushes tells somebody that is addressed. -/
theorem exists_informed {pushes : List Sent} {informed : List (ConnId × Notice)}
    (h : List.Forall₂ (fun p e => p.conn = e.1 ∧ Tells p e.2) pushes informed) {p : Sent}
    (hp : p ∈ pushes) : ∃ e ∈ informed, p.conn = e.1 ∧ Tells p e.2 := by
  induction h with
  | nil => cases hp
  | @cons _ e _ _ hfirst _ ih =>
    rcases List.mem_cons.mp hp with rfl | hrest
    · exact ⟨e, List.mem_cons_self, hfirst⟩
    · obtain ⟨e', he', htells⟩ := ih hrest
      exact ⟨e', List.mem_cons_of_mem e he', htells⟩

/-- Whoever is addressed is told its notice through an entry of the map. -/
theorem exists_entry {e : ConnId × Notice} (h : e ∈ addressed w notice) :
    ∃ login, w.onlineUsers.lookup login = some e.1 ∧ notice login = some e.2 := by
  obtain ⟨entry, hentry, hlocked⟩ := List.mem_filterMap.mp h
  obtain ⟨sess, hsess, htold⟩ := Option.bind_eq_some_iff.mp hlocked
  obtain ⟨told, hnotice, rfl⟩ := Option.map_eq_some_iff.mp htold
  refine ⟨entry.1, ?_, hnotice⟩
  rw [World.lock] at hsess
  split at hsess
  · rw [← Option.some.inj hsess]
    exact AList.mem_lookup_iff.mpr hentry
  · cases hsess

theorem eq_noticeOf {m : Plain} {now : ℤ} {operation : FriendOperation} {body login : Bytes}
    {told : Notice} (h : friendNotice m now operation body login = some told) :
    told = noticeOf operation := by
  obtain ⟨req, -, hreq⟩ := Option.bind_eq_some_iff.mp h
  obtain ⟨holder, -, hholder⟩ := Option.bind_eq_some_iff.mp hreq
  split at hholder
  · exact (Option.some.inj hholder).symm
  · cases hholder

theorem addressed_nobody (h : ∀ login, notice login = none) : addressed w notice = [] := by
  refine List.filterMap_eq_nil_iff.mpr fun e _ => ?_
  rw [h e.1]
  cases w.lock e.2 <;> rfl

theorem informs_nobody (hsent : w'.sent = w.sent) (h : ∀ login, notice login = none) :
    Informs w w' notice := by
  refine ⟨[], by rw [hsent, List.append_nil], ?_⟩
  rw [addressed_nobody h]
  exact .nil

/-- A login has one entry at most. -/
theorem filterMap_entries {β : Type} (login : Bytes) (f : ConnId → Option β)
    {entries : List (Σ _ : Bytes, ConnId)} (hkeys : entries.NodupKeys) :
    entries.filterMap (fun e => if e.1 = login then f e.2 else none) =
      ((entries.dlookup login).bind f).toList := by
  induction entries with
  | nil => rfl
  | cons e rest ih =>
    obtain ⟨key, conn⟩ := e
    obtain ⟨hfresh, hrest⟩ := List.nodupKeys_cons.mp hkeys
    by_cases hkey : key = login
    · subst hkey
      have hnone : rest.dlookup key = none := List.dlookup_eq_none.mpr hfresh
      rw [List.filterMap_cons, if_pos rfl, ih hrest, hnone, List.dlookup_cons_eq,
        Option.bind_none, Option.toList_none, Option.bind_some]
      cases f conn <;> rfl
    · rw [List.dlookup_cons_ne rest ⟨key, conn⟩ (Ne.symm hkey), ← ih hrest]
      simp only [List.filterMap_cons, if_neg hkey]

/-- What is told to one user only. -/
theorem addressed_one (w : World) (login : Bytes) (told : Notice) :
    addressed w (fun l => if l = login then some told else none) =
      ((w.getSession login).map fun sess => (sess, told)).toList := by
  have hone := filterMap_entries login (fun conn => (w.lock conn).map fun sess => (sess, told))
    w.onlineUsers.nodupKeys
  unfold addressed World.getSession
  rw [Option.map_bind]
  refine Eq.trans (List.filterMap_congr fun e _ => ?_) hone
  by_cases hlogin : e.1 = login
  · simp only [if_pos hlogin, Option.map_some]
    cases w.lock e.2 <;> rfl
  · simp only [if_neg hlogin, Option.map_none]
    cases w.lock e.2 <;> rfl

/-- One packet through the entry of the addressee, if there is one and it is alive. -/
theorem informs_one {login : Bytes} {told : Notice}
    (hsent : ∃ pushes, w'.sent = w.sent ++ pushes ∧
      List.Forall₂ (fun p e => p.conn = e.1 ∧ Tells p e.2) pushes
        ((w.getSession login).map fun sess => (sess, told)).toList)
    (hnotice : ∀ l, notice l = if l = login then some told else none) :
    Informs w w' notice := by
  obtain ⟨pushes, hsent, hpushes⟩ := hsent
  refine ⟨pushes, hsent, ?_⟩
  rw [funext hnotice, addressed_one]
  exact hpushes

theorem messageAct_run (message login : Bytes) (w : World) :
    (messageAct message login).run w = .ok (.chat ⟨Error.Base.ok⟩)
      { w with
        sent := w.sent ++ copies w login .message (serialize (ChatIncoming.mk login message))
          (w.onlineUsers.entries.map (fun e => (e.1, e.2))) } := by
  simp only [messageAct, SessionManager.broadcast, EStateM.run_bind, EStateM.run_get,
    broadcastLoop_run]
  rfl

theorem informs_broadcast (login message : Bytes)
    (hnotice : ∀ l, notice l = if l = login then none else some (.line login message)) :
    Informs w { w with
      sent := w.sent ++ copies w login .message (serialize (ChatIncoming.mk login message))
        (w.onlineUsers.entries.map (fun e => (e.1, e.2))) } notice := by
  refine ⟨_, rfl, ?_⟩
  unfold copies addressed
  rw [List.filterMap_map]
  refine List.rel_filterMap (R := Eq) ?_ (List.forall₂_refl _)
  rintro e _ rfl
  simp only [Function.comp_apply, hnotice]
  by_cases hlogin : e.1 = login
  · simp only [hlogin, bne_self_eq_false, Bool.false_eq_true, if_false, if_true, Option.map_none]
    cases w.lock e.2 <;> exact .none
  · simp only [bne_iff_ne, ne_eq, hlogin, not_false_eq_true, if_true, if_false, Option.map_some]
    cases w.lock e.2 with
    | none => exact .none
    | some sess => exact .some ⟨rfl, rfl, rfl⟩

theorem informs_withNotice (packetType : PacketType) (target : Bytes) {told : Notice}
    (htells : ∀ sess, Tells (viaEntry w sess packetType [] (.notice target)) told)
    (hnotice : ∀ l, notice l = if l = target then some told else none) :
    Informs w (withNotice w packetType target) notice := by
  refine informs_one ?_ hnotice
  unfold withNotice
  cases w.getSession target with
  | none => exact ⟨[], (List.append_nil _).symm, .nil⟩
  | some sess => exact ⟨_, rfl, .cons ⟨rfl, htells sess⟩ .nil⟩

theorem informs_pushed (env : Env) (recipientLogin senderLogin message : Bytes)
    (sender recipient : ℤ)
    (hnotice : ∀ l, notice l =
      if l = recipientLogin then some (.letter senderLogin message) else none) :
    Informs w (withDirectMessage env w recipientLogin senderLogin message sender recipient)
      notice := by
  refine informs_one ?_ hnotice
  unfold withDirectMessage pushed
  cases w.getSession recipientLogin with
  | none => exact ⟨[], rfl, .nil⟩
  | some sess => exact ⟨_, rfl, .cons ⟨rfl, rfl, _, rfl⟩ .nil⟩

variable {m : Plain} {body : Bytes}

/-- A request about friends that takes effect is told to the user it names. -/
theorem informs_friendAct (call : ℤ → ℤ → FriendCall) (operation : FriendOperation)
    {packetType : PacketType}
    (htells : ∀ (w : World) sess login,
      Tells (viaEntry w sess packetType [] (.notice login)) (noticeOf operation))
    {req : FriendRequest} (hreq : deserialize FriendRequest body = .ok req) {login : Bytes}
    (hholder : m.holder tokenTtl req.token (env.clock w.store.clockReads) = some login)
    {r : Response}
    (hreplied : Replied (m.reply tokenTtl
      (ask env w.store (.befriend req.token operation req.targetLogin))) r)
    (hrun : (friendAct env (fun x y => (call x y).program) packetType req.targetLogin login).run
      { w with store := ticked w.store } = .ok r w₁) :
    Informs w w₁ (friendNotice m (env.clock w.store.clockReads) operation body) := by
  have hnotice : ∀ l, friendNotice m (env.clock w.store.clockReads) operation body l =
      if l = req.targetLogin ∧ m.Registered req.targetLogin ∧
          (operation.command login req.targetLogin).Enabled m.friends then
        some (noticeOf operation)
      else none := by
    intro l
    simp only [friendNotice, hreq, Except.toOption, Option.bind_some, hholder]
  simp only [State.reply, ask, hholder] at hreplied
  -- the act notifies nobody unless it answers OK
  have hcases : (r.error.ok = false ∧ w₁.sent = w.sent) ∨
      (r.error.ok = true ∧ ∃ st, w₁ = withNotice { w with store := st } packetType
        req.targetLogin) := by
    cases hids : friendIds login req.targetLogin (ticked w.store) with
    | error e =>
      obtain ⟨he, hrefused⟩ := friendAct_refused env (fun x y => (call x y).program) packetType
        (w := { w with store := ticked w.store }) hids
      cases hrun.symm.trans hrefused
      exact Or.inl ⟨he, rfl⟩
    | ok ids =>
      rw [friendAct_run env (fun x y => (call x y).program) packetType
        (w := { w with store := ticked w.store }) hids] at hrun
      simp only at hrun
      split at hrun
      · cases hrun
      · split at hrun
        · cases hrun
          exact Or.inr ⟨rfl, _, rfl⟩
        · rename_i hrefused
          cases hrun
          exact Or.inl ⟨Bool.not_eq_true _ ▸ hrefused, rfl⟩
  by_cases hdone : m.Registered req.targetLogin ∧
      (operation.command login req.targetLogin).Enabled m.friends
  · rw [if_pos hdone] at hreplied
    rcases hcases with ⟨hrefused, -⟩ | ⟨-, st, rfl⟩
    · have hok : r.error = Error.Base.ok := hreplied
      rw [hok] at hrefused
      cases hrefused
    · refine informs_withNotice (w := { w with store := st }) packetType req.targetLogin
        (fun sess => htells _ sess _) fun l => ?_
      rw [hnotice]
      simp only [hdone, and_true]
  · rw [if_neg hdone] at hreplied
    rcases hcases with ⟨-, hsent⟩ | ⟨hok, -⟩
    · refine informs_nobody hsent fun l => ?_
      rw [hnotice, if_neg fun hall => hdone hall.2]
    · have hrefused : r.error.ok = false := hreplied
      rw [hok] at hrefused
      cases hrefused

theorem informs_directMessageAct {req : DirectMessageRequest}
    (hreq : deserialize DirectMessageRequest body = .ok req) {login : Bytes}
    (hholder : m.holder tokenTtl req.token (env.clock w.store.clockReads) = some login)
    {r : Response}
    (hreplied : Replied (m.reply tokenTtl
      (ask env w.store (.write req.token req.recipientLogin req.message))) r)
    (hrun : (directMessageAct env req.recipientLogin req.message login).run
      { w with store := ticked w.store } = .ok r w₁) :
    Informs w w₁ (noticeFor m (env.clock w.store.clockReads) .directMessage body) := by
  have hnotice : ∀ l, noticeFor m (env.clock w.store.clockReads) .directMessage body l =
      if l = req.recipientLogin ∧ m.Registered req.recipientLogin ∧
          m.friends s(login, req.recipientLogin) = .accepted then
        some (.letter login req.message)
      else none := by
    intro l
    simp only [noticeFor, hreq, Except.toOption, Option.bind_some, hholder]
  simp only [State.reply, ask, hholder] at hreplied
  have hcases := directMessageAct_messaging env req.recipientLogin req.message login
    { w with store := ticked w.store }
  rw [hrun] at hcases
  by_cases hdone : m.Registered req.recipientLogin ∧
      m.friends s(login, req.recipientLogin) = .accepted
  · rw [if_pos hdone] at hreplied
    cases hcases with
    | refused e _ hrefused =>
      have hok : e = Error.Base.ok := hreplied
      rw [hok] at hrefused
      cases hrefused
    | accepted sender recipient _ =>
      refine informs_pushed (w := { w with store := ticked w.store }) env req.recipientLogin login
        req.message sender recipient fun l => ?_
      rw [hnotice]
      simp only [hdone, and_true]
  · rw [if_neg hdone] at hreplied
    cases hcases with
    | refused e _ _ =>
      refine informs_nobody rfl fun l => ?_
      rw [hnotice, if_neg fun hall => hdone hall.2]
    | accepted sender recipient _ =>
      have hrefused : Error.Base.ok.ok = false := hreplied
      cases hrefused

variable {packetType : PacketType} {c : ConnId}

/-- A request with a token, by what its act does for the user behind the token. -/
theorem informs_request (h : Represents env w.store m) {t : TokenRequest}
    (hrequest : requestOf env packetType body = some t)
    (hunknown : m.holder tokenTtl t.token (env.clock w.store.clockReads) = none →
      ∀ login, notice login = none)
    (hact : ∀ login, m.holder tokenTtl t.token (env.clock w.store.clockReads) = some login →
      ∀ r w₁, (t.act login).run { w with store := ticked w.store } = .ok r w₁ →
        (dispatch env c packetType body).run w = .ok (some r, none) w₁ → Informs w w₁ notice)
    {result : Option Response × Option Bytes}
    (hrun : (dispatch env c packetType body).run w = .ok result w₁) : Informs w w₁ notice := by
  have hdispatch := dispatch_request c hrequest w
  have hlookup := tokenLogin_eq_holder h t.token
  cases hholder : m.holder tokenTtl t.token (env.clock w.store.clockReads) with
  | none =>
    obtain ⟨e, st', -, hrefused⟩ := withAccount_none t.refuse t.act (hlookup.trans hholder)
    cases hrun.symm.trans (hdispatch.trans (answer_run hrefused))
    exact informs_nobody rfl (hunknown hholder)
  | some login =>
    have haccount := withAccount_some t.refuse t.act (hlookup.trans hholder)
    cases hend : (t.act login).run { w with store := ticked w.store } with
    | error e w₂ =>
      have hthrown : (answer (withAccount env t.token t.refuse t.act)).run w = .error e w₂ := by
        simp only [answer, EStateM.run_bind, haccount.trans hend]
      cases hrun.symm.trans (hdispatch.trans hthrown)
    | ok r w₂ =>
      have hanswered := hdispatch.trans (answer_run (haccount.trans hend))
      cases hrun.symm.trans hanswered
      exact hact login hholder r _ hend hanswered

/-- An act that sends nothing. -/
theorem informs_silent (h : Represents env w.store m) {t : TokenRequest}
    (hrequest : requestOf env packetType body = some t) (hnotice : ∀ login, notice login = none)
    (hact : ∀ login r w₁, (t.act login).run { w with store := ticked w.store } = .ok r w₁ →
      w₁.sent = w.sent)
    {result : Option Response × Option Bytes}
    (hrun : (dispatch env c packetType body).run w = .ok result w₁) : Informs w w₁ notice :=
  informs_request h hrequest (fun _ => hnotice)
    (fun login _ r _ hend _ => informs_nobody (hact login r _ hend) hnotice) hrun

theorem sent_of_reading {program : ServerM Response} {x : Except Exn Response}
    (h : program.run { w with store := ticked w.store } =
      answeredFrom x { w with store := ticked w.store }) {r : Response}
    (hrun : program.run { w with store := ticked w.store } = .ok r w₁) : w₁.sent = w.sent := by
  rw [h] at hrun
  cases x with
  | error e => cases hrun
  | ok a =>
    cases hrun
    rfl

theorem uploadAct_sent {fileName fileData : Bytes} {r : Response}
    (hrun : (uploadAct env fileName fileData).run { w with store := ticked w.store } = .ok r w₁) :
    w₁.sent = w.sent := by
  rw [StoredFiles.uploadAct_run] at hrun
  cases hsealed : StoredFiles.sealed env w.randomDraws fileData with
  | error e =>
    rw [hsealed] at hrun
    cases hrun
  | ok bytes =>
    rw [hsealed] at hrun
    cases hrun
    exact StoredFiles.withFile_sent _ _ _ _

/-- A packet that asks for nothing is told to nobody. -/
theorem noticeFor_unasked {now : ℤ} (h : plainRequest packetType body = none) (login : Bytes) :
    noticeFor m now packetType body login = none := by
  cases packetType with
  | message | directMessage =>
    obtain ⟨e, he⟩ := toOption_map_none h
    simp only [noticeFor, he, Except.toOption, Option.bind_none]
  | friendRequest | friendAccept | friendReject =>
    obtain ⟨e, he⟩ := toOption_map_none h
    simp only [noticeFor, friendNotice, he, Except.toOption, Option.bind_none]
  | _ => rfl

/-- A request about friends. -/
theorem informs_befriend (h : Represents env w.store m) (call : ℤ → ℤ → FriendCall)
    (operation : FriendOperation) {told : PacketType}
    (hrequest : requestOf env packetType body =
      friendRequestOf env (fun x y => (call x y).program) told body)
    (htells : ∀ (w : World) sess login,
      Tells (viaEntry w sess told [] (.notice login)) (noticeOf operation))
    {req : FriendRequest} (hreq : deserialize FriendRequest body = .ok req)
    (hreplied : ∀ r w₁, (dispatch env c packetType body).run w = .ok (some r, none) w₁ →
      Replied (m.reply tokenTtl
        (ask env w.store (.befriend req.token operation req.targetLogin))) r)
    {result : Option Response × Option Bytes}
    (hrun : (dispatch env c packetType body).run w = .ok result w₁) :
    Informs w w₁ (friendNotice m (env.clock w.store.clockReads) operation body) := by
  have hdecoded : requestOf env packetType body = some ⟨req.token, fun e => .friend ⟨e⟩,
      friendAct env (fun x y => (call x y).program) told req.targetLogin⟩ := by
    rw [hrequest, friendRequestOf, hreq]
    rfl
  refine informs_request h hdecoded (fun hnone login => ?_)
    (fun login hholder r w₂ hact hend => ?_) hrun
  · simp only [friendNotice, hreq, Except.toOption, Option.bind_some, hnone, Option.bind_none]
  · exact informs_friendAct call operation htells hreq hholder (hreplied r w₂ hend) hact

/-- Whom a packet of a user that is logged in already, or of nobody, is told to. -/
theorem dispatch_informs (hclock : Monotone env.clock) (hsha : Function.Injective (sha256 env))
    (h : Represents env w.store m) (hauth : ¬ Authenticating packetType)
    {result : Option Response × Option Bytes}
    (hrun : (dispatch env c packetType body).run w = .ok result w₁) :
    Informs w w₁ (noticeFor m (env.clock w.store.clockReads) packetType body) := by
  have hnul : NulFreeLogin packetType body := fun hregister => absurd (Or.inl hregister) hauth
  have hreplied : ∀ {q : PlainRequest}, plainRequest packetType body = some q → ∀ r w₁,
      (dispatch env c packetType body).run w = .ok (some r, none) w₁ →
      Replied (m.reply tokenTtl (ask env w.store q)) r := fun hplain r _ hend =>
    (dispatch_follows hclock hsha c h hnul hplain).reply r _ _ hend
  by_cases hlogout : packetType = .logout
  · subst hlogout
    rcases dispatch_logout env c body w with ⟨e, hthrown⟩ | ⟨store, -, hend⟩
    · cases hrun.symm.trans hthrown
    · cases hrun.symm.trans hend
      exact informs_nobody rfl fun _ => rfl
  cases hrequest : requestOf env packetType body with
  | none =>
    have hsame := dispatch_without_request c hrequest hauth hlogout w
    rw [hrun, final_ok] at hsame
    subst hsame
    exact informs_nobody rfl
      (noticeFor_unasked (plainRequest_none_of_requestOf_none hrequest hauth hlogout))
  | some t =>
    cases packetType with
    | message =>
      obtain ⟨req, hreq, rfl⟩ := toOption_map_some hrequest
      refine informs_request h hrequest (fun hnone login => ?_)
        (fun login hholder r w₂ hact _ => ?_) hrun
      · simp only [noticeFor, hreq, Except.toOption, Option.bind_some, hnone, Option.bind_none]
      · rw [messageAct_run] at hact
        cases hact
        refine informs_broadcast (w := { w with store := ticked w.store }) login req.message
          fun l => ?_
        simp only [noticeFor, hreq, Except.toOption, Option.bind_some, hholder]
    | friendRequest =>
      obtain ⟨req, hreq, -⟩ := toOption_map_some hrequest
      exact informs_befriend h .sendRequest .request rfl (fun _ _ _ => ⟨rfl, rfl⟩) hreq
        (hreplied (by rw [plainRequest, plainFriendRequest, hreq]; rfl)) hrun
    | friendAccept =>
      obtain ⟨req, hreq, -⟩ := toOption_map_some hrequest
      exact informs_befriend h .acceptRequest .accept rfl (fun _ _ _ => ⟨rfl, rfl⟩) hreq
        (hreplied (by rw [plainRequest, plainFriendRequest, hreq]; rfl)) hrun
    | friendReject =>
      obtain ⟨req, hreq, -⟩ := toOption_map_some hrequest
      exact informs_befriend h .rejectRequest .reject rfl (fun _ _ _ => ⟨rfl, rfl⟩) hreq
        (hreplied (by rw [plainRequest, plainFriendRequest, hreq]; rfl)) hrun
    | directMessage =>
      obtain ⟨req, hreq, rfl⟩ := toOption_map_some hrequest
      refine informs_request h hrequest (fun hnone login => ?_)
        (fun login hholder r w₂ hact hend => ?_) hrun
      · simp only [noticeFor, hreq, Except.toOption, Option.bind_some, hnone, Option.bind_none]
      · exact informs_directMessageAct hreq hholder
          (hreplied (by rw [plainRequest, hreq]; rfl) r w₂ hend) hact
    | upload =>
      obtain ⟨req, hreq, rfl⟩ := toOption_map_some hrequest
      exact informs_silent h hrequest (fun _ => rfl) (fun _ _ _ hact => uploadAct_sent hact) hrun
    | download =>
      obtain ⟨req, hreq, rfl⟩ := toOption_map_some hrequest
      exact informs_silent h hrequest (fun _ => rfl)
        (fun _ _ _ hact => sent_of_reading (StoredFiles.downloadAct_run env _ req.fileName) hact)
        hrun
    | friendList =>
      obtain ⟨req, hreq, rfl⟩ := toOption_map_some hrequest
      exact informs_silent h hrequest (fun _ => rfl)
        (fun login _ _ hact => sent_of_reading (friendListAct_run login _) hact) hrun
    | messageHistory =>
      obtain ⟨req, hreq, rfl⟩ := toOption_map_some hrequest
      exact informs_silent h hrequest (fun _ => rfl)
        (fun login _ _ hact => sent_of_reading (historyAct_run env req.peerLogin login _) hact)
        hrun
    | chatList =>
      obtain ⟨req, hreq, rfl⟩ := toOption_map_some hrequest
      exact informs_silent h hrequest (fun _ => rfl)
        (fun login _ _ hact => sent_of_reading (chatListAct_run env login _) hact) hrun
    | _ => cases hrequest

theorem receive_informs (hclock : Monotone env.clock) (hsha : Function.Injective (sha256 env))
    (h : Represents env w.store m) (hlive : (w.sessions c).isSome)
    (hauth : ¬ Authenticating packetType)
    (hup : (w.receive env c packetType body).status ≠ .terminated) :
    ∃ pushes answer, (w.receive env c packetType body).sent = w.sent ++ (pushes ++ answer) ∧
      List.Forall₂ (fun p e => p.conn = e.1 ∧ Tells p e.2) pushes
        (addressed w (noticeFor m (env.clock w.store.clockReads) packetType body)) ∧
      AnswerTo c packetType answer := by
  have hfits := dispatch_fitsRequest env c body packetType
  have hcases := handlePacket_handling env packetType body hlive
  unfold World.receive at hup ⊢
  generalize (handlePacket env c packetType body).run w = result at hcases hup
  cases hcases with
  | thrown e w₁ hrun => exact absurd rfl hup
  | undelivered r login w₁ e handed hrun _ => exact absurd rfl hup
  | answered r w₁ hrun =>
    obtain ⟨pushes, hsent, htold⟩ := dispatch_informs hclock hsha h hauth hrun
    obtain ⟨answer, hanswer, hto⟩ := withAnswer_sent w₁ c (hfits w _ w₁ hrun)
    refine ⟨pushes, answer, ?_, htold, hto⟩
    exact hanswer.trans (by rw [hsent, List.append_assoc])
  | welcomed r login w₁ hrun _ hsenders =>
    exact absurd (authenticating_of_authenticatesAs (unseen_of_dispatch hrun).1) hauth

end

/-- The connection has been authenticated as `login` by a packet since the last restart. -/
def AuthenticatedAs (env : Env) (files : ℕ → Option Bytes) (events : List Event) (login : Bytes)
    (conn : ConnId) : Prop :=
  ∃ before packetType body after,
    events = before ++ .packet conn packetType body :: after ∧ .restart ∉ after ∧
    ((LabelledRuns.run (World.step env) (World.initial env files) before).sessions conn).isSome ∧
    authenticatesAs env (LabelledRuns.run (World.step env) (World.initial env files) before)
      packetType body = some login

section

variable {env : Env} {files : ℕ → Option Bytes} {events : List Event} {login : Bytes}
  {conn : ConnId}

theorem AuthenticatedAs.snoc (h : AuthenticatedAs env files events login conn) {e : Event}
    (he : e ≠ .restart) : AuthenticatedAs env files (events ++ [e]) login conn := by
  obtain ⟨before, packetType, body, after, rfl, hafter, hlive, hauth⟩ := h
  refine ⟨before, packetType, body, after ++ [e], ?_, ?_, hlive, hauth⟩
  · rw [List.append_assoc, List.cons_append]
  · rw [List.mem_append, List.mem_singleton]
    rintro (hold | hlast)
    · exact hafter hold
    · exact he hlast.symm

/-- Only a restart gets a server to run that has ended. -/
theorem running_before {w : World} {e : Event} (he : e ≠ .restart)
    (h : (w.step env e).status = .running) : w.status = .running := by
  by_contra hstopped
  refine hstopped ?_
  cases e with
  | restart => exact absurd rfl he
  | connect => simpa only [World.step, if_neg hstopped] using h
  | packet c packetType body =>
    simpa only [World.step, if_neg fun hboth : _ ∧ _ => hstopped hboth.1] using h
  | disconnect c => simpa only [World.step, if_neg hstopped] using h
  | cleanTokens => simpa only [World.step, if_neg hstopped] using h

theorem entries_of_restart {w : World} (h : (w.step env .restart).status = .running) :
    (w.step env .restart).onlineUsers = ∅ := by
  by_cases hover : w.status = .overwritten
  · simp only [World.step, if_pos hover] at h
    cases h.symm.trans hover
  · simp only [World.step, if_neg hover]
    rfl

/-- An entry of the map is of a connection that has been authenticated as its login. -/
theorem authenticated_of_entry :
    (LabelledRuns.run (World.step env) (World.initial env files) events).status = .running →
    (LabelledRuns.run (World.step env) (World.initial env files) events).onlineUsers.lookup login =
      some conn →
    AuthenticatedAs env files events login conn := by
  induction events using List.reverseRecOn with
  | nil =>
    intro _ hentry
    cases (AList.lookup_empty login).symm.trans hentry
  | append_singleton events e ih =>
    rw [LabelledRuns.run_append]
    generalize hw : LabelledRuns.run (World.step env) (World.initial env files) events = w at ih
    intro hrunning hentry
    change (w.step env e).status = .running at hrunning
    change (w.step env e).onlineUsers.lookup login = some conn at hentry
    by_cases he : e = .restart
    · subst he
      rw [entries_of_restart hrunning, AList.lookup_empty] at hentry
      cases hentry
    have hbefore := ih (running_before he hrunning)
    have hstep := step_loginStep env w e
    generalize w.step env e = w' at hstep hentry
    cases hstep with
    | same e w' hsame =>
      rw [hsame.onlineUsers] at hentry
      exact (hbefore hentry).snoc he
    | closed e w' _ hentries _ =>
      rcases hentries with hkept | hempty
      · rw [hkept] at hentry
        exact (hbefore hentry).snoc he
      · rw [hempty, AList.lookup_empty] at hentry
        cases hentry
    | connected => exact (hbefore hentry).snoc he
    | destroyed c => exact (hbefore (OnlineEntries.lookup_destroy hentry)).snoc he
    | set c packetType body new w' hset hlive _ hentries _ =>
      rw [hentries] at hentry
      by_cases hlogout : packetType = .logout
      · rw [if_pos hlogout] at hentry
        exact (hbefore hentry).snoc he
      · rw [if_neg hlogout] at hentry
        rcases OnlineEntries.lookup_insert_cases hentry with ⟨rfl, rfl⟩ | ⟨-, hold⟩
        · refine ⟨events, packetType, body, [], rfl, List.not_mem_nil, ?_, ?_⟩
          · rw [hw]
            exact isSome_login ▸ hlive
          · rw [hw]
            rw [setsLogin.eq_def] at hset
            split at hset
            · exact absurd rfl hlogout
            · exact hset
        · exact (hbefore hold).snoc he

/-- After every run a packet that does not authenticate is followed by one packet for each
live connection in the map whose login the messenger tells something, in the order of the
map, and then by its answer; and every connection in the map has been authenticated as the
login under which it stands, since the server was last started. -/
theorem notices_run (env : Env) (hclock : Monotone env.clock)
    (hsha : Function.Injective (sha256 env)) (files : ℕ → Option Bytes) (events : List Event)
    (hnul : ∀ e ∈ events, NulFreeEvent e)
    (hrunning : (LabelledRuns.run (World.step env) (World.initial env files) events).status =
      .running) :
    (∀ (c : ConnId) (packetType : PacketType) (body : Bytes),
      ((LabelledRuns.run (World.step env) (World.initial env files) events).sessions c).isSome →
      ¬ Authenticating packetType →
      ((LabelledRuns.run (World.step env) (World.initial env files) events).step env
        (.packet c packetType body)).status ≠ .terminated →
      ∃ pushes answer,
        ((LabelledRuns.run (World.step env) (World.initial env files) events).step env
          (.packet c packetType body)).sent =
          (LabelledRuns.run (World.step env) (World.initial env files) events).sent ++
            (pushes ++ answer) ∧
        List.Forall₂ (fun p e => p.conn = e.1 ∧ Tells p e.2) pushes
          (addressed (LabelledRuns.run (World.step env) (World.initial env files) events)
            (noticeFor (played env files events)
              (env.clock (LabelledRuns.run (World.step env) (World.initial env files)
                events).store.clockReads) packetType body)) ∧
        AnswerTo c packetType answer) ∧
    ∀ (login : Bytes) (conn : ConnId),
      (LabelledRuns.run (World.step env) (World.initial env files) events).onlineUsers.lookup
        login = some conn →
      AuthenticatedAs env files events login conn := by
  have h := represents_run hclock hsha files hnul
  refine ⟨fun c packetType body hlive hauth hup => ?_, fun login conn hentry =>
    authenticated_of_entry hrunning hentry⟩
  simp only [World.step, hrunning, hlive, and_self, if_true] at hup ⊢
  exact receive_informs hclock hsha h hlive hauth hup

/-- "c", on connection 1, is told what "a" says to everybody. -/
theorem notices_run_said :
    ∃ pushes answer,
      ((LabelledRuns.run (World.step Env.plain) (World.initial Env.plain fun _ => none)
        twoFriends).step Env.plain (.packet 0 .message
          (serialize (ChatSendRequest.mk [97, 97] [104])))).sent =
        (LabelledRuns.run (World.step Env.plain) (World.initial Env.plain fun _ => none)
          twoFriends).sent ++ (pushes ++ answer) ∧
      List.Forall₂ (fun p e => p.conn = e.1 ∧ Tells p e.2) pushes
        [(1, .line [97] [104])] ∧
      AnswerTo 0 .message answer := by
  have hsilent : ¬ Authenticating .message := nofun
  have haddressed : addressed
      (LabelledRuns.run (World.step Env.plain) (World.initial Env.plain fun _ => none) twoFriends)
      (noticeFor (played Env.plain (fun _ => none) twoFriends)
        (Env.plain.clock (LabelledRuns.run (World.step Env.plain)
          (World.initial Env.plain fun _ => none) twoFriends).store.clockReads) .message
        (serialize (ChatSendRequest.mk [97, 97] [104]))) =
      [(1, .line [97] [104])] := by decide
  rw [← haddressed]
  exact (notices_run Env.plain clock_plain_monotone Registrations.sha256_plain_injective
    (fun _ => none) twoFriends nulFree_twoFriends (by decide)).1 0 .message _ (by decide)
    hsilent (by decide)

end

end Messenger.Notices
