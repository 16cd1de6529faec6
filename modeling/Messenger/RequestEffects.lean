import Messenger.StoredFiles
import Messenger.TableSteps

/-!
What a packet does to the world, said once. Behind the lookup a request sends copies of one
packet, writes a file, carries out a command about friends or stores a message; around it
there are the lookups, the accounts and LOGOUT. What a step keeps is read off these cases.
-/
namespace Messenger.RequestEffects

open KeyedTables Outcomes ClientSession UserRepository MessageRepository FriendStates
  HandlerActions HandlePacket ServerSteps TokenRequests TableSteps StoredFiles

/-- Packets of one type and body have been sent, and nothing else has happened. -/
def Posts (packetType : PacketType) (body : Bytes) (w w' : World) : Prop :=
  ∃ pushes : List Sent, w' = { w with sent := w.sent ++ pushes } ∧
    ∀ p ∈ pushes, p.packetType = packetType ∧ p.body = body

theorem Posts.refl (packetType : PacketType) (body : Bytes) (w : World) :
    Posts packetType body w w :=
  ⟨[], by rw [List.append_nil], fun _ hp => absurd hp List.not_mem_nil⟩

theorem Posts.trans {packetType : PacketType} {body : Bytes} {w w' w'' : World}
    (h : Posts packetType body w w') (h' : Posts packetType body w' w'') :
    Posts packetType body w w'' := by
  obtain ⟨pushes, rfl, hpushes⟩ := h
  obtain ⟨pushes', rfl, hpushes'⟩ := h'
  refine ⟨pushes ++ pushes', by rw [← List.append_assoc], fun p hp => ?_⟩
  rcases List.mem_append.mp hp with hfirst | hsecond
  · exact hpushes p hfirst
  · exact hpushes' p hsecond

theorem broadcastLoop_posts (senderLogin : Bytes) (packetType : PacketType) (body : Bytes)
    (entries : List (Bytes × ConnId)) (w : World) :
    Moves (Posts packetType body)
      (SessionManager.broadcastLoop senderLogin packetType body entries) w := by
  induction entries generalizing w with
  | nil => exact moves_pure _ _
  | cons e rest ih =>
    obtain ⟨login, weakSess⟩ := e
    refine moves_bind (moves_get w) fun w₁ w₂ _ => ?_
    refine moves_ite (fun _ => ?_) fun _ => ih _
    cases w₁.lock weakSess with
    | none => exact ih _
    | some sess =>
      refine moves_bind (moves_modify ⟨_, rfl, fun p hp => ?_⟩) fun _ w₃ _ => ih _
      rw [List.mem_singleton.mp hp]
      exact ⟨rfl, rfl⟩

/-- How an act for a login leaves the world. -/
inductive Effect (env : Env) (packetType : PacketType) (body login : Bytes) (w : World) :
    World → Prop where
  | none : Effect env packetType body login w w
  | posted (req : ChatSendRequest) (w' : World) (htype : packetType = .message)
      (hreq : deserialize ChatSendRequest body = .ok req)
      (hposts : Posts .message (serialize (ChatIncoming.mk login req.message)) w w') :
      Effect env packetType body login w w'
  | drawn (req : FileUploadRequest) (htype : packetType = .upload)
      (hreq : deserialize FileUploadRequest body = .ok req) :
      Effect env packetType body login w (withDraw w)
  | written (req : FileUploadRequest) (bytes : Bytes) (htype : packetType = .upload)
      (hreq : deserialize FileUploadRequest body = .ok req)
      (hsealed : sealed env w.randomDraws req.fileData = .ok bytes) :
      Effect env packetType body login w (withFile env (withDraw w) req.fileName bytes)
  | befriended (call : FriendCall) (st : Store) (notice : PacketType) (w' : World)
      (hstore : final (call.program.run w.store) = st)
      (hposts : Posts notice [] { w with store := st } w') :
      Effect env packetType body login w w'
  | stored (req : DirectMessageRequest) (sender recipient : ℤ)
      (htype : packetType = .directMessage)
      (hreq : deserialize DirectMessageRequest body = .ok req)
      (hplan : directMessagePlan req.recipientLogin login w.store =
        .ok (.ok (sender, recipient))) :
      Effect env packetType body login w
        (withDirectMessage env w req.recipientLogin login req.message sender recipient)

section

variable {env : Env} {body login : Bytes} {w : World}

theorem withNotice_posts (w : World) (notice : PacketType) (targetLogin : Bytes) :
    Posts notice [] w (withNotice w notice targetLogin) := by
  unfold withNotice
  cases w.getSession targetLogin with
  | none => exact .refl _ _ _
  | some sess =>
    refine ⟨_, rfl, fun p hp => ?_⟩
    rw [List.mem_singleton.mp hp]
    exact ⟨rfl, rfl⟩

theorem friendAct_effect {packetType : PacketType} (call : ℤ → ℤ → FriendCall)
    (notice : PacketType) (targetLogin : Bytes) :
    Effect env packetType body login w
      (final ((friendAct env (fun x y => (call x y).program) notice targetLogin login).run w)) := by
  cases hids : friendIds login targetLogin w.store with
  | error e =>
    obtain ⟨-, hrun⟩ := friendAct_refused env (fun x y => (call x y).program) notice hids
    rw [hrun]
    exact .none
  | ok ids =>
    obtain ⟨x, y⟩ := ids
    rw [friendAct_run env (fun x y => (call x y).program) notice hids]
    cases hprogram : (call x y).program.run w.store with
    | error e st => exact .befriended (call x y) st notice _ (by rw [hprogram]; rfl) (.refl _ _ _)
    | ok e st =>
      have hstore : final ((call x y).program.run w.store) = st := by
        rw [hprogram]
        rfl
      simp only
      split
      · exact .befriended (call x y) st notice _ hstore (withNotice_posts _ _ _)
      · exact .befriended (call x y) st notice _ hstore (.refl _ _ _)

theorem reading_effect {packetType : PacketType} {m : ServerM Response}
    {x : Except Exn Response} (h : m.run w = answeredFrom x w) :
    Effect env packetType body login w (final (m.run w)) := by
  rw [h]
  cases x <;> exact .none

theorem act_effect {packetType : PacketType} {t : TokenRequest}
    (hreq : requestOf env packetType body = some t) :
    Effect env packetType body login w (final ((t.act login).run w)) := by
  cases packetType with
  | message =>
    obtain ⟨req, hdecoded, rfl⟩ := toOption_map_some hreq
    refine .posted req _ rfl hdecoded ?_
    have hmoves : Moves (Posts .message (serialize (ChatIncoming.mk login req.message)))
        (messageAct req.message login) w := by
      refine moves_bind ?_ fun _ _ _ => moves_pure _ _
      exact moves_bind (moves_get w) fun _ _ _ => broadcastLoop_posts _ _ _ _ _
    exact hmoves.collapse (Posts.refl _ _) fun _ _ _ => Posts.trans
  | upload =>
    obtain ⟨req, hdecoded, rfl⟩ := toOption_map_some hreq
    simp only [uploadAct_run]
    cases hsealed : sealed env w.randomDraws req.fileData with
    | error e => exact .drawn req rfl hdecoded
    | ok bytes => exact .written req bytes rfl hdecoded hsealed
  | download =>
    obtain ⟨req, -, rfl⟩ := toOption_map_some hreq
    exact reading_effect (downloadAct_run env w req.fileName)
  | friendRequest =>
    obtain ⟨req, -, rfl⟩ := toOption_map_some hreq
    exact friendAct_effect .sendRequest _ _
  | friendAccept =>
    obtain ⟨req, -, rfl⟩ := toOption_map_some hreq
    exact friendAct_effect .acceptRequest _ _
  | friendReject =>
    obtain ⟨req, -, rfl⟩ := toOption_map_some hreq
    exact friendAct_effect .rejectRequest _ _
  | friendList =>
    obtain ⟨req, -, rfl⟩ := toOption_map_some hreq
    exact reading_effect (friendListAct_run login w)
  | messageHistory =>
    obtain ⟨req, -, rfl⟩ := toOption_map_some hreq
    exact reading_effect (historyAct_run env req.peerLogin login w)
  | directMessage =>
    obtain ⟨req, hdecoded, rfl⟩ := toOption_map_some hreq
    have hcases := directMessageAct_messaging env req.recipientLogin req.message login w
    simp only
    generalize (directMessageAct env req.recipientLogin req.message login).run w = result at hcases
    cases hcases with
    | thrown e _ => exact .none
    | refused e _ _ => exact .none
    | accepted sender recipient hplan => exact .stored req sender recipient rfl hdecoded hplan
  | chatList =>
    obtain ⟨req, -, rfl⟩ := toOption_map_some hreq
    exact reading_effect (chatListAct_run env login w)
  | _ => cases hreq

end

/-- A command about friends touches their table alone. -/
theorem friendCall_friendships (call : FriendCall) (st : Store) :
    ∃ friendships, final (call.program.run st) =
      { st with db := { st.db with friendships := friendships } } := by
  let touches : Store → Store → Prop := fun st st' =>
    ∃ friendships, st' = { st with db := { st.db with friendships := friendships } }
  have hrefl : ∀ st, touches st st := fun st => ⟨st.db.friendships, rfl⟩
  have htrans : ∀ st st' st'', touches st st' → touches st' st'' → touches st st'' := by
    rintro st _ _ ⟨f, rfl⟩ ⟨f', rfl⟩
    exact ⟨f', rfl⟩
  have hmodify : ∀ (f : Database → Table FriendshipRow.id) (st : Store),
      Moves touches (modifyDb (fun db => { db with friendships := f db })) st :=
    fun f st => moves_modify ⟨f st.db, rfl⟩
  have hinsert : ∀ (p : ℤ × ℤ) (status : Status) (initiator : ℤ) (st : Store),
      Moves touches (FriendRepository.insertFriendship p status initiator) st := by
    intro p status initiator st
    rcases requireUsers_cases [p.1, p.2] st with ⟨-, h⟩ | h
    · exact moves_bind (.single (by rw [h]; exact hrefl st)) fun _ st' _ => hmodify _ st'
    · exact moves_bind (.single (by rw [h]; exact hrefl st)) fun _ st' _ => hmodify _ st'
  refine Moves.collapse (A := touches) hrefl htrans ?_
  cases call with
  | sendRequest x y =>
    refine moves_ite (fun _ => moves_pure _ _) fun _ => ?_
    refine moves_bind (moves_get st) fun store st' _ => ?_
    split
    · exact moves_pure _ _
    · exact moves_pure _ _
    · exact moves_bind (hinsert _ _ _ st') fun _ _ _ => moves_pure _ _
  | acceptRequest y x =>
    refine moves_bind (moves_get st) fun store st' _ => ?_
    split
    · exact moves_pure _ _
    · refine moves_ite (fun _ => moves_pure _ _) fun _ => ?_
      exact moves_bind (hmodify _ st') fun _ _ _ => moves_pure _ _
  | rejectRequest y x =>
    refine moves_bind (moves_get st) fun store st' _ => ?_
    split
    · exact moves_pure _ _
    · refine moves_ite (fun _ => moves_pure _ _) fun _ => ?_
      exact moves_bind (hmodify _ st') fun _ _ _ => moves_pure _ _

/-- How the switch leaves the world. -/
inductive Switched (env : Env) (self : ConnId) (packetType : PacketType) (body : Bytes)
    (w : World) : World → Prop where
  | none : Switched env self packetType body w w
  | accounts (w' : World) (hauth : Authenticating packetType)
      (hcalls : Relation.ReflTransGen (AccountAction env packetType body) w w') :
      Switched env self packetType body w w'
  | loggedOut (req : LogoutRequest) (htype : packetType = .logout)
      (hreq : deserialize LogoutRequest body = .ok req) :
      Switched env self packetType body w
        (withoutLogin w self (final ((logout req.oldToken).run w.store)))
  | lookedUp (t : TokenRequest) (e : ErrorCode) (st : Store)
      (hrequest : requestOf env packetType body = some t)
      (hlook : LookedUp env t.token w.store (.error e) st) :
      Switched env self packetType body w { w with store := st }
  | acted (t : TokenRequest) (login : Bytes) (w' : World)
      (hrequest : requestOf env packetType body = some t)
      (hlogin : tokenLogin env t.token w.store = some login)
      (heffect : Effect env packetType body login { w with store := ticked w.store } w') :
      Switched env self packetType body w w'

theorem answer_final (m : ServerM Response) (w : World) :
    final ((answer m).run w) = final (m.run w) := by
  rw [answer, EStateM.run_bind]
  cases m.run w <;> rfl

theorem dispatch_switched (env : Env) (self : ConnId) (packetType : PacketType) (body : Bytes)
    (w : World) :
    Switched env self packetType body w (final ((dispatch env self packetType body).run w)) := by
  by_cases hauth : Authenticating packetType
  · exact .accounts _ hauth (dispatch_accountActions env self body w hauth)
  by_cases hlogout : packetType = .logout
  · subst hlogout
    cases hreq : deserialize LogoutRequest body with
    | error e =>
      simp only [dispatch, handleLogout, decode, hreq, EStateM.run_bind, run_throw_any]
      exact .none
    | ok req =>
      simp only [dispatch, handleLogout, EStateM.run_bind, decode_run hreq]
      exact .loggedOut req rfl hreq
  cases hrequest : requestOf env packetType body with
  | none =>
    rw [dispatch_without_request self hrequest hauth hlogout w]
    exact .none
  | some t =>
    rw [dispatch_request self hrequest w, answer_final]
    cases hlogin : tokenLogin env t.token w.store with
    | none =>
      obtain ⟨e, st', hlook, hrun⟩ := withAccount_none t.refuse t.act hlogin
      rw [hrun]
      exact .lookedUp t e st' hrequest hlook
    | some login =>
      rw [withAccount_some t.refuse t.act hlogin]
      exact .acted t login _ hrequest hlogin (act_effect hrequest)

/-- What holds of the store after the switch, after marks and after the token cleaner holds
after a step. -/
theorem store_step {P : Store → Prop} {env : Env} {w : World} (e : Event)
    (hswitched : ∀ c packetType body w', Switched env c packetType body w w' → P w'.store)
    (hmarked : ∀ st ids, P st → P (withDelivered st ids))
    (hcleaned : P (final ((cleanExpiredTokens env).run w.store))) (h : P w.store) :
    P (w.step env e).store := by
  have hstep := step_stepping env w e
  generalize w.step env e = w' at hstep
  cases hstep with
  | idle e => exact h
  | restart => exact hcleaned
  | connect _ => exact h
  | packet c packetType body _ hlive =>
    exact receive_preserves (P := fun w' : World => P w'.store) env hlive (fun _ _ _ h => h)
      (fun _ _ h => hmarked _ _ h)
      (fun w₁ r h => (withAnswer_store w₁ c packetType r).symm ▸ h) (fun _ h => h)
      (hswitched c packetType body _ (dispatch_switched env c packetType body w))
  | disconnect c _ => exact h
  | cleanTokens _ => exact hcleaned

end Messenger.RequestEffects
