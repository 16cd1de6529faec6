import Messenger.UserRows

/-!
How long the texts in the tables are. SQLite takes no text of more than 10^9 bytes, so the
packets that are looked at here hand it none. Logins come into the tables by REGISTER and
messages by DIRECT_MESSAGE, so in every run of such packets what is stored is no longer
either, and neither is what is read back.
-/
namespace Messenger.StoredTexts

open KeyedTables Outcomes ClientSession UserRepository MessageRepository FriendStates
  HandlerActions HandlePacket ServerSteps TokenRequests TableSteps RequestEffects UserRows

/-- `SQLITE_MAX_LENGTH`, by default. -/
def maxLength : ℕ := 1000000000

def decodedTexts (Derived : Type) {Args : Type} [Serializable Derived Args]
    [TupleSerializer Args] (body : Bytes) (texts : Derived → List Bytes) : List Bytes :=
  match deserialize Derived body with
  | .ok req => texts req
  | .error _ => []

/-- The texts of a packet that are bound to statements; a password is hashed before. -/
def boundTexts (packetType : PacketType) (body : Bytes) : List Bytes :=
  match packetType with
  | .register | .login => decodedTexts AuthRequest body fun req => [req.login]
  | .message => decodedTexts ChatSendRequest body fun req => [req.token]
  | .upload => decodedTexts FileUploadRequest body fun req => [req.token]
  | .download => decodedTexts FileDownloadRequest body fun req => [req.token]
  | .friendRequest | .friendAccept | .friendReject =>
    decodedTexts FriendRequest body fun req => [req.token, req.targetLogin]
  | .friendList => decodedTexts FriendListRequest body fun req => [req.token]
  | .messageHistory => decodedTexts HistoryRequest body fun req => [req.token, req.peerLogin]
  | .directMessage =>
    decodedTexts DirectMessageRequest body fun req => [req.token, req.recipientLogin, req.message]
  | .chatList => decodedTexts ChatListRequest body fun req => [req.token]
  | .tokenVerify => decodedTexts TokenVerifyRequest body fun req => [req.oldToken]
  | .logout => decodedTexts LogoutRequest body fun req => [req.oldToken]
  | _ => []

/-- No text of the packet is too long for SQLite. -/
def WithinLimit : Event → Prop
  | .packet _ packetType body => ∀ text ∈ boundTexts packetType body, text.length ≤ maxLength
  | _ => True

instance : DecidablePred WithinLimit
  | .packet _ _ _ => inferInstanceAs (Decidable (∀ text ∈ _, _))
  | .connect | .disconnect _ | .cleanTokens | .restart => inferInstanceAs (Decidable True)

theorem length_message_le {c : ConnId} {body : Bytes} {req : DirectMessageRequest}
    (hwithin : WithinLimit (.packet c .directMessage body))
    (hreq : deserialize DirectMessageRequest body = .ok req) : req.message.length ≤ maxLength := by
  refine hwithin req.message ?_
  simp [boundTexts, decodedTexts, hreq]

structure TextsFit (st : Store) : Prop where
  logins : ∀ u ∈ st.db.users.rows, u.login.length ≤ maxLength
  messages : ∀ r ∈ st.db.directMessages.rows, r.message.length ≤ maxLength

theorem TextsFit.congr {st st' : Store} (h : TextsFit st) (husers : st'.db.users = st.db.users)
    (hmessages : st'.db.directMessages = st.db.directMessages) : TextsFit st' := by
  refine ⟨?_, ?_⟩
  · rw [husers]
    exact h.logins
  · rw [hmessages]
    exact h.messages

theorem textsFit_withDelivered {st : Store} (h : TextsFit st) (ids : List ℤ) :
    TextsFit (withDelivered st ids) := by
  refine ⟨h.logins, fun r hr => ?_⟩
  obtain ⟨old, hold, rfl⟩ := List.mem_map.mp hr
  split <;> exact h.messages old hold

section

variable {env : Env} {c : ConnId} {packetType : PacketType} {body : Bytes} {w w' : World}

theorem textsFit_accountAction (h : AccountAction env packetType body w w')
    (hwithin : WithinLimit (.packet c packetType body)) (hfit : TextsFit w.store) :
    TextsFit w'.store := by
  cases h with
  | register req htype hreq =>
    rcases registerUser_cases env req.login req.password w.store with ⟨-, hrun⟩ | ⟨-, hrun⟩
    · rw [hrun]
      exact hfit
    · rw [hrun]
      subst htype
      have hlogin : req.login.length ≤ maxLength := by
        refine hwithin req.login ?_
        rw [boundTexts, decodedTexts, hreq]
        exact List.mem_singleton_self _
      refine ⟨fun u hu => ?_, hfit.messages⟩
      rcases List.mem_append.mp hu with hold | hnew
      · exact hfit.logins u hold
      · rw [List.mem_singleton.mp hnew]
        exact hlogin
  | verify login password =>
    rcases verifyUser_cases env login password w.store with
      ⟨-, hrun⟩ | ⟨-, ⟨u, -, -, hrun⟩ | ⟨e, hrun⟩⟩
    · rw [hrun]
      exact hfit
    · rw [hrun]
      exact hfit.congr rfl rfl
    · rw [hrun]
      exact hfit.congr rfl rfl
  | lookup token =>
    obtain ⟨r, st', hrun, hlook⟩ := getLoginByToken_run env token w.store
    rw [hrun]
    exact hfit.congr hlook.users hlook.messages
  | token c t => exact hfit

/-- A message is stored as it has come. -/
theorem textsFit_effect {login : Bytes} (h : Effect env packetType body login w w')
    (hwithin : WithinLimit (.packet c packetType body)) (hfit : TextsFit w.store) :
    TextsFit w'.store := by
  have husers := users_of_effect h
  cases h with
  | none => exact hfit
  | posted req w' _ _ hposts =>
    obtain ⟨pushes, rfl, -⟩ := hposts
    exact hfit
  | drawn req _ _ => exact hfit
  | written req bytes _ _ _ =>
    rw [StoredFiles.withFile_store]
    exact hfit
  | befriended call st notice w' hstore hposts =>
    obtain ⟨pushes, rfl, -⟩ := hposts
    obtain ⟨friendships, hfriendships⟩ := friendCall_friendships call w.store
    rw [← hstore, hfriendships]
    exact hfit.congr rfl rfl
  | stored req sender recipient htype hreq _ =>
    subst htype
    refine ⟨husers ▸ hfit.logins, fun r hr => ?_⟩
    rcases List.mem_append.mp hr with hold | hnew
    · exact hfit.messages r hold
    · rw [List.mem_singleton.mp hnew]
      exact length_message_le hwithin hreq

theorem textsFit_switched (h : Switched env c packetType body w w')
    (hwithin : WithinLimit (.packet c packetType body)) (hfit : TextsFit w.store) :
    TextsFit w'.store := by
  cases h with
  | none => exact hfit
  | accounts w' _ hcalls =>
    exact preserved_of_actions (P := fun w' : World => TextsFit w'.store)
      (fun _ _ hcall => textsFit_accountAction hcall hwithin) hcalls hfit
  | loggedOut req _ _ => exact hfit.congr rfl rfl
  | lookedUp t e st _ hlook =>
    refine hfit.congr ?_ ?_
    · cases hlook <;> rfl
    · cases hlook <;> rfl
  | acted t login w' _ _ heffect => exact textsFit_effect heffect hwithin (hfit.congr rfl rfl)

end

theorem textsFit_step (env : Env) {w : World} (e : Event) (h : TextsFit w.store)
    (hwithin : WithinLimit e) : TextsFit (w.step env e).store := by
  have hstep := step_stepping env w e
  generalize w.step env e = w' at hstep
  cases hstep with
  | idle e => exact h
  | restart => exact h.congr rfl rfl
  | connect _ => exact h
  | disconnect c _ => exact h
  | cleanTokens _ => exact h.congr rfl rfl
  | packet c packetType body _ hlive =>
    refine receive_preserves (P := fun w' : World => TextsFit w'.store) env hlive
      (fun _ _ _ h => h) (fun _ _ h => textsFit_withDelivered h _)
      (fun w₁ r h => (withAnswer_store w₁ c packetType r).symm ▸ h) (fun _ h => h) ?_
    exact textsFit_switched (dispatch_switched env c packetType body w) hwithin h

theorem textsFit_initial (env : Env) (files : ℕ → Option Bytes) :
    TextsFit (World.initial env files).store :=
  ⟨fun _ hu => absurd hu List.not_mem_nil, fun _ hr => absurd hr List.not_mem_nil⟩

theorem length_getText_le (column : Bytes) : (getText column).length ≤ column.length :=
  (List.takeWhile_prefix _).length_le

section

variable {st : Store} (h : TextsFit st)

include h

theorem length_getLoginById_le {id : ℤ} {login : Bytes} (hid : getLoginById id st = .ok login) :
    login.length ≤ maxLength := by
  unfold getLoginById at hid
  split at hid
  · rename_i u hu
    cases hid
    exact (length_getText_le _).trans (h.logins u (List.mem_of_find?_eq_some hu))
  · cases hid

theorem length_tokenLogin_le {env : Env} {token login : Bytes}
    (htoken : tokenLogin env token st = some login) : login.length ≤ maxLength := by
  unfold tokenLogin at htoken
  split at htoken
  · cases htoken
  · split at htoken
    · cases htoken
    · obtain ⟨u, hu, rfl⟩ := Option.map_eq_some_iff.mp htoken
      exact (length_getText_le _).trans (h.logins u (List.mem_of_find?_eq_some hu))

end

end Messenger.StoredTexts
