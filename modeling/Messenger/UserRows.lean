import Messenger.RequestEffects

/-!
The users table over a run. A step leaves it alone or adds a user under a login that
nobody has, so no two users share a login, as UNIQUE in the schema promises, and a login
leads to its own user.
-/
namespace Messenger.UserRows

open KeyedTables Outcomes ClientSession UserRepository FriendStates HandlerActions HandlePacket
  ServerSteps TokenRequests TableSteps StoredFiles RequestEffects

def DistinctLogins (st : Store) : Prop := (st.db.users.rows.map UserRow.login).Nodup

theorem DistinctLogins.congr {st st' : Store} (h : DistinctLogins st)
    (husers : st'.db.users = st.db.users) : DistinctLogins st' := by
  unfold DistinctLogins
  rwa [husers]

theorem findLogin_of_mem {st : Store} (h : DistinctLogins st) {u : UserRow}
    (hu : u ∈ st.db.users.rows) : st.db.findLogin u.login = some u := by
  cases hfind : st.db.findLogin u.login with
  | none =>
    have hno := List.find?_eq_none.mp hfind u hu
    simp at hno
  | some v =>
    have hv : v ∈ st.db.users.rows := List.mem_of_find?_eq_some hfind
    rw [List.inj_on_of_nodup_map h hv hu (Database.login_of_findLogin hfind)]

theorem getIdByLogin_of_mem {st : Store} (h : DistinctLogins st) {u : UserRow}
    (hu : u ∈ st.db.users.rows) : getIdByLogin u.login st = .ok u.id := by
  rw [getIdByLogin, findLogin_of_mem h hu]

/-- Ids are keys, so an id leads back to the row. -/
theorem findUser_of_mem {st : Store} {u : UserRow} (hu : u ∈ st.db.users.rows) :
    st.db.findUser u.id = some u := by
  cases hfind : st.db.findUser u.id with
  | none =>
    have hno := List.find?_eq_none.mp hfind u hu
    simp at hno
  | some v =>
    have hv : v ∈ st.db.users.rows := List.mem_of_find?_eq_some hfind
    have hid : v.id = u.id := by simpa using List.find?_some hfind
    rw [st.db.users.eq_of_key_eq hv hu hid]

theorem distinctLogins_withUser {st : Store} (h : DistinctLogins st) {login : Bytes}
    (hfree : st.db.findLogin login = none) (salt hash : Bytes) :
    DistinctLogins (withUser st login salt hash) := by
  change ((st.db.users.rows ++ [(⟨st.db.users.seq + 1, login, salt, hash⟩ : UserRow)]).map
    UserRow.login).Nodup
  rw [List.map_append, List.nodup_append]
  refine ⟨h, List.nodup_singleton _, ?_⟩
  intro l hl l' hl' heq
  obtain ⟨u, hu, rfl⟩ := List.mem_map.mp hl
  have hlogin : u.login = login := heq.trans (List.mem_singleton.mp hl')
  have hno := List.find?_eq_none.mp hfree u hu
  simp [hlogin] at hno

/-- Only a registration adds a user. -/
theorem distinctLogins_accountAction {env : Env} {packetType : PacketType} {body : Bytes}
    {w w' : World} (h : AccountAction env packetType body w w')
    (hlogins : DistinctLogins w.store) : DistinctLogins w'.store := by
  cases h with
  | register req _ _ =>
    rcases registerUser_cases env req.login req.password w.store with ⟨-, hrun⟩ | ⟨hfree, hrun⟩
    · rw [hrun]
      exact hlogins
    · rw [hrun]
      exact distinctLogins_withUser hlogins hfree _ _
  | verify login password =>
    rcases verifyUser_cases env login password w.store with
      ⟨-, hrun⟩ | ⟨-, ⟨u, -, -, hrun⟩ | ⟨e, hrun⟩⟩
    · rw [hrun]
      exact hlogins
    · rw [hrun]
      exact hlogins.congr rfl
    · rw [hrun]
      exact hlogins.congr rfl
  | lookup token =>
    obtain ⟨r, st', hrun, hlook⟩ := getLoginByToken_run env token w.store
    rw [hrun]
    exact hlogins.congr hlook.users
  | token c t => exact hlogins

section

variable {env : Env} {self : ConnId} {packetType : PacketType} {body : Bytes} {w w' : World}

/-- No act touches the users. -/
theorem users_of_effect {login : Bytes} (h : Effect env packetType body login w w') :
    w'.store.db.users = w.store.db.users := by
  cases h with
  | none => rfl
  | posted req w' _ _ hposts =>
    obtain ⟨pushes, rfl, -⟩ := hposts
    rfl
  | drawn req _ _ => rfl
  | written req bytes _ _ _ => rw [withFile_store, withDraw]
  | befriended call st notice w' hstore hposts =>
    obtain ⟨pushes, rfl, -⟩ := hposts
    obtain ⟨friendships, hfriendships⟩ := friendCall_friendships call w.store
    rw [← hstore, hfriendships]
  | stored req sender recipient _ _ _ => rfl

/-- Nothing but an authentication touches the users. -/
theorem distinctLogins_of_switched (h : Switched env self packetType body w w')
    (hlogins : DistinctLogins w.store) : DistinctLogins w'.store := by
  cases h with
  | none => exact hlogins
  | accounts w' _ hcalls =>
    exact preserved_of_actions (P := fun w' : World => DistinctLogins w'.store)
      (fun _ _ hcall => distinctLogins_accountAction hcall) hcalls hlogins
  | loggedOut req _ _ => exact hlogins.congr rfl
  | lookedUp t e st _ hlook =>
    refine hlogins.congr ?_
    cases hlook <;> rfl
  | acted t login w' _ _ heffect =>
    have husers := users_of_effect heffect
    exact hlogins.congr husers

end

theorem distinctLogins_step (env : Env) {w : World} (e : Event) (h : DistinctLogins w.store) :
    DistinctLogins (w.step env e).store :=
  store_step e (fun _ _ _ _ hswitched => distinctLogins_of_switched hswitched h)
    (fun _ _ hst => hst.congr rfl) (h.congr rfl) h

theorem distinctLogins_reachable {env : Env} {w : World} (h : World.Reachable env w) :
    DistinctLogins w.store := by
  obtain ⟨files, events, rfl⟩ := h
  have hinitial : DistinctLogins (World.initial env files).store := List.nodup_nil
  exact LabelledRuns.invariant (P := fun w : World => DistinctLogins w.store)
    (fun _ e hw => distinctLogins_step env e hw) hinitial events

end Messenger.UserRows
