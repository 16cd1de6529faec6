import Messenger.ServerSteps

/-!
The direct_messages table over the steps of the server. A row keeps its text and its
users; it is new and undelivered, or as it was, or it has just been marked in the welcome
of its recipient. Messages are for users who exist, and what was handed to send_packet
stays on record.
-/
namespace Messenger.MessageRows

open KeyedTables Outcomes ClientSession UserRepository MessageRepository HandlerActions
  HandlePacket ServerSteps

/-- The row waits for the user with this login. -/
def InBacklog (st : Store) (l : Bytes) (row : ℤ) : Prop :=
  ∃ u, st.db.findLogin l = some u ∧
    ∃ r ∈ st.db.directMessages.rows, r.id = row ∧ r.recipient = u.id ∧ r.delivered = 0

theorem mem_backlog_iff (env : Env) {l : Bytes} {st : Store} {row : ℤ} :
    row ∈ (backlog env l st).map StoredMessage.id ↔ InBacklog st l row := by
  unfold InBacklog backlog getIdByLogin
  cases hu : st.db.findLogin l with
  | none => simp
  | some u =>
    have hmem : ∀ r, r ∈ env.sqlite.orderBy DirectMessageRow.createAt (undeliveredRows u.id st) ↔
        r ∈ st.db.directMessages.rows ∧ r.recipient = u.id ∧ r.delivered = 0 := by
      intro r
      rw [(env.sqlite.orderBy_perm _ _).mem_iff, undeliveredRows, List.mem_filter]
      simp only [Bool.and_eq_true, beq_iff_eq]
    simp only [getUndelivered, List.map_map, List.mem_map, hmem, Function.comp_apply,
      Option.some.injEq, exists_eq_left']
    constructor
    · rintro ⟨r, ⟨hrow, hrest⟩, hid⟩
      exact ⟨r, hrow, hid, hrest⟩
    · rintro ⟨r, hrow, hid, hrest⟩
      exact ⟨r, ⟨hrow, hrest⟩, hid⟩

theorem backlog_nodup (env : Env) (l : Bytes) (st : Store) :
    ((backlog env l st).map StoredMessage.id).Nodup := by
  unfold backlog
  cases getIdByLogin l st with
  | error e => exact List.nodup_nil
  | ok id =>
    simp only [getUndelivered, List.map_map]
    have hperm := (env.sqlite.orderBy_perm DirectMessageRow.createAt (undeliveredRows id st)).map
      (StoredMessage.id ∘ fun r => ⟨r.id, r.sender, r.createAt, getText r.message⟩)
    refine hperm.nodup_iff.mpr ?_
    exact (List.filter_sublist.map DirectMessageRow.id).nodup st.db.directMessages.keys_nodup

/-- Every message is for a user who exists. -/
def RecipientsExist (st : Store) : Prop :=
  ∀ r ∈ st.db.directMessages.rows, (st.db.findUser r.recipient).isSome

/-- Whoever has a message had registered before the authentication. -/
theorem findLogin_before {env : Env} {st st' : Store} (hquiet : Quiet env st st')
    (hrecipients : RecipientsExist st) {l : Bytes} {u : UserRow}
    (hu : st'.db.findLogin l = some u) {r : DirectMessageRow}
    (hr : r ∈ st.db.directMessages.rows) (hrecipient : r.recipient = u.id) :
    st.db.findLogin l = some u := by
  obtain ⟨v, hv⟩ := Option.isSome_iff_exists.mp (hrecipients r hr)
  have hvid : v.id = r.recipient := by simpa using List.find?_some hv
  have hsame : v = u := by
    have hvmem : v ∈ st'.db.users.rows := List.mem_of_find?_eq_some (hquiet.findUser hv)
    have humem : u ∈ st'.db.users.rows := List.mem_of_find?_eq_some hu
    exact st'.db.users.eq_of_key_eq hvmem humem (hvid.trans hrecipient)
  subst hsame
  cases hold : st.db.findLogin l with
  | some w => rw [← Option.some.inj ((hquiet.findLogin hold).symm.trans hu)]
  | none =>
    have hvrow : v ∈ st.db.users.rows := List.mem_of_find?_eq_some hv
    have hno := List.find?_eq_none.mp hold v hvrow
    simp [Database.login_of_findLogin hu] at hno

/-- An authentication adds nothing to the backlog it is about to deliver: a user who has
just registered has none. -/
theorem inBacklog_of_quiet {env : Env} {st st' : Store} {l : Bytes} {row : ℤ}
    (hquiet : Quiet env st st') (hrecipients : RecipientsExist st) (h : InBacklog st' l row) :
    InBacklog st l row := by
  obtain ⟨u, hu, r, hr, hid, hrecipient, hdelivered⟩ := h
  rw [hquiet.messages] at hr
  exact ⟨u, findLogin_before hquiet hrecipients hu hr hrecipient, r, hr, hid, hrecipient,
    hdelivered⟩

theorem backlog_of_quiet {env : Env} {st st' : Store} (hquiet : Quiet env st st')
    (hrecipients : RecipientsExist st) (l : Bytes) : backlog env l st' = backlog env l st := by
  cases hold : st.db.findLogin l with
  | some u =>
    have hnew := hquiet.findLogin hold
    simp only [backlog, getIdByLogin, hold, hnew, getUndelivered, undeliveredRows,
      hquiet.messages]
  | none =>
    have hnone : backlog env l st = [] := by simp only [backlog, getIdByLogin, hold]
    rw [hnone]
    refine List.eq_nil_iff_forall_not_mem.mpr fun el hel => ?_
    obtain ⟨u, hu, -⟩ := inBacklog_of_quiet hquiet hrecipients
      ((mem_backlog_iff env).mp (List.mem_map_of_mem hel))
    cases hold.symm.trans hu

/-- Every row was there before, or is new, undelivered and for a user who exists. -/
def RowsFrom (st st' : Store) : Prop :=
  ∀ r ∈ st'.db.directMessages.rows, r ∈ st.db.directMessages.rows ∨
    (r.delivered = 0 ∧ (st'.db.findUser r.recipient).isSome)

theorem isSome_findUser {env : Env} {st st' : Store} (h : Grows env st st') {id : ℤ}
    (hid : (st.db.findUser id).isSome) : (st'.db.findUser id).isSome := by
  obtain ⟨u, hu⟩ := Option.isSome_iff_exists.mp hid
  rw [h.findUser hu]
  rfl

theorem Action.rowsFrom {env : Env} {w w' : World} (h : Action env w w') :
    RowsFrom w.store w'.store := by
  cases h with
  | account h =>
    cases h with
    | store st hquiet => exact fun r hr => Or.inl (hquiet.messages ▸ hr)
    | token c t => exact fun r hr => Or.inl hr
  | draw _ => exact fun r hr => Or.inl hr
  | write _ _ _ => exact fun r hr => Or.inl hr
  | relay _ _ _ _ _ _ _ _ => exact fun r hr => Or.inl hr
  | direct sender recipient now message pushed huser _ =>
    intro r hr
    rcases List.mem_append.mp hr with hold | hnew
    · exact Or.inl hold
    · rw [List.mem_singleton.mp hnew]
      exact Or.inr ⟨rfl, huser⟩

theorem dispatch_rowsFrom (env : Env) (c : ConnId) (packetType : PacketType) (body : Bytes)
    (w : World) : RowsFrom w.store (final ((dispatch env c packetType body).run w)).store := by
  have haction : ∀ s t, Action env s t → RowsFrom w.store s.store → RowsFrom w.store t.store := by
    intro s t hst hs r hr
    rcases Action.rowsFrom hst r hr with hmid | hnew
    · rcases hs r hmid with hold | ⟨hzero, huser⟩
      · exact Or.inl hold
      · exact Or.inr ⟨hzero, isSome_findUser (Action.grows hst) huser⟩
    · exact Or.inr hnew
  exact dispatch_preserves env c packetType body haction
    (fun store hquiet r hr => Or.inl (hquiet.messages ▸ hr)) (fun r hr => Or.inl hr)

/-- The row has been marked in the welcome of its recipient. -/
def MarkedBy (env : Env) (w : World) (e : Event) (r : DirectMessageRow) : Prop :=
  ∃ c packetType body l, e = .packet c packetType body ∧
    authenticatesAs env w packetType body = some l ∧ InBacklog w.store l r.id ∧
    ∃ old ∈ w.store.db.directMessages.rows, r = { old with delivered := 1 }

theorem receive_rows (env : Env) {w : World} (c : ConnId) (packetType : PacketType)
    (body : Bytes) (hlive : (w.sessions c).isSome) (hrecipients : RecipientsExist w.store) :
    ∀ r ∈ (w.receive env c packetType body).store.db.directMessages.rows,
      r ∈ w.store.db.directMessages.rows ∨
      (r.delivered = 0 ∧ ((w.receive env c packetType body).store.db.findUser r.recipient).isSome) ∨
      MarkedBy env w (.packet c packetType body) r := by
  have hdispatch := dispatch_rowsFrom env c packetType body w
  have hcases := handlePacket_handling env packetType body hlive
  unfold World.receive
  generalize (handlePacket env c packetType body).run w = result at hcases
  intro r hr
  cases hcases with
  | thrown e w₁ hrun =>
    rw [hrun] at hdispatch
    exact (hdispatch r hr).imp_right Or.inl
  | answered response w₁ hrun =>
    rw [hrun] at hdispatch
    cases response with
    | none => exact (hdispatch r hr).imp_right Or.inl
    | some _ => exact (hdispatch r hr).imp_right Or.inl
  | undelivered response l w₁ e handed hrun _ =>
    rw [hrun] at hdispatch
    exact (hdispatch r hr).imp_right Or.inl
  | welcomed response l w₁ hrun _ _ =>
    obtain ⟨hauth, hunseen⟩ := unseen_of_dispatch hrun
    have hmarked : r ∈ (withDelivered w₁.store
        ((backlog env l w₁.store).map StoredMessage.id)).db.directMessages.rows := by
      cases response with
      | none => exact hr
      | some _ => exact hr
    obtain ⟨old, hold, rfl⟩ := List.mem_map.mp hmarked
    rw [hunseen.quiet.messages] at hold
    split
    · rename_i hwaiting
      refine Or.inr (Or.inr ⟨c, packetType, body, l, rfl, hauth, ?_, old, hold, rfl⟩)
      have hrow : old.id ∈ (backlog env l w₁.store).map StoredMessage.id := by
        simpa using hwaiting
      exact inBacklog_of_quiet hunseen.quiet hrecipients ((mem_backlog_iff env).mp hrow)
    · exact Or.inl hold

theorem step_rows (env : Env) {w : World} (e : Event) (hrecipients : RecipientsExist w.store) :
    ∀ r ∈ (w.step env e).store.db.directMessages.rows,
      r ∈ w.store.db.directMessages.rows ∨
      (r.delivered = 0 ∧ ((w.step env e).store.db.findUser r.recipient).isSome) ∨
      MarkedBy env w e r := by
  have hstep := step_stepping env w e
  generalize w.step env e = w' at hstep
  cases hstep with
  | idle e => exact fun r hr => Or.inl hr
  | restart => exact fun r hr => Or.inl hr
  | connect _ => exact fun r hr => Or.inl hr
  | packet c packetType body _ hlive =>
    exact receive_rows env c packetType body hlive hrecipients
  | disconnect c _ => exact fun r hr => Or.inl hr
  | cleanTokens _ => exact fun r hr => Or.inl hr

theorem recipientsExist_step (env : Env) {w : World} (e : Event)
    (h : RecipientsExist w.store) : RecipientsExist (w.step env e).store := by
  have hgrows := step_grows env w e
  intro r hr
  rcases step_rows env e h r hr with
    hold | ⟨-, huser⟩ | ⟨c, packetType, body, l, -, -, -, old, hold, rfl⟩
  · exact isSome_findUser hgrows (h r hold)
  · exact huser
  · exact isSome_findUser hgrows (h old hold)

/-- The same message, whatever its flag. -/
structure SameMessage (r r' : DirectMessageRow) : Prop where
  id : r'.id = r.id
  sender : r'.sender = r.sender
  recipient : r'.recipient = r.recipient
  message : r'.message = r.message

def RowsKept (st st' : Store) : Prop :=
  ∀ r ∈ st.db.directMessages.rows, ∃ r' ∈ st'.db.directMessages.rows, SameMessage r r'

theorem RowsKept.of_subset {st st' : Store}
    (h : ∀ r ∈ st.db.directMessages.rows, r ∈ st'.db.directMessages.rows) : RowsKept st st' :=
  fun r hr => ⟨r, h r hr, rfl, rfl, rfl, rfl⟩

theorem RowsKept.trans {st st' st'' : Store} (h : RowsKept st st') (h' : RowsKept st' st'') :
    RowsKept st st'' := by
  intro r hr
  obtain ⟨r', hr', hsame⟩ := h r hr
  obtain ⟨r'', hr'', hsame'⟩ := h' r' hr'
  exact ⟨r'', hr'', hsame'.id.trans hsame.id, hsame'.sender.trans hsame.sender,
    hsame'.recipient.trans hsame.recipient, hsame'.message.trans hsame.message⟩

theorem Action.rows_subset {env : Env} {w w' : World} (h : Action env w w') :
    ∀ r ∈ w.store.db.directMessages.rows, r ∈ w'.store.db.directMessages.rows := by
  intro r hr
  cases h with
  | account h =>
    cases h with
    | store st hquiet =>
      rw [hquiet.messages]
      exact hr
    | token c t => exact hr
  | draw _ => exact hr
  | write _ _ _ => exact hr
  | relay _ _ _ _ _ _ _ _ => exact hr
  | direct _ _ _ _ _ _ _ => exact List.mem_append_left _ hr

theorem dispatch_rowsKept (env : Env) (c : ConnId) (packetType : PacketType) (body : Bytes)
    (w : World) : RowsKept w.store (final ((dispatch env c packetType body).run w)).store := by
  have haction : ∀ s t, Action env s t → RowsKept w.store s.store → RowsKept w.store t.store :=
    fun s t hst hs => hs.trans (.of_subset (Action.rows_subset hst))
  exact dispatch_preserves env c packetType body haction
    (fun store hquiet => .of_subset fun _ hr => hquiet.messages.symm ▸ hr)
    (.of_subset fun _ hr => hr)

theorem rowsKept_withDelivered (st : Store) (ids : List ℤ) :
    RowsKept st (withDelivered st ids) := by
  intro r hr
  refine ⟨_, List.mem_map_of_mem hr, ?_⟩
  split <;> exact ⟨rfl, rfl, rfl, rfl⟩

theorem step_rowsKept (env : Env) (w : World) (e : Event) :
    RowsKept w.store (w.step env e).store := by
  have hstep := step_stepping env w e
  generalize w.step env e = w' at hstep
  cases hstep with
  | idle e => exact .of_subset fun _ hr => hr
  | restart => exact .of_subset fun _ hr => hr
  | connect _ => exact .of_subset fun _ hr => hr
  | disconnect c _ => exact .of_subset fun _ hr => hr
  | cleanTokens _ => exact .of_subset fun _ hr => hr
  | packet c packetType body _ hlive =>
    refine receive_preserves (P := fun w' : World => RowsKept w.store w'.store) env hlive
      (fun _ _ _ h => h) (fun w₁ l h => h.trans (rowsKept_withDelivered _ _)) ?_ (fun _ h => h)
      (dispatch_rowsKept env c packetType body w)
    intro w₁ r h
    cases r <;> exact h

theorem Action.keepsSent {env : Env} {w w' : World} (h : Action env w w') :
    w.sent <+: w'.sent := by
  cases h with
  | account h =>
    cases h with
    | store _ _ => exact List.prefix_rfl
    | token _ _ => exact List.prefix_rfl
  | draw _ => exact List.prefix_rfl
  | write _ _ _ => exact List.prefix_rfl
  | relay _ _ _ _ _ _ _ _ => exact List.prefix_append _ _
  | direct _ _ _ _ _ _ _ => exact List.prefix_append _ _

theorem dispatch_keepsSent (env : Env) (c : ConnId) (packetType : PacketType) (body : Bytes)
    (w : World) : w.sent <+: (final ((dispatch env c packetType body).run w)).sent := by
  have haction : ∀ s t, Action env s t → w.sent <+: s.sent → w.sent <+: t.sent :=
    fun s t hst hs => hs.trans (Action.keepsSent hst)
  exact dispatch_preserves env c packetType body haction (fun _ _ => List.prefix_rfl)
    List.prefix_rfl

theorem withAnswer_keepsSent (w : World) (c : ConnId) (packetType : PacketType)
    (r : Option Response) : w.sent <+: (withAnswer w c packetType r).sent := by
  cases r with
  | none => exact List.prefix_rfl
  | some r => exact List.prefix_append _ _

theorem step_keepsSent (env : Env) (w : World) (e : Event) :
    w.sent <+: (w.step env e).sent := by
  have hstep := step_stepping env w e
  generalize w.step env e = w' at hstep
  cases hstep with
  | idle e => exact List.prefix_rfl
  | restart => exact List.prefix_rfl
  | connect _ => exact List.prefix_rfl
  | disconnect c _ => exact List.prefix_rfl
  | cleanTokens _ => exact List.prefix_rfl
  | packet c packetType body _ hlive =>
    exact receive_preserves (P := fun w' : World => w.sent <+: w'.sent) env hlive
      (fun _ _ _ h => h.trans (List.prefix_append _ _))
      (fun _ _ h => h.trans (List.prefix_append _ _))
      (fun w₁ r h => h.trans (withAnswer_keepsSent w₁ c packetType r)) (fun _ h => h)
      (dispatch_keepsSent env c packetType body w)

theorem run_keepsSent (env : Env) (w : World) (events : List Event) :
    w.sent <+: (LabelledRuns.run (World.step env) w events).sent :=
  LabelledRuns.invariant (P := fun w' : World => w.sent <+: w'.sent)
    (fun w' e h => h.trans (step_keepsSent env w' e)) List.prefix_rfl events

end Messenger.MessageRows
