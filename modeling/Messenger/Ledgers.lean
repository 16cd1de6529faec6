import Messenger.Reports

/-!
The table of messages as a ledger. Its rows are, one for one and in order, the direct
messages that were answered OK since the first start: none is lost, doubled, made up or
changed, whatever crashes, restarts and packets that end the server come in between. The ids
count the messages from 1.
-/
namespace Messenger.Ledgers

open KeyedTables Outcomes ClientSession UserRepository MessageRepository HandlePacket ServerSteps
  MessageRows TokenIdentity TokenRequests TableSteps Reports

/-- A DIRECT_MESSAGE, with all that happened before it came. -/
structure Entry where
  before : List Event
  conn : ConnId
  body : Bytes
deriving DecidableEq, Repr

def Entry.event (entry : Entry) : Event := .packet entry.conn .directMessage entry.body

/-- It came to a live session in the course of `events`, and was answered OK. -/
structure Entry.Accepted (env : Env) (w₀ : World) (events : List Event) (entry : Entry) :
    Prop where
  point : entry.before ++ [entry.event] <+: events
  running : (LabelledRuns.run (World.step env) w₀ entry.before).status = .running
  live : ((LabelledRuns.run (World.step env) w₀ entry.before).sessions entry.conn).isSome
  answered : AnsweredWith env (LabelledRuns.run (World.step env) w₀ entry.before) entry.conn
    .directMessage entry.body (.directMessage ⟨Error.Base.ok⟩)

/-- The row says what the message said: by whom it was sent, to whom, what and when. -/
def Records (env : Env) (w₀ : World) (row : DirectMessageRow) (entry : Entry) : Prop :=
  ∃ req login, deserialize DirectMessageRequest entry.body = .ok req ∧
    tokenLogin env req.token (LabelledRuns.run (World.step env) w₀ entry.before).store =
      some login ∧
    getIdByLogin login (LabelledRuns.run (World.step env) w₀ entry.before).store =
      .ok row.sender ∧
    getIdByLogin req.recipientLogin (LabelledRuns.run (World.step env) w₀ entry.before).store =
      .ok row.recipient ∧
    row.message = req.message ∧
    row.createAt = env.clock
      ((LabelledRuns.run (World.step env) w₀ entry.before).store.clockReads + 1)

structure Ledger (env : Env) (w₀ : World) (events : List Event) (st : Store)
    (entries : List Entry) : Prop where
  accepted : ∀ entry, entry ∈ entries ↔ entry.Accepted env w₀ events
  order : entries.Pairwise fun entry later => entry.before ++ [entry.event] <+: later.before
  rows : List.Forall₂ (Records env w₀) st.db.directMessages.rows entries
  ids : st.db.directMessages.rows.map DirectMessageRow.id =
    (List.range entries.length).map fun n : ℕ => (n : ℤ) + 1
  seq : st.db.directMessages.seq = entries.length
  flags : ∀ row ∈ st.db.directMessages.rows, row.delivered = 0 ∨ row.delivered = 1

section

variable {env : Env} {w₀ : World} {events : List Event} {entries : List Entry}

/-- An entry of a longer run is one of the run before, or the last event is its own. -/
theorem accepted_append {e : Event} {entry : Entry}
    (h : entry.Accepted env w₀ (events ++ [e])) :
    entry.Accepted env w₀ events ∨ (entry.before = events ∧ entry.event = e) := by
  rcases List.prefix_concat_iff.mp h.point with hlast | hearlier
  · obtain ⟨hbefore, hevent⟩ := List.append_inj' hlast rfl
    exact Or.inr ⟨hbefore, List.singleton_inj.mp hevent⟩
  · exact Or.inl ⟨hearlier, h.running, h.live, h.answered⟩

theorem Entry.Accepted.append {entry : Entry} (h : entry.Accepted env w₀ events) (e : Event) :
    entry.Accepted env w₀ (events ++ [e]) :=
  ⟨h.point.trans (List.prefix_append _ _), h.running, h.live, h.answered⟩

/-- A step that ends with an answer has answered its packet. -/
theorem answeredWith_of_step {w w₁ : World} {c : ConnId} {packetType : PacketType} {body : Bytes}
    {r : Response} (hrunning : w.status = .running) (hlive : (w.sessions c).isSome)
    (h : w.step env (.packet c packetType body) = withAnswer w₁ c packetType (some r))
    (hup : w₁.status ≠ .terminated) (hsent : ∃ before, w₁.sent = w.sent ++ before) :
    AnsweredWith env w c packetType body r := by
  obtain ⟨before, hbefore⟩ := hsent
  simp only [World.step, hrunning, hlive, and_self, if_true, World.receive] at h
  cases hrun : (handlePacket env c packetType body).run w with
  | error e w' =>
    rw [hrun] at h
    exact absurd (congrArg World.status h).symm hup
  | ok u w' =>
    rw [hrun] at h
    have hend : w' = withAnswer w₁ c packetType (some r) := h
    refine ⟨w', before, hrun, ?_⟩
    rw [hend, ← hbefore]
    rfl

/-- A message that is answered OK has one more row. -/
theorem rows_of_accepted {w : World} {c : ConnId} {body : Bytes} (hrunning : w.status = .running)
    (hlive : (w.sessions c).isSome)
    (h : AnsweredWith env w c .directMessage body (.directMessage ⟨Error.Base.ok⟩)) :
    (w.step env (.packet c .directMessage body)).store.db.directMessages.rows.length =
      w.store.db.directMessages.rows.length + 1 := by
  obtain ⟨req, login, sender, recipient, -, -, hrun⟩ := accepted_run hlive h
  rw [step_of_handled hrunning hlive hrun, withAnswer_store]
  exact List.length_append

/-- A step after which there are as many rows has accepted nothing. -/
theorem accepted_iff_of_length {e : Event}
    (hlength : ((LabelledRuns.run (World.step env) w₀ events).step env e
      ).store.db.directMessages.rows.length =
      (LabelledRuns.run (World.step env) w₀ events).store.db.directMessages.rows.length)
    (entry : Entry) :
    entry.Accepted env w₀ (events ++ [e]) ↔ entry.Accepted env w₀ events := by
  refine ⟨fun h => ?_, fun h => h.append e⟩
  rcases accepted_append h with hearlier | ⟨hbefore, hevent⟩
  · exact hearlier
  · have hrunning := h.running
    have hlive := h.live
    have hanswered := h.answered
    rw [hbefore] at hrunning hlive hanswered
    have hmore := rows_of_accepted hrunning hlive hanswered
    rw [← hevent] at hlength
    exact absurd (hmore.symm.trans hlength) (Nat.succ_ne_self _)

theorem records_congr {row row' : DirectMessageRow} (hmessage : SameMessage row row')
    (htime : row'.createAt = row.createAt) {entry : Entry} (h : Records env w₀ row entry) :
    Records env w₀ row' entry := by
  obtain ⟨req, login, hreq, hlogin, hsender, hrecipient, htext, hwhen⟩ := h
  refine ⟨req, login, hreq, hlogin, ?_, ?_, ?_, htime.trans hwhen⟩
  · rw [hmessage.sender]
    exact hsender
  · rw [hmessage.recipient]
    exact hrecipient
  · rw [hmessage.message]
    exact htext

/-- The flags change at most. -/
theorem Ledger.kept {e : Event} {st st' : Store} (h : Ledger env w₀ events st entries)
    (haccepted : ∀ entry : Entry,
      entry.Accepted env w₀ (events ++ [e]) ↔ entry.Accepted env w₀ events)
    {ids : List ℤ}
    (hmessages : st'.db.directMessages = (withDelivered st ids).db.directMessages) :
    Ledger env w₀ (events ++ [e]) st' entries where
  accepted entry := (h.accepted entry).trans (haccepted entry).symm
  order := h.order
  rows := by
    rw [hmessages]
    change List.Forall₂ _ (List.map _ _) entries
    rw [List.forall₂_map_left_iff]
    refine h.rows.imp fun row entry hrow => records_congr ?_ ?_ hrow
    · split <;> exact ⟨rfl, rfl, rfl, rfl⟩
    · split <;> rfl
  ids := by
    rw [hmessages, ← h.ids]
    change (List.map _ (List.map _ _)) = _
    rw [List.map_map]
    refine List.map_congr_left fun row _ => ?_
    simp only [Function.comp_apply]
    split <;> rfl
  seq := by
    rw [hmessages]
    exact h.seq
  flags := by
    rw [hmessages]
    intro row hrow
    obtain ⟨old, hold, rfl⟩ := List.mem_map.mp hrow
    split
    · exact Or.inr rfl
    · exact h.flags old hold

/-- One more message is taken in. -/
theorem Ledger.stored {entry : Entry} {st st' : Store} (h : Ledger env w₀ events st entries)
    (haccepted : entry.Accepted env w₀ (events ++ [entry.event])) (hbefore : entry.before = events)
    {row : DirectMessageRow}
    (hrows : st'.db.directMessages.rows = st.db.directMessages.rows ++ [row])
    (hseq : st'.db.directMessages.seq = st.db.directMessages.seq + 1)
    (hid : row.id = st.db.directMessages.seq + 1) (hflag : row.delivered = 0)
    (hrecords : Records env w₀ row entry) :
    Ledger env w₀ (events ++ [entry.event]) st' (entries ++ [entry]) where
  accepted other := by
    rw [List.mem_append, List.mem_singleton, h.accepted]
    constructor
    · rintro (hold | rfl)
      · exact hold.append _
      · exact haccepted
    · intro hother
      rcases accepted_append hother with hold | ⟨hsame, hevent⟩
      · exact Or.inl hold
      · refine Or.inr ?_
        obtain ⟨before, conn, body⟩ := other
        obtain ⟨before', conn', body'⟩ := entry
        cases hsame.trans hbefore.symm
        simp only [Entry.event, Event.packet.injEq, true_and] at hevent
        rw [hevent.1, hevent.2]
  order := by
    refine List.pairwise_append.mpr ⟨h.order, List.pairwise_singleton _ _, ?_⟩
    intro other hother later hlater
    rw [List.mem_singleton.mp hlater, hbefore]
    exact ((h.accepted other).mp hother).point
  rows := by
    rw [hrows]
    exact List.rel_append h.rows (.cons hrecords .nil)
  ids := by
    rw [hrows, List.map_append, h.ids, List.length_append, List.length_singleton,
      List.range_succ, List.map_append, List.map_singleton, List.map_singleton, hid, h.seq]
  seq := by
    rw [hseq, h.seq, List.length_append, List.length_singleton]
    rfl
  flags := by
    rw [hrows]
    exact List.forall_mem_append.mpr ⟨h.flags, List.forall_mem_singleton.mpr (Or.inl hflag)⟩

theorem Ledger.step (e : Event)
    (hsound : Sound env (LabelledRuns.run (World.step env) w₀ events).store)
    (h : Ledger env w₀ events (LabelledRuns.run (World.step env) w₀ events).store entries) :
    ∃ entries', Ledger env w₀ (events ++ [e])
      (LabelledRuns.run (World.step env) w₀ (events ++ [e])).store entries' := by
  rw [LabelledRuns.run_append, LabelledRuns.run_cons, LabelledRuns.run_nil]
  have hstep := step_tableStep env e hsound.normalised
  have hlength := @accepted_iff_of_length env w₀ events e
  generalize hw : LabelledRuns.run (World.step env) w₀ events = w at hstep hlength hsound h ⊢
  generalize hw' : w.step env e = w' at hstep hlength ⊢
  cases hstep with
  | kept e w' ids _ hmessages =>
    refine ⟨entries, h.kept (hlength ?_) hmessages⟩
    rw [hmessages]
    exact List.length_map _
  | befriended c packetType body x y call w' _ _ _ _ _ hmessages _ =>
    have hsame : w'.store.db.directMessages = (withDelivered w.store []).db.directMessages := by
      rw [hmessages, withDelivered_nil]
    exact ⟨entries, h.kept (hlength (by rw [hmessages])) hsame⟩
  | stored c body req login sender recipient hrunning hlive hreq hlogin hplan =>
    obtain ⟨hsender, hrecipient, -⟩ := directMessagePlan_ok hplan
    have hanswered : AnsweredWith env w c .directMessage body (.directMessage ⟨Error.Base.ok⟩) :=
      answeredWith_of_step hrunning hlive hw' (by rw [withDirectMessage, hrunning]; decide)
        ⟨_, rfl⟩
    have haccepted : Entry.Accepted env w₀ (events ++ [(Entry.mk events c body).event])
        ⟨events, c, body⟩ := by
      refine ⟨List.prefix_refl _, ?_, ?_, ?_⟩ <;> rw [hw] <;> assumption
    rw [withAnswer_store]
    generalize hst : (withDirectMessage env { w with store := ticked w.store } req.recipientLogin
      login req.message sender recipient).store = st'
    have hrows : st'.db.directMessages.rows = w.store.db.directMessages.rows ++
        [⟨w.store.db.directMessages.seq + 1, sender, recipient,
          env.clock (w.store.clockReads + 1), req.message, 0⟩] := by
      rw [← hst]
      rfl
    have hseq : st'.db.directMessages.seq = w.store.db.directMessages.seq + 1 := by
      rw [← hst]
      rfl
    refine ⟨_, h.stored haccepted rfl hrows hseq rfl rfl ?_⟩
    refine ⟨req, login, hreq, ?_, ?_, ?_, rfl, ?_⟩ <;> rw [hw]
    · exact hlogin
    · exact hsender
    · exact hrecipient

theorem ledger_new (env : Env) (files : ℕ → Option Bytes) :
    Ledger env (World.initial env files) [] (World.initial env files).store [] where
  accepted entry := by
    refine iff_of_false List.not_mem_nil fun h => ?_
    have hempty := List.prefix_nil.mp h.point
    exact List.append_ne_nil_of_right_ne_nil _ (List.cons_ne_nil _ _) hempty
  order := .nil
  rows := .nil
  ids := rfl
  seq := rfl
  flags := fun _ h => absurd h List.not_mem_nil

end

/-- After every run the rows are the accepted messages, in the order in which they were
accepted; the run counts up to where the files of the database are overwritten, if they are. -/
theorem ledger_run (env : Env) (files : ℕ → Option Bytes) (events : List Event) :
    ∃ entries, Ledger env (World.initial env files) events
      (LabelledRuns.run (World.step env) (World.initial env files) events).store entries := by
  induction events using List.reverseRecOn with
  | nil => exact ⟨[], ledger_new env files⟩
  | append_singleton events e ih =>
    obtain ⟨entries, h⟩ := ih
    exact h.step e (sound_reachable ⟨files, events, rfl⟩)

end Messenger.Ledgers
