import Messenger.MessageRows

/-!
How often a stored message is handed to send_packet. A message is pushed when it is
stored, and handed over with the backlog at each authentication of its recipient until it
is marked; a push does not mark it. So no message is handed over twice exactly as long as
nobody logs in with a backlog in which a message has been handed over before.
-/
namespace Messenger.Deliveries

open KeyedTables Outcomes ClientSession UserRepository MessageRepository HandlerActions
  HandlePacket ServerSteps MessageRows

/-- The stored message that a packet carries. -/
def handedRow : Cause → Option ℤ
  | .push _ row | .pending row => some row
  | _ => none

def handedRows (sent : List Sent) : List ℤ := sent.filterMap (fun s => handedRow s.cause)

@[simp] theorem handedRows_append (sent new : List Sent) :
    handedRows (sent ++ new) = handedRows sent ++ handedRows new :=
  List.filterMap_append

theorem handedRows_backlog (st : Store) (self : ConnId) (asLogin : Bytes)
    (messages : List StoredMessage) :
    handedRows (messages.map (backlogPacket st self asLogin)) = messages.map StoredMessage.id := by
  unfold handedRows
  rw [List.filterMap_map]
  exact congrFun List.filterMap_eq_map messages

/-- Each stored message has gone out at most once, counting every DIRECT_MESSAGE packet. -/
structure HandedOnce (w : World) : Prop where
  direct : ∀ s ∈ w.sent, s.packetType = .directMessage → (handedRow s.cause).isSome
  once : (handedRows w.sent).Nodup

/-- Nobody logs in with a message waiting that has been handed over before. -/
def FreshBacklog (env : Env) (w : World) : Event → Prop
  | .packet _ packetType body => ∀ l ∈ authenticatesAs env w packetType body,
      ∀ row ∈ (backlog env l w.store).map StoredMessage.id, row ∉ handedRows w.sent
  | _ => True

instance (env : Env) (w : World) : ∀ e, Decidable (FreshBacklog env w e)
  | .packet _ packetType body =>
    inferInstanceAs (Decidable (∀ l ∈ authenticatesAs env w packetType body,
      ∀ row ∈ (backlog env l w.store).map StoredMessage.id, row ∉ handedRows w.sent))
  | .connect => inferInstanceAs (Decidable True)
  | .disconnect _ => inferInstanceAs (Decidable True)
  | .cleanTokens => inferInstanceAs (Decidable True)
  | .restart => inferInstanceAs (Decidable True)

/-- The invariant: what was handed over bears the id of a row. -/
structure Counted (w : World) : Prop extends HandedOnce w where
  bounded : ∀ row ∈ handedRows w.sent, row ≤ w.store.db.directMessages.seq

/-- Packets that carry no message leave the count alone. -/
theorem Counted.append {w w' : World} (h : Counted w) {new : List Sent}
    (hsent : w'.sent = w.sent ++ new) (hstore : w'.store = w.store)
    (hnew : ∀ s ∈ new, s.packetType ≠ .directMessage ∧ handedRow s.cause = none) :
    Counted w' := by
  have hnone : handedRows new = [] :=
    List.filterMap_eq_nil_iff.mpr (fun s hs => (hnew s hs).2)
  have hrows : handedRows w'.sent = handedRows w.sent := by
    rw [hsent, handedRows_append, hnone, List.append_nil]
  refine ⟨⟨?_, hrows ▸ h.once⟩, ?_⟩
  · intro s hs htype
    rw [hsent] at hs
    rcases List.mem_append.mp hs with hold | hmem
    · exact h.direct s hold htype
    · exact absurd htype (hnew s hmem).1
  · rw [hrows, hstore]
    exact h.bounded

theorem Counted.same {w w' : World} (h : Counted w) (hstore : w'.store = w.store)
    (hsent : w'.sent = w.sent) : Counted w' := by
  have hnothing : w'.sent = w.sent ++ [] := by rw [hsent, List.append_nil]
  exact h.append hnothing hstore (fun s hs => absurd hs List.not_mem_nil)

theorem Counted.quiet {env : Env} {w w' : World} (h : Counted w)
    (hquiet : Quiet env w.store w'.store) (hsent : w'.sent = w.sent) : Counted w' := by
  refine ⟨⟨hsent ▸ h.direct, hsent ▸ h.once⟩, ?_⟩
  rw [hsent, hquiet.messages]
  exact h.bounded

/-- A message that is stored and pushed at once bears a new id. -/
theorem Counted.direct_action {w : World} (h : Counted w) {sender recipient now : ℤ}
    {message : Bytes} {pushed : List Sent} (hpush : Pushes w recipient pushed) :
    Counted
      { w with
        store := withMessage w.store sender recipient now message
        sent := w.sent ++ pushed } := by
  have hpushed : (∀ s ∈ pushed, (handedRow s.cause).isSome) ∧
      (handedRows pushed = [] ∨ handedRows pushed = [w.store.db.directMessages.seq + 1]) := by
    rcases hpush with rfl | ⟨login, conn, msg, -, -, rfl⟩
    · exact ⟨fun s hs => absurd hs List.not_mem_nil, Or.inl rfl⟩
    · refine ⟨fun s hs => ?_, Or.inr rfl⟩
      rw [List.mem_singleton] at hs
      subst s
      rfl
  refine ⟨⟨?_, ?_⟩, ?_⟩
  · intro s hs htype
    rcases List.mem_append.mp hs with hold | hnew
    · exact h.direct s hold htype
    · exact hpushed.1 s hnew
  · rw [handedRows_append]
    refine List.nodup_append.mpr ⟨h.once, ?_, ?_⟩
    · rcases hpushed.2 with hnil | hone
      · rw [hnil]
        exact List.nodup_nil
      · rw [hone]
        exact List.nodup_singleton _
    · intro a ha b hb hab
      have hle := h.bounded a ha
      rcases hpushed.2 with hnil | hone
      · rw [hnil] at hb
        cases hb
      · rw [hone, List.mem_singleton] at hb
        omega
  · intro row hrow
    rw [handedRows_append] at hrow
    change row ≤ w.store.db.directMessages.seq + 1
    rcases List.mem_append.mp hrow with hold | hnew
    · have hle := h.bounded row hold
      omega
    · rcases hpushed.2 with hnil | hone
      · rw [hnil] at hnew
        cases hnew
      · rw [hone, List.mem_singleton] at hnew
        exact hnew.le

theorem Action.counted {env : Env} {w w' : World} (haction : Action env w w') (h : Counted w) :
    Counted w' := by
  cases haction with
  | account haccount =>
    cases haccount with
    | store st hquiet => exact h.quiet hquiet rfl
    | token c t => exact h.same rfl rfl
  | draw n => exact h.same rfl rfl
  | write files status _ => exact h.same rfl rfl
  | relay login conn packetType body cause _ hcause hrelays =>
    refine h.append rfl rfl ?_
    intro s hs
    rw [List.mem_singleton] at hs
    subst s
    refine ⟨hrelays.ne.2, ?_⟩
    rcases hcause with rfl | rfl <;> rfl
  | direct sender recipient now message pushed _ hpush => exact h.direct_action hpush

theorem dispatch_counted (env : Env) (c : ConnId) (packetType : PacketType) (body : Bytes)
    {w : World} (h : Counted w) : Counted (final ((dispatch env c packetType body).run w)) := by
  have haction : ∀ s t, Action env s t → Counted s → Counted t :=
    fun s t hst hs => Action.counted hst hs
  exact dispatch_preserves env c packetType body haction
    (fun store hquiet => h.quiet hquiet rfl) h

theorem Counted.answer {w : World} (h : Counted w) (c : ConnId) (packetType : PacketType)
    (r : Option Response) : Counted (withAnswer w c packetType r) := by
  cases r with
  | none => exact h
  | some r =>
    refine h.append rfl rfl ?_
    intro s hs
    rw [List.mem_singleton] at hs
    subst s
    exact ⟨nofun, rfl⟩

/-- Messages of a backlog that is fresh can be handed over, all or some of them. -/
theorem Counted.hand {w : World} (h : Counted w) (c : ConnId)
    {messages : List StoredMessage} (hnodup : (messages.map StoredMessage.id).Nodup)
    (hfresh : ∀ row ∈ messages.map StoredMessage.id, row ∉ handedRows w.sent)
    (hrows : ∀ row ∈ messages.map StoredMessage.id, row ≤ w.store.db.directMessages.seq) :
    Counted (withHanded w c messages) := by
  have hhanded : handedRows (withHanded w c messages).sent =
      handedRows w.sent ++ messages.map StoredMessage.id := by
    rw [withHanded, handedRows_append, handedRows_backlog]
  refine ⟨⟨?_, ?_⟩, ?_⟩
  · intro s hs htype
    rcases List.mem_append.mp hs with hold | hnew
    · exact h.direct s hold htype
    · obtain ⟨el, -, rfl⟩ := List.mem_map.mp hnew
      rfl
  · rw [hhanded]
    refine List.nodup_append.mpr ⟨h.once, hnodup, ?_⟩
    rintro a ha b hb rfl
    exact hfresh a hb ha
  · intro row hrow
    rw [hhanded] at hrow
    rcases List.mem_append.mp hrow with hold | hnew
    · exact h.bounded row hold
    · exact hrows row hnew

theorem Counted.mark {w : World} (h : Counted w) (ids : List ℤ) :
    Counted { w with store := withDelivered w.store ids } :=
  ⟨⟨h.direct, h.once⟩, h.bounded⟩

theorem counted_receive (env : Env) {w : World} (c : ConnId) (packetType : PacketType)
    (body : Bytes) (h : Counted w) (hrecipients : RecipientsExist w.store)
    (hlive : (w.sessions c).isSome)
    (hfresh : FreshBacklog env w (.packet c packetType body)) :
    Counted (w.receive env c packetType body) := by
  have hdispatch := dispatch_counted env c packetType body h
  -- what a successful authentication finds waiting was waiting before and is fresh
  have hbacklog : ∀ (r : Option Response) (l : Bytes) (w₁ : World),
      (dispatch env c packetType body).run w = .ok (r, some l) w₁ →
      ∀ messages, messages <+: backlog env l w₁.store →
        Counted (withHanded (withLogin w₁ c l) c messages) := by
    intro r l w₁ hrun messages hpre
    rw [hrun] at hdispatch
    obtain ⟨hauth, hunseen⟩ := unseen_of_dispatch hrun
    have hset : Counted (withLogin w₁ c l) := hdispatch.same rfl rfl
    have hwaiting : ∀ row ∈ messages.map StoredMessage.id, InBacklog w₁.store l row := by
      intro row hrow
      exact (mem_backlog_iff env).mp ((hpre.map StoredMessage.id).subset hrow)
    refine hset.hand c ((hpre.map _).sublist.nodup (backlog_nodup env l w₁.store)) ?_ ?_
    · intro row hrow
      have hold := inBacklog_of_quiet hunseen.quiet hrecipients (hwaiting row hrow)
      have hnot := hfresh l hauth row ((mem_backlog_iff env).mpr hold)
      change row ∉ handedRows w₁.sent
      rw [hunseen.sent]
      exact hnot
    · intro row hrow
      obtain ⟨u, -, r, hr, rfl, -⟩ := hwaiting row hrow
      exact w₁.store.db.directMessages.bounded r hr
  have hcases := handlePacket_handling env packetType body hlive
  unfold World.receive
  generalize (handlePacket env c packetType body).run w = result at hcases
  cases hcases with
  | thrown e w₁ hrun =>
    rw [hrun] at hdispatch
    exact hdispatch.same rfl rfl
  | answered r w₁ hrun =>
    rw [hrun] at hdispatch
    exact Counted.answer hdispatch c packetType r
  | undelivered r l w₁ e handed hrun hpre =>
    exact (hbacklog r l w₁ hrun handed hpre).same rfl rfl
  | welcomed r l w₁ hrun _ _ =>
    have hhanded := hbacklog r l w₁ hrun _ List.prefix_rfl
    have hwelcome : Counted (welcomed env w₁ c l) :=
      (hhanded.mark _).same rfl rfl
    exact hwelcome.answer c packetType r

theorem counted_step (env : Env) {w : World} (e : Event) (h : Counted w)
    (hrecipients : RecipientsExist w.store) (hfresh : FreshBacklog env w e) :
    Counted (w.step env e) := by
  have hstep := step_stepping env w e
  generalize w.step env e = w' at hstep
  cases hstep with
  | idle e => exact h
  | restart => exact h.quiet (cleanExpiredTokens_quiet env w.store) rfl
  | connect _ => exact h.same rfl rfl
  | packet c packetType body _ hlive =>
    exact counted_receive env c packetType body h hrecipients hlive hfresh
  | disconnect c _ => exact h.same rfl rfl
  | cleanTokens _ => exact h.quiet (cleanExpiredTokens_quiet env w.store) rfl

/-- In every run in which nobody logs in with a message waiting that has been handed over
before, each message is handed over at most once. -/
theorem handedOnce_run (env : Env) (files : ℕ → Option Bytes) (events : List Event)
    (hfresh : LabelledRuns.Along (World.step env) (FreshBacklog env) (World.initial env files)
      events) :
    HandedOnce (LabelledRuns.run (World.step env) (World.initial env files) events) := by
  have hstep : ∀ w e, Counted w ∧ RecipientsExist w.store → FreshBacklog env w e →
      Counted (w.step env e) ∧ RecipientsExist (w.step env e).store :=
    fun w e h hf => ⟨counted_step env e h.1 h.2 hf, recipientsExist_step env e h.2⟩
  have hinit : Counted (World.initial env files) :=
    ⟨⟨fun s hs => absurd hs List.not_mem_nil, List.nodup_nil⟩,
      fun row hrow => absurd hrow List.not_mem_nil⟩
  exact (LabelledRuns.invariant_along hstep ⟨hinit, fun r hr => absurd hr List.not_mem_nil⟩
    hfresh).1.toHandedOnce

/-- A message stored for a user who is away goes out with the backlog, once. -/
theorem handedOnce_run_away :
    HandedOnce (LabelledRuns.run (World.step Env.plain) (World.initial Env.plain fun _ => none)
      (twoFriends ++ [.disconnect 0, messageEvent, .connect, loginEvent 2 [97],
        loginEvent 2 [97]])) :=
  handedOnce_run Env.plain (fun _ => none) _ (by decide)

/-- Not so in every run: a message pushed to a user who is there is handed
over again when that user logs in again. -/
theorem pushed_message_handed_again :
    ∃ w, World.Reachable Env.plain w ∧ handedRows w.sent = [1, 1] ∧ ¬ HandedOnce w := by
  refine ⟨LabelledRuns.run (World.step Env.plain) (World.initial Env.plain fun _ => none)
    (twoFriends ++ [messageEvent, loginEvent 0 [97]]), ⟨_, _, rfl⟩, by decide, ?_⟩
  intro h
  exact absurd h.once (by decide)

end Messenger.Deliveries
