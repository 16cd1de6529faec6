import Messenger.TableSteps

/-!
Messages need the consent of both. A pair is pending because one of the two asked and was
answered OK, and accepted because the other one accepted after that; no later operation
takes an accepted pair out of that state. Messages are stored for accepted pairs only.
-/
namespace Messenger.Consents

open KeyedTables Outcomes ClientSession UserRepository MessageRepository FriendStates
  HandlePacket ServerSteps TokenIdentity TokenRequests TableSteps LabelledRuns

/-- A request about friends that is answered OK, made for `x` and naming `y`. -/
def AnsweredFriend (env : Env) (packetType : PacketType) (x y : ℤ) (w : World) (e : Event) :
    Prop :=
  ∃ c body, e = .packet c packetType body ∧ w.status = .running ∧ (w.sessions c).isSome ∧
    Befriends env w body x y ∧ AnsweredWith env w c packetType body (.friend ⟨Error.Base.ok⟩)

/-- `x` has asked `y`, and afterwards `y` has accepted `x`. -/
def AskedAndAccepted (env : Env) (start : World) (events : List Event) (x y : ℤ) : Prop :=
  OccurredInOrder (World.step env) (AnsweredFriend env .friendRequest x y)
    (AnsweredFriend env .friendAccept y x) start events

/-- The state of each pair has its history in the run. -/
structure Founded (env : Env) (start : World) (events : List Event) (m : FriendMap ℤ) : Prop where
  pending : ∀ x y, m s(x, y) = .pending x →
    Occurred (World.step env) (AnsweredFriend env .friendRequest x y) start events
  accepted : ∀ x y, m s(x, y) = .accepted →
    AskedAndAccepted env start events x y ∨ AskedAndAccepted env start events y x

theorem Founded.append {env : Env} {start : World} {events : List Event} {m : FriendMap ℤ}
    (h : Founded env start events m) (later : List Event) :
    Founded env start (events ++ later) m where
  pending := fun x y hm => (h.pending x y hm).append later
  accepted := fun x y hm => (h.accepted x y hm).imp (fun h => h.append later)
    (fun h => h.append later)

/-- A command that was carried out was enabled, and sets its pair. -/
theorem CarriesOut.update {c : Command ℤ} {st st' : Store}
    (h : CarriesOut c st Error.Base.ok st') :
    c.Enabled (friendMap st.db.friendships.rows) ∧
      friendMap st'.db.friendships.rows =
        Function.update (friendMap st.db.friendships.rows) c.pair c.next := by
  have henabled := h.verdict.mp rfl
  exact ⟨henabled, by rw [h.map, Command.exec, if_pos henabled]⟩

/-- The state of one pair may be set to what has a history of its own. -/
theorem Founded.update {env : Env} {start : World} {events : List Event} {m : FriendMap ℤ}
    (h : Founded env start events m) {x y : ℤ} {state : FriendState ℤ}
    (hpending : ∀ asker, state = .pending asker → asker = x ∧
      Occurred (World.step env) (AnsweredFriend env .friendRequest x y) start events)
    (haccepted : state = .accepted → AskedAndAccepted env start events x y ∨
      AskedAndAccepted env start events y x) :
    Founded env start events (Function.update m s(x, y) state) := by
  constructor
  · intro x' y' hm
    by_cases hpair : s(x', y') = s(x, y)
    · rw [hpair, Function.update_self] at hm
      obtain ⟨rfl, hasked⟩ := hpending x' hm
      obtain rfl : y' = y := Sym2.congr_right.mp hpair
      exact hasked
    · rw [Function.update_of_ne hpair] at hm
      exact h.pending x' y' hm
  · intro x' y' hm
    by_cases hpair : s(x', y') = s(x, y)
    · rw [hpair, Function.update_self] at hm
      rcases Sym2.eq_iff.mp hpair with ⟨rfl, rfl⟩ | ⟨rfl, rfl⟩
      · exact haccepted hm
      · exact (haccepted hm).symm
    · rw [Function.update_of_ne hpair] at hm
      exact h.accepted x' y' hm

/-- One answered request about friends carries the history on. -/
theorem founded_befriended {env : Env} {start : World} {events : List Event} {e : Event}
    {packetType : PacketType} {x y : ℤ} {call : ℤ → ℤ → FriendCall} {st' : Store}
    (h : Founded env start events
      (friendMap (run (World.step env) start events).store.db.friendships.rows))
    (hcall : friendCall packetType = some call)
    (hcarries : CarriesOut (call x y).command (run (World.step env) start events).store
      Error.Base.ok st')
    (hlast : AnsweredFriend env packetType x y (run (World.step env) start events) e) :
    Founded env start (events ++ [e]) (friendMap st'.db.friendships.rows) := by
  obtain ⟨⟨-, hrequired⟩, hmap⟩ := CarriesOut.update hcarries
  have hold := h.append [e]
  rw [hmap]
  cases packetType with
  | friendRequest =>
    cases hcall
    refine hold.update ?_ nofun
    intro asker hset
    exact ⟨(FriendState.pending.inj hset).symm, occurred_last hlast⟩
  | friendAccept =>
    cases hcall
    have hasked : Occurred (World.step env) (AnsweredFriend env .friendRequest y x) start
        events := by
      refine h.pending y x ?_
      rw [Sym2.eq_swap]
      exact hrequired
    exact hold.update nofun fun _ => Or.inr (hasked.then_last hlast)
  | friendReject =>
    cases hcall
    exact hold.update nofun nofun
  | _ => cases hcall

theorem founded_run (env : Env) (files : ℕ → Option Bytes) (events : List Event) :
    Founded env (World.initial env files) events
      (friendMap (run (World.step env) (World.initial env files) events).store.db.friendships.rows)
      := by
  induction events using List.reverseRecOn with
  | nil =>
    constructor
    · intro x y h
      cases h
    · intro x y h
      cases h
  | append_singleton events e ih =>
    have hsound := sound_run env files events
    have hstep := step_tableStep env e hsound.normalised
    rw [run_append, run_cons, run_nil]
    generalize (run (World.step env) (World.initial env files) events).step env e = w' at hstep
    cases hstep with
    | kept e w' ids hfriendships _ =>
      rw [hfriendships]
      exact ih.append [e]
    | befriended c packetType body x y call w' hrunning hlive hbefriends hcall hcarries _
        hanswered =>
      exact founded_befriended ih hcall hcarries
        ⟨c, body, rfl, hrunning, hlive, hbefriends, hanswered⟩
    | stored c body req login sender recipient _ _ _ _ _ =>
      rw [withAnswer_store]
      exact ih.append _

/-- In every run a message is stored between two different users only who are friends, and
one of whom has asked the other and then been accepted by them. -/
theorem message_needs_consent (env : Env) (files : ℕ → Option Bytes) (events : List Event) :
    let w := run (World.step env) (World.initial env files) events
    ∀ r ∈ w.store.db.directMessages.rows, r.sender ≠ r.recipient ∧
      (∃ f ∈ w.store.db.friendships.rows,
        f.hasPair (normalize r.sender r.recipient) = true ∧ f.status = .accepted) ∧
      (AskedAndAccepted env (World.initial env files) events r.sender r.recipient ∨
        AskedAndAccepted env (World.initial env files) events r.recipient r.sender) := by
  intro w r hr
  have hsound : Sound env w.store := sound_run env files events
  have hfriends := hsound.friends r hr
  refine ⟨?_, ?_, (founded_run env files events).accepted _ _ hfriends⟩
  · intro hsame
    rw [hsame, friendMap_diag hsound.normalised] at hfriends
    cases hfriends
  · unfold friendMap at hfriends
    rw [← normalize_eq] at hfriends
    cases hfind : w.store.db.friendships.rows.find?
        (FriendshipRow.hasPair (normalize r.sender r.recipient)) with
    | none =>
      rw [hfind] at hfriends
      cases hfriends
    | some f =>
      have hf := List.mem_of_find?_eq_some hfind
      refine ⟨f, hf, List.find?_some hfind, ?_⟩
      rcases hsound.normalised.status f hf with hst | hst
      · rw [hfind] at hfriends
        simp [stateOf, hst] at hfriends
      · exact hst

theorem message_needs_consent_friends :
    AskedAndAccepted Env.plain (World.initial Env.plain fun _ => none)
        (twoFriends ++ [messageEvent]) 2 1 ∨
      AskedAndAccepted Env.plain (World.initial Env.plain fun _ => none)
        (twoFriends ++ [messageEvent]) 1 2 := by
  have h := message_needs_consent Env.plain (fun _ => none) (twoFriends ++ [messageEvent])
    ⟨1, 2, 1, 6, [104], 0⟩ (by decide)
  exact h.2.2

end Messenger.Consents
