import Messenger.WiredLinks

/-!
Any number of clients and one server, each client joined to it by its own two sockets. What
happens at the ends of one connection reaches the others through the server only, so every
run looks from each connection like a run of one client whose server does whatever it does
for the others; and seen from the server it is a run of the server alone.
-/
namespace Messenger.Networks

open ServerSteps NetworkSession PendingRequests WiredLinks Simulations

/-- One client, with both ends of its two links. -/
structure ClientLink where
  token : Bytes
  client : ClientAsyncHandler
  crashed : Bool
  posting : Option Packet
  uplink : Connection
  downlink : Connection

def ClientLink.over (link : ClientLink) (w : World) : WiredSystem :=
  ⟨link.token, link.client, link.crashed, link.posting, link.uplink, w, link.downlink⟩

def linkOf (s : WiredSystem) : ClientLink :=
  ⟨s.token, s.client, s.crashed, s.posting, s.uplink, s.downlink⟩

structure Network where
  world : World
  links : ConnId → Option ClientLink

/-- `ends` is what happens at the ends of one connection, but for the events of the server
that are no packets. -/
inductive NetworkEvent where
  | connect
  | restart
  | disconnect (c : ConnId)
  | cleanTokens
  | ends (c : ConnId) (e : WiredEvent)
deriving DecidableEq, Repr

def ofServer : WiredEvent → Bool
  | .server _ => true
  | _ => false

namespace Network

def new (w : World) : Network := ⟨w, fun _ => none⟩

/-- The network as one connection sees it. -/
def view (n : Network) (c : ConnId) : Option WiredSystem := (n.links c).map (·.over n.world)

/-- The server moves on; what it sends is posted to the sockets of those it is sent to. -/
def advance (n : Network) (w : World) : Network where
  world := w
  links c := (n.view c).map fun s => linkOf (s.advance c w)

/-- The server moves on with what happens at one connection. -/
def put (n : Network) (c : ConnId) (s : WiredSystem) : Network where
  world := s.world
  links := Function.update (n.advance s.world).links c (some (linkOf s))

def step (env : Env) (n : Network) : NetworkEvent → Network
  | .connect =>
    if n.world.status = .running then n.put n.world.nextConn (.start n.world) else n
  | .restart => n.advance (n.world.step env .restart)
  | .disconnect c => n.advance (n.world.step env (.disconnect c))
  | .cleanTokens => n.advance (n.world.step env .cleanTokens)
  | .ends c e =>
    match n.view c with
    | none => n
    | some s => if ofServer e then n else n.put c (s.step env c e)

/-- The server has not terminated, and lengths on all links fit their words. -/
def Undisturbed (n : Network) : Prop :=
  n.world.status ≠ .terminated ∧ ∀ c < n.world.nextConn, ∀ s ∈ n.view c, s.Undisturbed

instance (n : Network) : Decidable n.Undisturbed :=
  inferInstanceAs (Decidable (_ ∧ ∀ c < n.world.nextConn, ∀ s ∈ n.view c, s.Undisturbed))

end Network

/-- The events of the server in what happens at one connection. -/
def serverShown (c : ConnId) (s : WiredSystem) : WiredEvent → List Event
  | .serverRead =>
    if s.world.status = .running ∧ (s.world.sessions c).isSome then
      (handed s.uplink).toList.map fun packet => .packet c packet.1 packet.2
    else []
  | .server e => if comesFrom c e then [] else [e]
  | _ => []

def historyShown (n : Network) : NetworkEvent → List Event
  | .connect => [.connect]
  | .restart => [.restart]
  | .disconnect c => [.disconnect c]
  | .cleanTokens => [.cleanTokens]
  | .ends c e =>
    match n.view c with
    | none => []
    | some s => if ofServer e then [] else serverShown c s e

theorem wired_world_step (env : Env) (c : ConnId) (s : WiredSystem) (e : WiredEvent) :
    (s.step env c e).world = LabelledRuns.run (World.step env) s.world (serverShown c s e) := by
  cases e with
  | call call =>
    simp only [WiredSystem.step, serverShown, LabelledRuns.run_nil]
    split
    · rfl
    · split <;> rfl
  | post =>
    simp only [WiredSystem.step, serverShown, LabelledRuns.run_nil]
    split <;> rfl
  | serverRead =>
    simp only [WiredSystem.step, serverShown]
    split
    · cases handed s.uplink <;> rfl
    · rfl
  | server e =>
    simp only [WiredSystem.step, serverShown]
    split <;> rfl
  | clientRead =>
    simp only [WiredSystem.step, serverShown, LabelledRuns.run_nil]
    split
    · rfl
    · split
      · rfl
      · split <;> rfl
  | setToken _ | clientWriter _ | serverReadFailed | serverWriter _ | clientReadFailed => rfl

/-- The world moves by the events of the server alone. -/
theorem world_step (env : Env) (n : Network) (e : NetworkEvent) :
    (n.step env e).world = LabelledRuns.run (World.step env) n.world (historyShown n e) := by
  cases e with
  | connect =>
    simp only [Network.step, historyShown, LabelledRuns.run_cons, LabelledRuns.run_nil, World.step]
    split <;> rfl
  | restart | disconnect _ | cleanTokens => rfl
  | ends c e =>
    simp only [Network.step, historyShown]
    cases hview : n.view c with
    | none => rfl
    | some s =>
      have hworld : s.world = n.world := by
        obtain ⟨link, -, rfl⟩ := Option.map_eq_some_iff.mp hview
        rfl
      simp only
      split
      · rfl
      · rw [← hworld]
        exact wired_world_step env c s e

/-- The events of the connection `c` in an event of the network. -/
def viewShown (c : ConnId) (n : Network) (e : NetworkEvent) : List WiredEvent :=
  match e with
  | .ends d e =>
    if d = c then if ofServer e then [] else [e]
    else (historyShown n (.ends d e)).map .server
  | e => (historyShown n e).map .server

section

variable {n : Network} {c : ConnId} {s : WiredSystem}

theorem world_of_view (h : n.view c = some s) : s.world = n.world := by
  obtain ⟨link, -, rfl⟩ := Option.map_eq_some_iff.mp h
  rfl

theorem advance_self (s : WiredSystem) (c : ConnId) : s.advance c s.world = s := by
  simp only [WiredSystem.advance, List.drop_length, List.filter_nil, List.foldl_nil]

theorem view_advance (n : Network) (w : World) (c : ConnId) :
    (n.advance w).view c = (n.view c).map fun s => s.advance c w := by
  simp only [Network.view, Network.advance, Option.map_map]
  rfl

theorem view_put_self (n : Network) (c : ConnId) (s : WiredSystem) :
    (n.put c s).view c = some s := by
  simp only [Network.view, Network.put, Function.update_self]
  rfl

theorem view_put_of_ne (n : Network) {c d : ConnId} (h : d ≠ c) (s : WiredSystem) :
    (n.put c s).view d = (n.view d).map fun s' => s'.advance d s.world := by
  rw [← view_advance]
  simp only [Network.view, Network.put, Function.update_of_ne h]
  rfl

/-- An event of the server that is no packet of `c`, as `c` sees it. -/
theorem advance_server (env : Env) (s : WiredSystem) {c : ConnId} {e : Event}
    (h : comesFrom c e = false) :
    s.advance c (s.world.step env e) = s.step env c (.server e) := by
  simp only [WiredSystem.step, h, Bool.false_eq_true, if_false]

/-- The server moves on by what happens elsewhere. -/
theorem advance_shown (env : Env) (s : WiredSystem) {c : ConnId} {events : List Event}
    (h : ∀ e ∈ events, comesFrom c e = false) (hshort : events.length ≤ 1) :
    s.advance c (LabelledRuns.run (World.step env) s.world events) =
      LabelledRuns.run (WiredSystem.step env c) s (events.map .server) := by
  match events, hshort with
  | [], _ => exact advance_self s c
  | [e], _ => exact advance_server env s (h e (List.mem_singleton_self e))

theorem serverShown_packets {e : WiredEvent} (h : ofServer e = false) (d : ConnId)
    (hne : d ≠ c) : ∀ event ∈ serverShown d s e, comesFrom c event = false := by
  cases e with
  | serverRead =>
    intro event hevent
    simp only [serverShown] at hevent
    split at hevent
    · obtain ⟨packet, -, rfl⟩ := List.mem_map.mp hevent
      exact beq_eq_false_iff_ne.mpr hne
    · cases hevent
  | server _ => cases h
  | _ => exact fun _ hevent => absurd hevent List.not_mem_nil

theorem serverShown_length (d : ConnId) (s : WiredSystem) (e : WiredEvent) :
    (serverShown d s e).length ≤ 1 := by
  cases e with
  | serverRead =>
    simp only [serverShown]
    split
    · rw [List.length_map]
      cases handed s.uplink <;> simp
    · simp
  | server e =>
    simp only [serverShown]
    split <;> simp
  | _ => simp [serverShown]

/-- What an event of the network is to a connection that is there. -/
theorem view_step (env : Env) (h : n.view c = some s) (e : NetworkEvent) :
    (n.step env e).view c =
        some (LabelledRuns.run (WiredSystem.step env c) s (viewShown c n e)) ∨
      (n.step env e).view c = some (.start n.world) ∧ c = n.world.nextConn ∧
        e = .connect ∧ n.world.status = .running := by
  have hworld := world_of_view h
  cases e with
  | connect =>
    by_cases hrunning : n.world.status = .running
    · have hput : n.step env .connect = n.put n.world.nextConn (.start n.world) := by
        simp only [Network.step, if_pos hrunning]
      rw [hput]
      by_cases hc : c = n.world.nextConn
      · subst hc
        exact Or.inr ⟨view_put_self n _ _, rfl, rfl, hrunning⟩
      · refine Or.inl ?_
        have haccept : (WiredSystem.start n.world).world = n.world.step env .connect := by
          simp only [World.step, if_pos hrunning, WiredSystem.start]
        rw [view_put_of_ne n hc, h, Option.map_some, haccept, ← hworld]
        exact congrArg some (advance_server env s rfl)
    · refine Or.inl ?_
      have hidle : s.world.step env .connect = s.world := by
        rw [hworld]
        simp only [World.step, if_neg hrunning]
      simp only [Network.step, if_neg hrunning]
      change n.view c = some (s.step env c (.server .connect))
      rw [h, ← advance_server env s rfl, hidle, advance_self]
  | restart =>
    refine Or.inl ?_
    change (n.advance _).view c = some (s.step env c (.server .restart))
    rw [view_advance, h, ← hworld]
    exact congrArg some (advance_server env s rfl)
  | disconnect d =>
    refine Or.inl ?_
    change (n.advance _).view c = some (s.step env c (.server (.disconnect d)))
    rw [view_advance, h, ← hworld]
    exact congrArg some (advance_server env s rfl)
  | cleanTokens =>
    refine Or.inl ?_
    change (n.advance _).view c = some (s.step env c (.server .cleanTokens))
    rw [view_advance, h, ← hworld]
    exact congrArg some (advance_server env s rfl)
  | ends d e =>
    refine Or.inl ?_
    by_cases hd : d = c
    · subst hd
      simp only [Network.step, h, viewShown, if_true]
      split
      · exact h
      · exact view_put_self n d _
    · simp only [Network.step, viewShown, if_neg hd, historyShown]
      cases hview : n.view d with
      | none => exact h
      | some s' =>
        simp only
        cases he : ofServer e with
        | true =>
          simp only [if_true, List.map_nil, LabelledRuns.run_nil]
          exact h
        | false =>
          simp only [Bool.false_eq_true, if_false]
          have hshared : s'.world = s.world := (world_of_view hview).trans hworld.symm
          rw [view_put_of_ne n (Ne.symm hd), h, Option.map_some, wired_world_step, hshared]
          exact congrArg some (advance_shown env s (serverShown_packets he d hd)
            (serverShown_length d s' e))

/-- A connection that is not there is there only after it has been accepted. -/
theorem view_step_none (env : Env) (h : n.view c = none) (e : NetworkEvent) :
    (n.step env e).view c = none ∨
      (n.step env e).view c = some (.start n.world) ∧ c = n.world.nextConn ∧
        e = .connect ∧ n.world.status = .running := by
  cases e with
  | connect =>
    by_cases hrunning : n.world.status = .running
    · have hput : n.step env .connect = n.put n.world.nextConn (.start n.world) := by
        simp only [Network.step, if_pos hrunning]
      rw [hput]
      by_cases hc : c = n.world.nextConn
      · subst hc
        exact Or.inr ⟨view_put_self n _ _, rfl, rfl, hrunning⟩
      · rw [view_put_of_ne n hc, h]
        exact Or.inl rfl
    · simp only [Network.step, if_neg hrunning]
      exact Or.inl h
  | restart | disconnect _ | cleanTokens =>
    refine Or.inl ?_
    change (n.advance _).view c = none
    rw [view_advance, h, Option.map_none]
  | ends d e =>
    refine Or.inl ?_
    simp only [Network.step]
    cases hview : n.view d with
    | none => exact h
    | some s' =>
      have hd : c ≠ d := by
        rintro rfl
        rw [h] at hview
        cases hview
      simp only
      split
      · exact h
      · rw [view_put_of_ne n hd, h, Option.map_none]

/-- Server and connection see the same events of the server. -/
theorem historyShown_eq (h : n.view c = some s) (e : NetworkEvent) :
    historyShown n e = (viewShown c n e).flatMap (serverShown c s) := by
  have elsewhere : ∀ events : List Event, (∀ e ∈ events, comesFrom c e = false) →
      events = (events.map WiredEvent.server).flatMap (serverShown c s) := by
    intro events hevents
    induction events with
    | nil => rfl
    | cons e rest ih =>
      obtain ⟨he, hrest⟩ := List.forall_mem_cons.mp hevents
      have hone : serverShown c s (.server e) = [e] := by
        simp only [serverShown, he, Bool.false_eq_true, if_false]
      rw [List.map_cons, List.flatMap_cons, hone, ← ih hrest, List.singleton_append]
  cases e with
  | connect | restart | disconnect _ | cleanTokens => rfl
  | ends d e =>
    by_cases hd : d = c
    · subst hd
      simp only [historyShown, viewShown, if_true, h]
      split
      · rfl
      · rw [List.flatMap_singleton]
    · simp only [viewShown, if_neg hd]
      refine elsewhere _ ?_
      simp only [historyShown]
      split
      · exact fun _ hevent => absurd hevent List.not_mem_nil
      · split
        · exact fun _ hevent => absurd hevent List.not_mem_nil
        · rename_i he
          exact serverShown_packets (Bool.not_eq_true _ ▸ he) d hd

theorem historyShown_short (n : Network) (e : NetworkEvent) :
    historyShown n e = [] ∨ ∃ event, historyShown n e = [event] := by
  cases e with
  | connect | restart | disconnect _ | cleanTokens => exact Or.inr ⟨_, rfl⟩
  | ends d e =>
    simp only [historyShown]
    split
    · exact Or.inl rfl
    · rename_i s' _
      split
      · exact Or.inl rfl
      · have hshort := serverShown_length d s' e
        match hevents : serverShown d s' e, hshort with
        | [], _ => exact Or.inl rfl
        | [event], _ => exact Or.inr ⟨event, rfl⟩

theorem viewShown_short (c : ConnId) (n : Network) (e : NetworkEvent) :
    viewShown c n e = [] ∨ ∃ d, viewShown c n e = [d] := by
  cases e with
  | connect | restart | disconnect _ | cleanTokens => exact Or.inr ⟨_, rfl⟩
  | ends d e =>
    simp only [viewShown]
    split
    · split
      · exact Or.inl rfl
      · exact Or.inr ⟨e, rfl⟩
    · rcases historyShown_short n (.ends d e) with hnothing | ⟨event, hone⟩
      · rw [hnothing]
        exact Or.inl rfl
      · rw [hone]
        exact Or.inr ⟨.server event, rfl⟩

/-- A call that a connection sees was made at its own end. -/
theorem viewShown_call {call : ClientCall} {e : NetworkEvent}
    (h : .call call ∈ viewShown c n e) : e = .ends c (.call call) := by
  have elsewhere : ∀ events : List Event, .call call ∉ events.map WiredEvent.server := by
    intro events hmem
    obtain ⟨_, -, hsame⟩ := List.mem_map.mp hmem
    cases hsame
  cases e with
  | connect | restart | disconnect _ | cleanTokens => exact absurd h (elsewhere _)
  | ends d e =>
    simp only [viewShown] at h
    split at h
    · rename_i hd
      split at h
      · cases h
      · rw [List.mem_singleton] at h
        rw [hd, h]
    · exact absurd h (elsewhere _)

/-- What holds when a connection is accepted and is kept by what happens at it holds at every
connection. -/
theorem forall_view_step {env : Env} {P : ConnId → WiredSystem → Prop} {C : WiredSystem → Prop}
    (hstart : P n.world.nextConn (.start n.world))
    (hstep : ∀ c s e, P c s → C (s.step env c e) → P c (s.step env c e))
    (h : ∀ c s, n.view c = some s → P c s) (e : NetworkEvent)
    (hC : ∀ c s, (n.step env e).view c = some s → C s) :
    ∀ c s, (n.step env e).view c = some s → P c s := by
  intro c s' hview'
  cases hview : n.view c with
  | none =>
    rcases view_step_none env hview e with hnone | ⟨haccepted, rfl, -, -⟩
    · cases hnone.symm.trans hview'
    · obtain rfl := Option.some.inj (haccepted.symm.trans hview')
      exact hstart
  | some s =>
    rcases view_step env hview e with hsome | ⟨haccepted, rfl, -, -⟩
    · obtain rfl := Option.some.inj (hsome.symm.trans hview')
      have hlast := hC c _ hview'
      rcases viewShown_short c n e with hnothing | ⟨d, hone⟩
      · rw [hnothing]
        exact h c s hview
      · rw [hone] at hlast ⊢
        exact hstep c s d (h c s hview) hlast
    · obtain rfl := Option.some.inj (haccepted.symm.trans hview')
      exact hstart

theorem nextConn_le_step (env : Env) (w : World) (e : Event) :
    w.nextConn ≤ (w.step env e).nextConn := by
  have hstep := step_loginStep env w e
  generalize w.step env e = w' at hstep
  cases hstep with
  | same _ _ h => exact h.nextConn.ge
  | closed _ _ _ _ hnext => exact hnext.ge
  | connected => exact Nat.le_succ _
  | destroyed _ => exact le_rfl
  | set _ _ _ _ _ _ _ _ _ hnext => exact hnext.ge

theorem nextConn_le_run (env : Env) (w : World) (events : List Event) :
    w.nextConn ≤ (LabelledRuns.run (World.step env) w events).nextConn :=
  LabelledRuns.invariant (P := fun w' : World => w.nextConn ≤ w'.nextConn)
    (fun w' e h => h.trans (nextConn_le_step env w' e)) le_rfl events

def Numbered (n : Network) : Prop := ∀ c, (n.view c).isSome → c < n.world.nextConn

theorem Numbered.step (h : Numbered n) (env : Env) (e : NetworkEvent) :
    Numbered (n.step env e) := by
  intro c hc
  have hle := nextConn_le_run env n.world (historyShown n e)
  rw [← world_step] at hle
  cases hview : n.view c with
  | some s => exact (h c (by rw [hview]; rfl)).trans_le hle
  | none =>
    rcases view_step_none env hview e with hnone | ⟨-, rfl, rfl, hrunning⟩
    · rw [hnone] at hc
      cases hc
    · simp only [Network.step, if_pos hrunning]
      exact Nat.lt_succ_self _

end

end Messenger.Networks
