import Messenger.Linearizations
import Messenger.SettlingRuns
import Messenger.OnlineEntries
import Mathlib.Data.Prod.Lex
import Mathlib.Algebra.Order.BigOperators.Group.Finset

/-!
The system never hangs and never spins. What the loops of clients and server do by
themselves is to post, write and read; a byte that moves on leaves less to do, and a packet
that the server takes leaves less to take, however much it makes the server send. So left
to itself the system comes to rest, and at rest every client whose sockets are open and
whose session is there has heard the answer to everything it has asked.
-/
namespace Messenger.FinalAnswers

open WritePumps FramedStreams NetworkSession ServerSteps PendingRequests WiredLinks Networks
  Hearings Simulations SettlingRuns ClientAsyncHandler
  Linearizations

/-- Events that need nobody from outside, and no failure. -/
def ofItself : WiredEvent → Bool
  | .post | .serverRead | .clientRead => true
  | .clientWriter e | .serverWriter e => !e.fails
  | _ => false

/-- What is to be taken by the server. -/
def upWork (s : WiredSystem) : ℕ :=
  s.uplink.work + match s.posting with
    | none => 0
    | some packet => 3 * ((fullPacket packet).length + 2) + 1

def downWork (s : WiredSystem) : ℕ := s.downlink.work

/-- Both links pump as they should. -/
def Pumping (s : WiredSystem) : Prop := s.uplink.Pumps ∧ s.downlink.Pumps

section

variable {env : Env} {c : ConnId} {s : WiredSystem}

theorem pumps_new : Connection.new.Pumps := ⟨[], pumping_new⟩

theorem pumps_posts {link : Connection} (h : link.Pumps) (new : List Sent) :
    (new.foldl (fun link p => link.step (.sendPacket p.packetType p.body)) link).Pumps := by
  induction new generalizing link with
  | nil => exact h
  | cons p rest ih => exact ih (h.step _)

theorem Pumping.advance (h : Pumping s) (c : ConnId) (w : World) : Pumping (s.advance c w) :=
  ⟨h.1, pumps_posts h.2 _⟩

theorem Pumping.step (h : Pumping s) (e : WiredEvent) : Pumping (s.step env c e) := by
  cases e with
  | call call =>
    simp only [WiredSystem.step]
    split
    · exact h
    · split <;> exact h
  | setToken t => exact h
  | post =>
    simp only [WiredSystem.step]
    split
    · exact h
    · exact ⟨h.1.step _, h.2⟩
  | clientWriter e => exact ⟨h.1.step _, h.2⟩
  | serverRead =>
    simp only [WiredSystem.step]
    split
    · split
      · exact ⟨h.1.step _, h.2⟩
      · exact ⟨h.1.step _, (h.advance c _).2⟩
    · exact h
  | serverReadFailed => exact ⟨h.1.step _, h.2⟩
  | server e =>
    simp only [WiredSystem.step]
    split
    · exact h
    · exact h.advance c _
  | serverWriter e => exact ⟨h.1, h.2.step _⟩
  | clientRead =>
    simp only [WiredSystem.step]
    split
    · exact h
    · split
      · exact ⟨h.1, h.2.step _⟩
      · split <;> exact ⟨h.1, h.2.step _⟩
  | clientReadFailed => exact ⟨h.1, h.2.step _⟩

/-- Nothing is handed over by a read that changes nothing. -/
theorem handed_none {link : Connection} (h : link.step .read = link) : handed link = none := by
  rw [handed, h, List.drop_length, List.head?_nil]

/-- The system goes on by itself towards the server, or without it towards the client. -/
inductive Progress (s s' : WiredSystem) : Prop where
  | up (h : upWork s' < upWork s)
  | down (hup : upWork s' = upWork s) (hdown : downWork s' < downWork s)
      (hworld : s'.world = s.world)

theorem progress_step (h : Pumping s) {e : WiredEvent} (he : ofItself e = true) :
    s.step env c e = s ∨ Progress s (s.step env c e) := by
  cases e with
  | post =>
    simp only [WiredSystem.step]
    cases hposting : s.posting with
    | none => exact Or.inl rfl
    | some packet =>
      obtain ⟨packetType, body⟩ := packet
      refine Or.inr (.up ?_)
      have hwork := Connection.work_sendPacket s.uplink packetType body
      simp only [upWork, hposting, hwork]
      omega
  | clientWriter e =>
    rcases Connection.work_writer h.1 (Bool.not_eq_true' _ ▸ he) with hsame | hless
    · refine Or.inl ?_
      simp only [WiredSystem.step, hsame]
    · refine Or.inr (.up ?_)
      exact Nat.add_lt_add_right hless _
  | serverRead =>
    simp only [WiredSystem.step]
    split
    · rcases Connection.work_read s.uplink with hsame | hless
      · rw [handed_none hsame, hsame]
        exact Or.inl rfl
      · refine Or.inr (.up ?_)
        split <;> exact Nat.add_lt_add_right hless _
    · exact Or.inl rfl
  | serverWriter e =>
    rcases Connection.work_writer h.2 (Bool.not_eq_true' _ ▸ he) with hsame | hless
    · refine Or.inl ?_
      simp only [WiredSystem.step, hsame]
    · exact Or.inr (.down rfl hless rfl)
  | clientRead =>
    simp only [WiredSystem.step]
    split
    · exact Or.inl rfl
    · rcases Connection.work_read s.downlink with hsame | hless
      · rw [handed_none hsame, hsame]
        exact Or.inl rfl
      · refine Or.inr ?_
        split
        · exact .down rfl hless rfl
        · split <;> exact .down rfl hless rfl
  | _ => cases he

variable {n : Network}

def Own : NetworkEvent → Prop
  | .ends _ e => ofItself e = true
  | _ => False

theorem ofServer_of_own {e : WiredEvent} (h : ofItself e = true) : ofServer e = false := by
  cases e with
  | server e => cases h
  | _ => rfl

theorem network_put_self (h : n.view c = some s) : n.put c s = n := by
  have hworld := world_of_view h
  have hlinks : (n.put c s).links = n.links := by
    funext d
    by_cases hd : d = c
    · subst hd
      obtain ⟨link, hlink, rfl⟩ := Option.map_eq_some_iff.mp h
      simp only [Network.put, Function.update_self, hlink]
      rfl
    · simp only [Network.put, Function.update_of_ne hd, Network.advance, hworld, Network.view,
        Option.map_map]
      cases hlink : n.links d with
      | none => rfl
      | some link =>
        have hsame := advance_self (link.over n.world) d
        simp only [Option.map_some, Function.comp_apply]
        exact congrArg (fun s => some (linkOf s)) hsame
  cases n
  simp only [Network.put] at hlinks hworld ⊢
  rw [hlinks, hworld]

/-- The work that is left at the first `bound` connections. -/
def total (work : WiredSystem → ℕ) (bound : ℕ) (n : Network) : ℕ :=
  ∑ c ∈ Finset.range bound, ((n.view c).map work).getD 0

/-- Every connection pumps, and `bound` is beyond all of them. -/
structure Bounded (bound : ℕ) (n : Network) : Prop where
  pumping : ∀ c s, n.view c = some s → Pumping s
  below : ∀ c, (n.view c).isSome → c < bound

theorem pumping_step (h : ∀ c s, n.view c = some s → Pumping s) (e : NetworkEvent) :
    ∀ c s, (n.step env e).view c = some s → Pumping s :=
  forall_view_step (P := fun _ s => Pumping s) (C := fun _ => True)
    ⟨pumps_new, pumps_new⟩ (fun _ _ e h _ => h.step e) h e (fun _ _ _ => trivial)

theorem Bounded.step {bound : ℕ} (h : Bounded bound n) {e : NetworkEvent} (he : Own e) :
    Bounded bound (n.step env e) where
  pumping := pumping_step h.pumping e
  below d hd := by
    cases hview : n.view d with
    | some s => exact h.below d (by rw [hview]; rfl)
    | none =>
      rcases view_step_none env hview e with hnone | ⟨-, -, rfl, -⟩
      · rw [hnone] at hd
        cases hd
      · exact absurd he id

/-- What the server does for one connection leaves the uplinks of the others alone. -/
theorem upWork_put_of_ne {d : ConnId} (hd : d ≠ c) (s : WiredSystem) :
    (((n.put c s).view d).map upWork).getD 0 = ((n.view d).map upWork).getD 0 := by
  rw [view_put_of_ne n hd, Option.map_map]
  rfl

theorem total_lt {work : WiredSystem → ℕ} {bound : ℕ} {n' : Network} {s s' : WiredSystem}
    (hc : c < bound) (hview : n.view c = some s) (hview' : n'.view c = some s')
    (hless : work s' < work s)
    (hothers : ∀ d, d ≠ c →
      ((n'.view d).map work).getD 0 = ((n.view d).map work).getD 0) :
    total work bound n' < total work bound n := by
  have hone : ((n'.view c).map work).getD 0 < ((n.view c).map work).getD 0 := by
    rw [hview, hview']
    exact hless
  refine Finset.sum_lt_sum (fun d _ => ?_) ⟨c, Finset.mem_range.mpr hc, hone⟩
  by_cases hd : d = c
  · subst hd
    exact hone.le
  · exact (hothers d hd).le

theorem total_congr {work : WiredSystem → ℕ} {bound : ℕ} {n' : Network}
    (h : ∀ d, ((n'.view d).map work).getD 0 = ((n.view d).map work).getD 0) :
    total work bound n' = total work bound n :=
  Finset.sum_congr rfl fun d _ => h d

/-- First what is left to be taken by the server counts. -/
def measure (bound : ℕ) (n : Network) : ℕ ×ₗ ℕ :=
  toLex (total upWork bound n, total downWork bound n)

theorem measure_step {bound : ℕ} (h : Bounded bound n) {e : NetworkEvent} (he : Own e) :
    n.step env e = n ∨ measure bound (n.step env e) < measure bound n := by
  cases e with
  | ends c e =>
    simp only [Network.step]
    cases hview : n.view c with
    | none => exact Or.inl rfl
    | some s =>
      have hserver : ofServer e = false := ofServer_of_own he
      have hbelow : c < bound := h.below c (by rw [hview]; rfl)
      simp only [hserver, Bool.false_eq_true, if_false]
      have hstep : s.step env c e = s ∨ Progress s (s.step env c e) :=
        progress_step (h.pumping c s hview) he
      rcases hstep with hsame | hprogress
      · rw [hsame]
        exact Or.inl (network_put_self hview)
      · refine Or.inr ?_
        have hself := view_put_self n c (s.step env c e)
        rw [measure, measure, Prod.Lex.toLex_lt_toLex]
        cases hprogress with
        | up hless =>
          exact Or.inl (total_lt hbelow hview hself hless fun d hd => upWork_put_of_ne hd _)
        | down hup hdown hworld =>
          refine Or.inr ⟨total_congr fun d => ?_,
            total_lt hbelow hview hself hdown fun d hd => ?_⟩
          · by_cases hd : d = c
            · subst hd
              rw [hself, hview]
              exact hup
            · exact upWork_put_of_ne hd _
          · rw [view_put_of_ne n hd, hworld, world_of_view hview]
            cases hother : n.view d with
            | none => rfl
            | some s' =>
              rw [Option.map_some, ← world_of_view hother, advance_self]
  | _ => exact absurd he id

theorem acc_moves (h : ∀ c s, n.view c = some s → Pumping s) (hnumbered : Numbered n) :
    Acc (Moves (Network.step env) Own) n := by
  have hbounded : ∀ n' e, Bounded n.world.nextConn n' → Own e →
      Bounded n.world.nextConn (n'.step env e) := fun _ _ h he => h.step he
  exact acc_of_measure (measure n.world.nextConn) hbounded
    (fun _ _ h he => measure_step h he) ⟨h, hnumbered⟩

end

/-- Entries of the map and packets are of connections below `bound`. -/
structure Below (bound : ℕ) (w : World) : Prop where
  next : w.nextConn = bound
  entries : ∀ l d, w.onlineUsers.lookup l = some d → d < bound
  sent : ∀ p ∈ w.sent, p.conn < bound

section

variable {env : Env} {bound : ℕ} {w w' : World} {c : ConnId}

theorem Below.getSession (h : Below bound w) {login : Bytes} {d : ConnId}
    (hd : w.getSession login = some d) : d < bound :=
  h.entries login d (OnlineEntries.getSession_eq_some.mp hd).1

theorem Below.append (h : Below bound w) {new : List Sent} (hnext : w'.nextConn = w.nextConn)
    (hentries : w'.onlineUsers = w.onlineUsers) (hsent : w'.sent = w.sent ++ new)
    (hnew : ∀ p ∈ new, p.conn < bound) : Below bound w' where
  next := hnext.trans h.next
  entries := by
    rw [hentries]
    exact h.entries
  sent := by
    rw [hsent]
    exact List.forall_mem_append.mpr ⟨h.sent, hnew⟩

theorem Below.same (h : Below bound w) (hnext : w'.nextConn = w.nextConn)
    (hentries : w'.onlineUsers = w.onlineUsers) (hsent : w'.sent = w.sent) : Below bound w' :=
  h.append hnext hentries (hsent.trans (List.append_nil _).symm)
    fun _ hp => absurd hp List.not_mem_nil

theorem Below.action (h : Below bound w) (haction : HandlerActions.Action env w w') :
    Below bound w' := by
  cases haction with
  | account h' => cases h' <;> exact h.same rfl rfl rfl
  | draw _ => exact h.same rfl rfl rfl
  | write _ _ _ => exact h.same rfl rfl rfl
  | relay login conn packetType body cause hentry _ _ =>
    exact h.append rfl rfl rfl (List.forall_mem_singleton.mpr (h.getSession hentry))
  | direct sender recipient now message pushed _ hpush =>
    refine h.append rfl rfl rfl ?_
    rcases hpush with rfl | ⟨login, conn, msg, hentry, -, rfl⟩
    · exact fun _ hp => absurd hp List.not_mem_nil
    · exact List.forall_mem_singleton.mpr (h.getSession hentry)

theorem Below.withHanded (h : Below bound w) (hc : c < bound) (login : Bytes)
    (messages : List StoredMessage) :
    Below bound (HandlePacket.withHanded (HandlePacket.withLogin w c login) c messages) := by
  refine h.append rfl rfl rfl ?_
  intro p hp
  obtain ⟨el, -, rfl⟩ := List.mem_map.mp hp
  exact hc

theorem Below.receive (h : Below bound w) (hc : c < bound) (packetType : PacketType)
    (body : Bytes) (hlive : (w.sessions c).isSome) :
    Below bound (w.receive env c packetType body) := by
  refine HandlePacket.receive_preserves env hlive (fun _ login messages h =>
    h.withHanded hc login messages) (fun w₁ login h => ?_) (fun w₁ r h => ?_)
    (fun _ h => h.same rfl rfl rfl) ?_
  · have hhanded := h.withHanded hc login (HandlePacket.backlog env login w₁.store)
    refine ⟨hhanded.next, fun l d hd => ?_, hhanded.sent⟩
    rcases OnlineEntries.lookup_insert_cases hd with ⟨-, rfl⟩ | ⟨-, hold⟩
    · exact hc
    · exact h.entries l d hold
  · cases r with
    | none => exact h
    | some r => exact h.append rfl rfl rfl (List.forall_mem_singleton.mpr hc)
  · exact HandlePacket.dispatch_preserves env c packetType body (fun _ _ hst h => h.action hst)
      (fun _ _ => h.same rfl rfl rfl) h

/-- Connections are numbered, and packets go to those that have been accepted. -/
structure Accepted (w : World) : Prop where
  numbered : OnlineEntries.Numbered w
  sent : ∀ p ∈ w.sent, p.conn < w.nextConn

theorem accepted_initial (env : Env) (files : ℕ → Option Bytes) :
    Accepted (World.initial env files) :=
  ⟨OnlineEntries.numbered_initial env files, fun _ hp => absurd hp List.not_mem_nil⟩

theorem Accepted.step (h : Accepted w) (env : Env) (e : Event) : Accepted (w.step env e) := by
  refine ⟨OnlineEntries.numbered_step env e h.numbered, ?_⟩
  have hbelow : Below w.nextConn w := ⟨rfl, h.numbered.entries, h.sent⟩
  have hstep := step_stepping env w e
  generalize w.step env e = w' at hstep
  cases hstep with
  | idle e => exact h.sent
  | restart => exact h.sent
  | connect _ => exact fun p hp => Nat.lt_succ_of_lt (h.sent p hp)
  | disconnect c _ => exact h.sent
  | cleanTokens _ => exact h.sent
  | packet c packetType body _ hlive =>
    have hc := h.numbered.sessions c (HandlerActions.isSome_login.trans hlive)
    have hreceived : Below w.nextConn (w.receive env c packetType body) :=
      hbelow.receive hc packetType body hlive
    rw [hreceived.next]
    exact hreceived.sent

end

/-- What the server has ever sent to the connection. -/
def sentTo (c : ConnId) (w : World) : List Sent := w.sent.filter (·.conn == c)

/-- The connection has been in order since it was accepted, before which nothing was sent to
it. -/
def Listens (c : ConnId) (s : WiredSystem) : Prop :=
  ∃ w t, c = w.nextConn ∧ Heard w s t ∧ sentTo c s.world = sentSince w c s.world

/-- Everything that was asked has been answered, and all that was sent has been heard. -/
structure Answered (c : ConnId) (s : WiredSystem) : Prop where
  posting : s.posting = none
  taken : s.uplink.reader.delivered = s.uplink.sender.sent
  answered : (sentTo c s.world).filterMap resultRequest = s.uplink.sender.sent.filterMap awaits
  heard : s.client.callbacks = (sentTo c s.world).filterMap calledFor
  pending : s.client.pendingRequests = []

section

variable {env : Env} {c : ConnId} {s : WiredSystem} {n : Network}

theorem atRest_of_resting {link : Connection} (h : link.Carries)
    (hopen : link.sender.closed = false)
    (hwriter : ∀ e : PumpEvent, e.fails = false → link.step (.writer e) = link)
    (hread : link.step .read = link) : AtRest link := by
  have hreader : link.readerClosed = false := by
    by_contra hclosed
    cases hopen.symm.trans (h.closed (Bool.not_eq_false _ ▸ hclosed))
  obtain ⟨done, hpumping⟩ := h.pumping
  obtain ⟨hposted, hwrites⟩ := hpumping.idle_of_quiet hopen fun e he =>
    congrArg Connection.sender (hwriter e he)
  refine ⟨hopen, hposted, hwrites, ?_⟩
  simp only [Connection.step, hreader, Bool.false_eq_true, if_false] at hread
  exact congrArg Connection.reader hread

theorem resting_view (h : Resting (Network.step env) Own n) (hview : n.view c = some s)
    {e : WiredEvent} (he : ofItself e = true) : s.step env c e = s := by
  have hserver : ofServer e = false := ofServer_of_own he
  have hstep := h (.ends c e) he
  simp only [Network.step, hview, hserver, Bool.false_eq_true, if_false] at hstep
  have hself := view_put_self n c (s.step env c e)
  rw [hstep, hview] at hself
  exact (Option.some.inj hself).symm

theorem Listens.answered (h : Listens c s) (hresting : ∀ e, ofItself e = true → s.step env c e = s)
    (hrunning : s.world.status = .running) (hlive : (s.world.sessions c).isSome)
    (hup : s.uplink.sender.closed = false) (hdown : s.downlink.sender.closed = false) :
    Answered c s := by
  obtain ⟨w, t, rfl, hheard, hsince⟩ := h
  have hstands := hheard.exchanged.stands
  have hinOrder := hheard.exchanged.answeredInOrder
  have hposting : s.posting = none := by
    cases hsome : s.posting with
    | none => rfl
    | some packet =>
      have hpost := congrArg WiredSystem.posting (hresting .post rfl)
      simp only [WiredSystem.step, hsome] at hpost
      cases hpost
  have huplink : AtRest s.uplink := by
    refine atRest_of_resting hstands.uplink.carries hup (fun e he => ?_) ?_
    · exact congrArg WiredSystem.uplink
        (hresting (.clientWriter e) (by rw [ofItself, he]; rfl))
    · have hread := congrArg WiredSystem.uplink (hresting .serverRead rfl)
      simp only [WiredSystem.step, hrunning, hlive, and_self, if_true] at hread
      split at hread <;> exact hread
  have hdownlink : AtRest s.downlink := by
    refine atRest_of_resting hstands.downlink.carries hdown (fun e he => ?_) ?_
    · exact congrArg WiredSystem.downlink
        (hresting (.serverWriter e) (by rw [ofItself, he]; rfl))
    · have hread := congrArg WiredSystem.downlink (hresting .clientRead rfl)
      simp only [WiredSystem.step, hinOrder.alive, Bool.false_eq_true, if_false] at hread
      split at hread
      · exact hread
      · split at hread <;> exact hread
  obtain ⟨htaken, -, -, hpending⟩ := hinOrder.atRest huplink hdownlink hposting
  refine ⟨hposting, htaken, ?_, ?_, hpending⟩
  · rw [hsince, hinOrder.answered, htaken]
  · rw [hsince]
    exact hheard.hears.atRest hdownlink

theorem listens_start {w : World} (h : Accepted w) : Listens w.nextConn (.start w) := by
  refine ⟨w, .start w, rfl, ⟨exchanged_start w, hearing_start w⟩, ?_⟩
  have hnone : sentTo w.nextConn w = [] := List.filter_eq_nil_iff.mpr fun p hp => by
    rw [beq_iff_eq]
    exact (h.sent p hp).ne
  have hsince : sentSince w w.nextConn w = [] := by
    rw [sentSince, List.drop_length, List.filter_nil]
  exact hnone.trans hsince.symm

theorem sentTo_append {w w' : World} {new : List Sent} (h : w'.sent = w.sent ++ new) :
    sentTo c w' = sentTo c w ++ new.filter (·.conn == c) := by
  rw [sentTo, h, List.filter_append, sentTo]

theorem Listens.step (h : Listens c s) (e : WiredEvent) (hup : (s.step env c e).Undisturbed) :
    Listens c (s.step env c e) := by
  obtain ⟨w, t, rfl, hheard, hsince⟩ := h
  refine ⟨w, _, rfl, simulates_heard env w s e t hheard hup, ?_⟩
  have hkept : s.world.sent <+: (s.step env w.nextConn e).world.sent := by
    rw [wired_world_step]
    exact MessageRows.run_keepsSent env s.world _
  obtain ⟨new, hnew⟩ := hkept
  have hle : w.sent.length ≤ s.world.sent.length := by
    rw [← hheard.exchanged.stands.world]
    exact hheard.exchanged.exchanging.sent
  rw [sentTo_append hnew.symm, sentSince_append hle hnew.symm, hsince]

/-- All connections of an undisturbed system. -/
structure Connected (n : Network) : Prop where
  numbered : Networks.Numbered n
  accepted : Accepted n.world
  listens : ∀ c s, n.view c = some s → Listens c s

theorem connected_new (env : Env) (files : ℕ → Option Bytes) :
    Connected (.new (World.initial env files)) :=
  ⟨fun _ h => absurd h Bool.false_ne_true, accepted_initial env files,
    fun _ _ h => absurd h.symm (Option.some_ne_none _)⟩

theorem Connected.step (h : Connected n) (e : NetworkEvent)
    (hup : (n.step env e).Undisturbed) : Connected (n.step env e) := by
  have hnumbered := h.numbered.step env e
  refine ⟨hnumbered, ?_, ?_⟩
  · rw [world_step]
    exact LabelledRuns.invariant (fun _ e h => h.step env e) h.accepted _
  · exact forall_view_step (listens_start h.accepted) (fun _ _ e h hup => h.step e hup) h.listens e
      fun c s hview => hup.2 c (hnumbered c (by rw [hview]; rfl)) s hview

theorem pumping_run (env : Env) (files : ℕ → Option Bytes) (events : List NetworkEvent) :
    Networks.Numbered (system env files events) ∧
      ∀ c s, (system env files events).view c = some s → Pumping s := by
  have hnone : ∀ c s, (Network.new (World.initial env files)).view c = some s → Pumping s :=
    fun _ _ h => absurd h.symm (Option.some_ne_none _)
  exact LabelledRuns.invariant
    (P := fun n : Network => Networks.Numbered n ∧ ∀ c s, n.view c = some s → Pumping s)
    (fun _ e h => ⟨h.1.step env e, pumping_step h.2 e⟩)
    ⟨(connected_new env files).numbered, hnone⟩ events

/-- Nothing is left to write or to read on a link. -/
def Still (link : Connection) : Prop :=
  link.sender.posted = [] ∧ link.sender.writes = [] ∧
    ¬ link.reader.Readable framing link.sender.wire

instance (link : Connection) : Decidable (Still link) :=
  inferInstanceAs (Decidable (_ ∧ _ ∧ ¬ _))

theorem Still.writer {link : Connection} (h : Still link) {e : PumpEvent}
    (he : e.fails = false) : link.step (.writer e) = link := by
  obtain ⟨hposted, hwrites, -⟩ := h
  have hsender : link.sender.step fullPacket e = link.sender := by
    cases e with
    | runPosted => simp only [Pump.step, Pump.runPosted, hposted]
    | transmit write count =>
      simp only [Pump.step, Pump.transmit, hwrites, List.getElem?_nil]
    | writeDone write =>
      simp only [Pump.step, Pump.writeDone, hwrites, List.getElem?_nil]
    | writeFailed write => cases he
  simp only [Connection.step, hsender]

theorem Still.read {link : Connection} (h : Still link) : link.step .read = link := by
  simp only [Connection.step, Reader.step_of_not_readable h.2.2, ite_self]

theorem resting_of_still
    (h : ∀ c s, n.view c = some s → s.posting = none ∧ Still s.uplink ∧ Still s.downlink) :
    Resting (Network.step env) Own n := by
  intro e he
  cases e with
  | ends c e =>
    simp only [Network.step]
    cases hview : n.view c with
    | none => rfl
    | some s =>
      obtain ⟨hposting, hup, hdown⟩ := h c s hview
      have hown : ofItself e = true := he
      have hsame : s.step env c e = s := by
        cases e with
        | post => simp only [WiredSystem.step, hposting]
        | clientWriter e =>
          simp only [WiredSystem.step, hup.writer (Bool.not_eq_true' _ ▸ hown)]
        | serverRead =>
          simp only [WiredSystem.step, handed_none hup.read, hup.read, ite_self]
        | serverWriter e =>
          simp only [WiredSystem.step, hdown.writer (Bool.not_eq_true' _ ▸ hown)]
        | clientRead =>
          simp only [WiredSystem.step, handed_none hdown.read, hdown.read, ite_self]
        | _ => cases he
      simp only [hsame]
      split
      · rfl
      · exact network_put_self hview
  | _ => exact absurd he id

/-- After every run, whatever the loops do in whatever order, they cannot go on for ever
doing something, and they can go on until nothing is left to do; and when nothing is left to
do and nothing has gone wrong, whoever is connected has heard all there was to hear, the
answer to each of its requests in their order. -/
theorem answered_at_last (env : Env) (files : ℕ → Option Bytes) (events : List NetworkEvent) :
    (∀ schedule : ℕ → NetworkEvent, (∀ k, Own (schedule k)) →
      ∃ k, (after (Network.step env) (system env files events) schedule k).step env (schedule k) =
        after (Network.step env) (system env files events) schedule k) ∧
    (∃ rest, (∀ e ∈ rest, Own e) ∧
      Resting (Network.step env) Own (system env files (events ++ rest))) ∧
    (LabelledRuns.Along (Network.step env) (fun n e => (n.step env e).Undisturbed)
        (.new (World.initial env files)) events →
      Resting (Network.step env) Own (system env files events) →
      ∀ c s, (system env files events).view c = some s → s.world.status = .running →
        (s.world.sessions c).isSome → s.uplink.sender.closed = false →
        s.downlink.sender.closed = false → Answered c s) := by
  obtain ⟨hnumbered, hpumping⟩ := pumping_run env files events
  have hacc : Acc (Moves (Network.step env) Own) (system env files events) :=
    acc_moves hpumping hnumbered
  refine ⟨exists_idle hacc, ?_,
    fun hundisturbed hresting c s hview hrunning hlive hup hdown => ?_⟩
  · obtain ⟨rest, hown, hrest⟩ := exists_resting hacc
    refine ⟨rest, hown, ?_⟩
    rw [system, LabelledRuns.run_append]
    exact hrest
  · have hconnected : Connected (system env files events) :=
      LabelledRuns.invariant_along (fun _ e h hup => h.step e hup) (connected_new env files)
        hundisturbed
    exact (hconnected.listens c s hview).answered (fun e he => resting_view hresting hview he)
      hrunning hlive hup hdown

/-- "a" registers and has heard it when everything is at rest. -/
def oneClient : List NetworkEvent :=
  [.connect, .ends 0 (.call (.registerUser [97] [112]))] ++ carriedUp 0 ++ carriedDown 0

theorem answered_at_last_oneClient :
    ∃ s, (system Env.plain (fun _ => none) oneClient).view 0 = some s ∧
      s.client.callbacks = [.onAuthResponse ⟨[97, 97], Error.Base.ok⟩] ∧ Answered 0 s := by
  have hsome : ((system Env.plain (fun _ => none) oneClient).view 0).isSome := by decide
  obtain ⟨s, hs⟩ := Option.isSome_iff_exists.mp hsome
  have hall : ∀ s ∈ (system Env.plain (fun _ => none) oneClient).view 0,
      s.client.callbacks = [.onAuthResponse ⟨[97, 97], Error.Base.ok⟩] ∧
      s.posting = none ∧ Still s.uplink ∧ Still s.downlink ∧ s.world.status = .running ∧
      (s.world.sessions 0).isSome ∧ s.uplink.sender.closed = false ∧
      s.downlink.sender.closed = false := by decide
  obtain ⟨hheard, hposting, hupStill, hdownStill, hrunning, hlive, hup, hdown⟩ := hall s hs
  have hresting : Resting (Network.step Env.plain) Own
      (system Env.plain (fun _ => none) oneClient) := by
    refine resting_of_still fun c s' hview => ?_
    have hc : c < 1 := (pumping_run Env.plain (fun _ => none) oneClient).1 c (by rw [hview]; rfl)
    obtain rfl : c = 0 := Nat.lt_one_iff.mp hc
    obtain rfl := Option.some.inj (hs.symm.trans hview)
    exact ⟨hposting, hupStill, hdownStill⟩
  exact ⟨s, hs, hheard, (answered_at_last Env.plain (fun _ => none) oneClient).2.2 (by decide)
    hresting 0 s hs hrunning hlive hup hdown⟩

end

end Messenger.FinalAnswers
