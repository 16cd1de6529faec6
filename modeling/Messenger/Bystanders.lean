import Messenger.PlainReadings

/-!
What others do among themselves. Requests about friends and letters between two other users
can be left out of everything that was ever asked: a user is answered, shown and handed the
same. So what somebody asks for tells nothing of the friends and letters of others. A letter
that is pushed does: it carries the id of its row, which counts all letters.
-/
namespace Messenger.Bystanders

open FriendStates PlainMessenger

section

variable {L P T X : Type*}

/-- A request about friends or a letter, neither made by `u` nor naming `u`. -/
def Apart (lifetime : ℤ) (u : L) (m : State L P T X) (a : Asked L P T X) : Prop :=
  match a.request with
  | .befriend token _ target => target ≠ u ∧ m.holder lifetime token a.now ≠ some u
  | .write token recipient _ => recipient ≠ u ∧ m.holder lifetime token a.now ≠ some u
  | _ => False

variable [DecidableEq L]

instance (lifetime : ℤ) (u : L) (m : State L P T X) (a : Asked L P T X) :
    Decidable (Apart lifetime u m a) := by
  unfold Apart
  split <;> infer_instance

/-- What has been asked, without the requests that `u` has no part in. -/
def concerning (lifetime : ℤ) (u : L) (m : State L P T X) (a : Asked L P T X) :
    List (Asked L P T X) :=
  if Apart lifetime u m a then [] else [a]

def ofUser (u : L) (x : Letter L X) : Bool := decide (x.sender = u) || decide (x.recipient = u)

/-- Two states that differ in the friends and letters of others at most. -/
structure Alike (u : L) (m m' : State L P T X) : Prop where
  accounts : m'.accounts = m.accounts
  grants : m'.grants = m.grants
  friends : ∀ x, m'.friends s(u, x) = m.friends s(u, x)
  letters : m'.letters.filter (ofUser u) = m.letters.filter (ofUser u)

variable {u : L} {m m' : State L P T X} {lifetime : ℤ} {a : Asked L P T X}

theorem Alike.refl (u : L) (m : State L P T X) : Alike u m m := ⟨rfl, rfl, fun _ => rfl, rfl⟩

theorem Alike.holder (h : Alike u m m') (token : T) (now : ℤ) :
    m'.holder lifetime token now = m.holder lifetime token now := by
  rw [State.holder, State.holder, h.grants]

theorem Alike.registered_iff (h : Alike u m m') (login : L) :
    m'.Registered login ↔ m.Registered login := by
  rw [State.Registered, State.Registered, h.accounts]

theorem apart_iff (h : Alike u m m') : Apart lifetime u m' a ↔ Apart lifetime u m a := by
  unfold Apart
  split <;> simp only [h.holder]

/-- A pair in which `u` is one of the two. -/
theorem Alike.pair (h : Alike u m m') {x y : L} (hu : x = u ∨ y = u) :
    m'.friends s(x, y) = m.friends s(x, y) := by
  rcases hu with rfl | rfl
  · exact h.friends y
  · rw [Sym2.eq_swap]
    exact h.friends x

theorem Alike.exec (h : Alike u m m') {c : Command L} (hu : c.actor = u ∨ c.peer = u) (x : L) :
    c.exec m'.friends s(u, x) = c.exec m.friends s(u, x) := by
  have hpair : m'.friends c.pair = m.friends c.pair := h.pair hu
  have henabled : c.Enabled m'.friends ↔ c.Enabled m.friends := by
    rw [Command.Enabled, Command.Enabled, hpair]
  unfold Command.exec
  by_cases hc : c.Enabled m.friends
  · rw [if_pos hc, if_pos (henabled.mpr hc)]
    by_cases hx : s(u, x) = c.pair
    · rw [hx, Function.update_self, Function.update_self]
    · rw [Function.update_of_ne hx, Function.update_of_ne hx]
      exact h.friends x
  · rw [if_neg hc, if_neg (henabled.not.mpr hc)]
    exact h.friends x

theorem filter_fetched (u login : L) (letters : List (Letter L X)) :
    (letters.map fun x => if x.recipient = login then { x with waiting := false } else x).filter
        (ofUser u) =
      (letters.filter (ofUser u)).map fun x =>
        if x.recipient = login then { x with waiting := false } else x := by
  rw [List.filter_map]
  congr 1
  refine List.filter_congr fun x _ => ?_
  simp only [Function.comp, ofUser]
  split <;> rfl

theorem part_of_not_apart {token : T} {operation : FriendOperation} {login target : L}
    (ha : a.request = .befriend token operation target)
    (hholder : m.holder lifetime token a.now = some login) (h : ¬ Apart lifetime u m a) :
    login = u ∨ target = u := by
  simp only [Apart, ha, hholder, ne_eq, Option.some.injEq, not_and, not_not] at h
  by_cases htarget : target = u
  · exact Or.inr htarget
  · exact Or.inl (h htarget)

theorem part_of_not_apart_write {token : T} {login recipient : L} {text : X}
    (ha : a.request = .write token recipient text)
    (hholder : m.holder lifetime token a.now = some login) (h : ¬ Apart lifetime u m a) :
    login = u ∨ recipient = u := by
  simp only [Apart, ha, hholder, ne_eq, Option.some.injEq, not_and, not_not] at h
  by_cases hrecipient : recipient = u
  · exact Or.inr hrecipient
  · exact Or.inl (h hrecipient)

variable [DecidableEq P]

/-- What concerns `u` is answered alike. -/
theorem Alike.reply (h : Alike u m m') (hpart : ¬ Apart lifetime u m a) :
    m'.reply lifetime a = m.reply lifetime a := by
  cases hrequest : a.request with
  | register login password => simp only [State.reply, hrequest, h.registered_iff]
  | login login password => simp only [State.reply, hrequest, h.accounts]
  | present token => simp only [State.reply, hrequest, h.holder]
  | logout token => simp only [State.reply, hrequest]
  | befriend token operation target =>
    simp only [State.reply, hrequest, h.holder]
    cases hholder : m.holder lifetime token a.now with
    | none => rfl
    | some login =>
      have hu := part_of_not_apart hrequest hholder hpart
      obtain ⟨hactor, hpeer⟩ := operation.ends login target
      have hpair : m'.friends (operation.command login target).pair =
          m.friends (operation.command login target).pair := by
        rw [Command.pair, hactor, hpeer]
        exact h.pair hu
      have henabled : (operation.command login target).Enabled m'.friends ↔
          (operation.command login target).Enabled m.friends := by
        rw [Command.Enabled, Command.Enabled, hpair]
      simp only [h.registered_iff, henabled]
  | write token recipient text =>
    simp only [State.reply, hrequest, h.holder]
    cases hholder : m.holder lifetime token a.now with
    | none => rfl
    | some login =>
      have hu := part_of_not_apart_write hrequest hholder hpart
      simp only [h.registered_iff, h.pair hu]
  | fetch login => simp only [State.reply, hrequest]

variable [DecidableEq T]

/-- What concerns `u` does the same in both. -/
theorem Alike.step (h : Alike u m m') (hpart : ¬ Apart lifetime u m a) :
    Alike u (m.step lifetime a) (m'.step lifetime a) := by
  cases hrequest : a.request with
  | register login password =>
    simp only [State.step, hrequest, h.registered_iff]
    split
    · exact h
    · refine ⟨?_, ?_, h.friends, h.letters⟩
      · simp only [State.grant, h.accounts]
      · simp only [State.grant, h.grants]
  | login login password =>
    simp only [State.step, hrequest, h.accounts]
    split
    · exact ⟨h.accounts, by simp only [State.grant, h.grants], h.friends, h.letters⟩
    · exact h
  | present token =>
    simp only [State.step, hrequest]
    exact h
  | logout token =>
    simp only [State.step, hrequest]
    exact ⟨h.accounts, by simp only [State.revoke, h.grants], h.friends, h.letters⟩
  | befriend token operation target =>
    simp only [State.step, hrequest, h.holder]
    cases hholder : m.holder lifetime token a.now with
    | none => exact h
    | some login =>
      have hu := part_of_not_apart hrequest hholder hpart
      simp only [h.registered_iff]
      split
      · obtain ⟨hactor, hpeer⟩ := operation.ends login target
        refine ⟨h.accounts, h.grants, h.exec ?_, h.letters⟩
        rw [hactor, hpeer]
        exact hu
      · exact h
  | write token recipient text =>
    simp only [State.step, hrequest, h.holder]
    cases hholder : m.holder lifetime token a.now with
    | none => exact h
    | some login =>
      have hu := part_of_not_apart_write hrequest hholder hpart
      simp only [h.registered_iff, h.pair hu]
      split
      · exact ⟨h.accounts, h.grants, h.friends, by rw [List.filter_append, List.filter_append,
          h.letters]⟩
      · exact h
  | fetch login =>
    simp only [State.step, hrequest, State.fetched]
    exact ⟨h.accounts, h.grants, h.friends, by rw [filter_fetched, filter_fetched, h.letters]⟩

/-- What does not concern `u` can be left out. -/
theorem Alike.apart (h : Alike u m m') (hapart : Apart lifetime u m a) :
    Alike u (m.step lifetime a) m' := by
  cases hrequest : a.request with
  | befriend token operation target =>
    simp only [Apart, hrequest] at hapart
    simp only [State.step, hrequest]
    cases hholder : m.holder lifetime token a.now with
    | none => exact h
    | some login =>
      rw [hholder] at hapart
      have hlogin : login ≠ u := fun hsame => hapart.2 (congrArg some hsame)
      simp only
      split
      · refine ⟨h.accounts, h.grants, fun x => ?_, h.letters⟩
        obtain ⟨hactor, hpeer⟩ := operation.ends login target
        have hne : s(u, x) ≠ (operation.command login target).pair := by
          rw [Command.pair, hactor, hpeer]
          intro hsame
          rcases Sym2.eq_iff.mp hsame with ⟨rfl, -⟩ | ⟨rfl, -⟩
          · exact hlogin rfl
          · exact hapart.1 rfl
        simp only [exec_of_ne hne]
        exact h.friends x
      · exact h
  | write token recipient text =>
    simp only [Apart, hrequest] at hapart
    simp only [State.step, hrequest]
    cases hholder : m.holder lifetime token a.now with
    | none => exact h
    | some login =>
      rw [hholder] at hapart
      have hlogin : login ≠ u := fun hsame => hapart.2 (congrArg some hsame)
      simp only
      split
      · refine ⟨h.accounts, h.grants, h.friends, ?_⟩
        have hother : ofUser u (⟨login, recipient, text, a.later, true⟩ : Letter L X) = false := by
          simp only [ofUser, hlogin, hapart.1, decide_false, Bool.or_false]
        rw [List.filter_append, List.filter_cons_of_neg (by rw [hother]; decide),
          List.filter_nil, List.append_nil]
        exact h.letters
      · exact h
  | register _ _ | login _ _ | present _ | logout _ | fetch _ =>
    simp only [Apart, hrequest] at hapart

theorem simulates_concerning (lifetime : ℤ) (u : L) :
    Simulations.Simulates (State.step (L := L) (P := P) (T := T) (X := X) lifetime)
      (State.step lifetime) (concerning lifetime u) (fun _ _ => True) (Alike u) := by
  intro m a m' h _
  unfold concerning
  by_cases hapart : Apart lifetime u m a
  · rw [if_pos hapart]
    exact h.apart hapart
  · rw [if_neg hapart]
    exact h.step hapart

end

section

variable {L P T X : Type*} [DecidableEq L] {u : L} {m m' : State L P T X}

theorem Alike.showsFriends (h : Alike u m m') {friends asking : List L}
    (hshows : ShowsFriends m u friends asking) : ShowsFriends m' u friends asking where
  friendsOnce := hshows.friendsOnce
  askingOnce := hshows.askingOnce
  friend x := by
    rw [h.friends x]
    exact hshows.friend x
  asker x := by
    rw [h.friends x]
    exact hshows.asker x

theorem filter_of_ofUser {p : Letter L X → Bool} (hp : ∀ x, p x = true → ofUser u x = true)
    (letters : List (Letter L X)) :
    letters.filter p = (letters.filter (ofUser u)).filter p := by
  rw [List.filter_filter]
  refine List.filter_congr fun x _ => ?_
  cases hx : p x with
  | false => rw [Bool.false_and]
  | true => rw [Bool.true_and, hp x hx]

theorem Alike.filter (h : Alike u m m') {p : Letter L X → Bool}
    (hp : ∀ x, p x = true → ofUser u x = true) : m'.letters.filter p = m.letters.filter p := by
  rw [filter_of_ofUser hp, filter_of_ofUser hp m.letters, h.letters]

theorem Alike.tellsBeginning (h : Alike u m m') {peer : L} {n : ℕ} {shown : List (Letter L X)}
    (htells : TellsBeginning m u peer n shown) : TellsBeginning m' u peer n shown := by
  have hsame : m'.conversation u peer = m.conversation u peer := by
    refine h.filter fun x hx => ?_
    simp only [ofUser, Bool.or_eq_true, decide_eq_true_eq]
    rcases of_decide_eq_true hx with ⟨hsender, -⟩ | ⟨-, hrecipient⟩
    · exact Or.inl hsender
    · exact Or.inr hrecipient
  obtain ⟨told, hperm, hrest⟩ := htells
  exact ⟨told, hsame ▸ hperm, hrest⟩

theorem Alike.mem_letters (h : Alike u m m') {x : Letter L X}
    (hx : x.sender = u ∨ x.recipient = u) : x ∈ m'.letters ↔ x ∈ m.letters := by
  have hmine : ofUser u x = true := by
    simp only [ofUser, Bool.or_eq_true, decide_eq_true_eq]
    exact hx
  have hmem : x ∈ m'.letters.filter (ofUser u) ↔ x ∈ m.letters.filter (ofUser u) := by
    rw [h.letters]
  simpa only [List.mem_filter, hmine, and_true] using hmem

theorem Alike.showsChats (h : Alike u m m') {shown : List (Letter L X)}
    (hshows : ShowsChats m u shown) : ShowsChats m' u shown where
  own x hx := by
    obtain ⟨hmem, hmine⟩ := hshows.own x hx
    exact ⟨(h.mem_letters hmine).mpr hmem, hmine⟩
  once := hshows.once
  complete y hy hmine := hshows.complete y ((h.mem_letters hmine).mp hy) hmine
  order := hshows.order

theorem Alike.handsWaiting (h : Alike u m m') {shown : List (Letter L X)}
    (hhands : HandsWaiting m u shown) : HandsWaiting m' u shown := by
  refine ⟨?_, hhands.2⟩
  rw [h.filter fun x hx => ?_]
  · exact hhands.1
  · simp only [Bool.and_eq_true, decide_eq_true_eq] at hx
    simp only [ofUser, hx.1, decide_true, Bool.or_true]

end

open Outcomes ClientSession HandlePacket ServerSteps TokenIdentity Representations Refinement
  PlainReadings

/-- The state that the plain messenger reaches when nobody asks it what `u` has no part in. -/
def playedFor (env : Env) (files : ℕ → Option Bytes) (u : Bytes) (events : List Event) : Plain :=
  LabelledRuns.run (State.step tokenTtl) State.new
    (Simulations.shownRun (State.step tokenTtl) (concerning tokenTtl u) State.new
      (Simulations.shownRun (World.step env) (shown env) (World.initial env files) events))

theorem alike_played (env : Env) (files : ℕ → Option Bytes) (u : Bytes) (events : List Event) :
    Alike u (played env files events) (playedFor env files u events) :=
  (simulates_concerning tokenTtl u).run (.refl u State.new) (LabelledRuns.along_true _ _)

/-- What one user is answered, shown and handed on a connection. -/
structure ToldFrom (env : Env) (w : World) (m : Plain) (u : Bytes) (c : ConnId) : Prop where
  answer : ∀ packetType body r, NulFreeLogin packetType body →
    AnsweredWith env w c packetType body r →
    ∃ q, plainRequest packetType body = some q ∧
      (¬ Apart tokenTtl u m (ask env w.store q) →
        Replied (m.reply tokenTtl (ask env w.store q)) r)
  friends : ∀ body req, deserialize FriendListRequest body = .ok req →
    m.holder tokenTtl req.token (env.clock w.store.clockReads) = some u →
    ∃ friends asking, AnsweredWith env w c .friendList body
        (.friendList ⟨friends, asking, Error.Base.ok⟩) ∧
      ShowsFriends m u friends asking
  history : ∀ body req, deserialize HistoryRequest body = .ok req →
    m.holder tokenTtl req.token (env.clock w.store.clockReads) = some u →
    m.Registered req.peerLogin →
    ∃ shown, AnsweredWith env w c .messageHistory body
        (.history ⟨shown.map historyLine, Error.Base.ok⟩) ∧
      TellsBeginning m u req.peerLogin 100 shown
  chats : ∀ body req, deserialize ChatListRequest body = .ok req →
    m.holder tokenTtl req.token (env.clock w.store.clockReads) = some u →
    ∃ shown, AnsweredWith env w c .chatList body
        (.chatList ⟨shown.map (chatLine u), Error.Base.ok⟩) ∧
      ShowsChats m u shown
  welcome : ∀ packetType body w', NulFreeLogin packetType body →
    authenticatesAs env w packetType body = some u →
    (handlePacket env c packetType body).run w = .ok () w' →
    ∃ (shown : List (Letter Bytes Bytes)) (new : List Sent) (r : Response),
      HandsWaiting m u shown ∧ w'.sent = w.sent ++ new ∧
      new.map (fun p => (p.conn, p.packetType, p.body)) =
        shown.map (letterPacket c) ++ [(c, .result, r.serialize)]

/-- After every run, what a user is answered, reads and is welcomed with is what the plain
messenger tells when only the requests that concern the user have been made. -/
theorem told_without_others (env : Env) (hclock : Monotone env.clock)
    (hsha : Function.Injective (sha256 env)) (files : ℕ → Option Bytes) (events : List Event)
    (hnul : ∀ e ∈ events, NulFreeEvent e) (u : Bytes) (c : ConnId)
    (hlive : ((LabelledRuns.run (World.step env) (World.initial env files) events).sessions
      c).isSome) :
    ToldFrom env (LabelledRuns.run (World.step env) (World.initial env files) events)
      (playedFor env files u events) u c := by
  have h := represents_run hclock hsha files hnul
  have halike := alike_played env files u events
  generalize LabelledRuns.run (World.step env) (World.initial env files) events = w at h hlive ⊢
  generalize played env files events = m at h halike
  generalize playedFor env files u events = m' at halike ⊢
  constructor
  · intro packetType body r hfree hanswered
    obtain ⟨q, hq, hreplied⟩ := replied_of_answered hclock hsha h hlive hfree hanswered
    refine ⟨q, hq, fun hpart => ?_⟩
    have hpart' : ¬ Apart tokenTtl u m (ask env w.store q) := by
      rwa [← apart_iff halike]
    rw [halike.reply hpart']
    exact hreplied
  · intro body req hreq hholder
    rw [halike.holder] at hholder
    obtain ⟨friends, asking, hanswered, hshows⟩ := friends_read hclock h hlive hreq hholder
    exact ⟨friends, asking, hanswered, halike.showsFriends hshows⟩
  · intro body req hreq hholder hpeer
    rw [halike.holder] at hholder
    rw [halike.registered_iff] at hpeer
    obtain ⟨shown, hanswered, htells⟩ := history_read hclock h hlive hreq hholder hpeer
    exact ⟨shown, hanswered, halike.tellsBeginning htells⟩
  · intro body req hreq hholder
    rw [halike.holder] at hholder
    obtain ⟨shown, hanswered, hshows⟩ := chats_read hclock h hlive hreq hholder
    exact ⟨shown, hanswered, halike.showsChats hshows⟩
  · intro packetType body w' hfree hlogin hrun
    obtain ⟨shown, new, r, hwaits, hsent⟩ :=
      welcome_read hclock hsha h hlive hfree hlogin hrun
    exact ⟨shown, new, r, halike.handsWaiting hwaits, hsent⟩

/-- "b" comes when "a" and "c" are friends already. -/
def threeUsers : List Event := twoFriends ++ [.connect, registerEvent 2 [98]]

theorem told_without_others_threeUsers :
    (playedFor Env.plain (fun _ => none) [98] threeUsers).friends s([97], [99]) = .none ∧
    ∃ friends asking, AnsweredWith Env.plain
        (LabelledRuns.run (World.step Env.plain) (World.initial Env.plain fun _ => none) threeUsers)
        2 .friendList (serialize (FriendListRequest.mk [97, 97, 97, 97, 97, 97]))
        (.friendList ⟨friends, asking, Error.Base.ok⟩) ∧
      ShowsFriends (playedFor Env.plain (fun _ => none) [98] threeUsers) [98] friends asking :=
  ⟨by decide, (told_without_others Env.plain clock_plain_monotone
    Registrations.sha256_plain_injective (fun _ => none) threeUsers (by decide) [98] 2
    (by decide)).friends _ ⟨[97, 97, 97, 97, 97, 97]⟩ rfl (by decide)⟩

end Messenger.Bystanders
