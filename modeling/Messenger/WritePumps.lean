import Messenger.LabelledRuns
import Mathlib.Algebra.GroupWithZero.Nat
import Mathlib.Data.List.Infix

/-!
The usual way to write to a stream from an event loop: items are posted to the loop,
wait in a queue, and are written one at a time, the next one when the last write has
completed. A write puts its symbols on the wire bit by bit and may fail at any point;
the stream is then closed. Whatever the schedule, at most one write is outstanding and
the wire carries a prefix of the items in the order they were posted.
-/
namespace Messenger.WritePumps

/-- `sent` records every item ever posted; `writes` holds what each outstanding write
still has to transmit. -/
structure Pump (α β : Type) where
  sent : List α
  posted : List α
  writeQueue : List α
  writes : List (List β)
  wire : List β
  closed : Bool

namespace Pump

variable {α β : Type} (encode : α → List β)

def new : Pump α β := ⟨[], [], [], [], [], false⟩

def post (p : Pump α β) (x : α) : Pump α β :=
  { p with sent := p.sent ++ [x], posted := p.posted ++ [x] }

/-- Start to write the item at the front. -/
def doWrite (p : Pump α β) : Pump α β :=
  match p.writeQueue with
  | [] => p
  | x :: _ => { p with writes := p.writes ++ [encode x] }

/-- The loop runs the oldest posted handler, which writes only if the queue was empty. -/
def runPosted (p : Pump α β) : Pump α β :=
  match p.posted with
  | [] => p
  | x :: rest =>
    let queued := { p with posted := rest, writeQueue := p.writeQueue ++ [x] }
    if p.writeQueue.isEmpty then queued.doWrite encode else queued

/-- An outstanding write puts up to `count` more symbols on the wire. -/
def transmit (p : Pump α β) (write count : ℕ) : Pump α β :=
  match p.writes[write]? with
  | none => p
  | some left =>
    if p.closed then p
    else
      { p with
        writes := p.writes.set write (left.drop count)
        wire := p.wire ++ left.take count }

/-- A write that has transmitted all its symbols completes. -/
def writeDone (p : Pump α β) (write : ℕ) : Pump α β :=
  match p.writes[write]? with
  | some [] =>
    if p.closed then p
    else
      let popped :=
        { p with writes := p.writes.eraseIdx write, writeQueue := p.writeQueue.tail }
      if popped.writeQueue.isEmpty then popped else popped.doWrite encode
  | _ => p

/-- A write fails and closes the stream; the queue stays as it is. -/
def writeFailed (p : Pump α β) (write : ℕ) : Pump α β :=
  if write < p.writes.length then { p with writes := p.writes.eraseIdx write, closed := true }
  else p

end Pump

/-- What the loop and the stream do between two posts. -/
inductive PumpEvent where
  | runPosted
  | transmit (write count : ℕ)
  | writeDone (write : ℕ)
  | writeFailed (write : ℕ)
deriving DecidableEq, Repr

namespace Pump

variable {α β : Type} (encode : α → List β)

def step (p : Pump α β) : PumpEvent → Pump α β
  | .runPosted => p.runPosted encode
  | .transmit write count => p.transmit write count
  | .writeDone write => p.writeDone encode write
  | .writeFailed write => p.writeFailed write

end Pump

/-- Items stay recorded, what is on the wire stays there, and closed stays closed. -/
structure Pump.Extends {α β : Type} (p q : Pump α β) : Prop where
  sent : q.sent = p.sent
  wire : p.wire <+: q.wire
  closed : p.closed = true → q.closed = true

theorem Pump.extends_self {α β : Type} (p : Pump α β) : p.Extends p :=
  ⟨rfl, List.prefix_rfl, id⟩

theorem Pump.extends_doWrite {α β : Type} (encode : α → List β) {p q : Pump α β}
    (h : p.Extends q) : p.Extends (q.doWrite encode) := by
  unfold Pump.doWrite
  split
  · exact h
  · exact ⟨h.sent, h.wire, h.closed⟩

theorem Pump.extends_step {α β : Type} (encode : α → List β) (p : Pump α β) (e : PumpEvent) :
    p.Extends (p.step encode e) := by
  cases e with
  | runPosted =>
    simp only [Pump.step, Pump.runPosted]
    split
    · exact p.extends_self
    · split
      · exact extends_doWrite encode ⟨rfl, List.prefix_rfl, id⟩
      · exact ⟨rfl, List.prefix_rfl, id⟩
  | transmit write count =>
    simp only [Pump.step, Pump.transmit]
    split
    · exact p.extends_self
    · split
      · exact p.extends_self
      · exact ⟨rfl, List.prefix_append _ _, id⟩
  | writeDone write =>
    simp only [Pump.step, Pump.writeDone]
    split
    · split
      · exact p.extends_self
      · split
        · exact ⟨rfl, List.prefix_rfl, id⟩
        · exact extends_doWrite encode ⟨rfl, List.prefix_rfl, id⟩
    · exact p.extends_self
  | writeFailed write =>
    simp only [Pump.step, Pump.writeFailed]
    split
    · exact ⟨rfl, List.prefix_rfl, fun _ => rfl⟩
    · exact p.extends_self

section

variable {α β : Type} {encode : α → List β}

/-- The writing end: at rest, or with the front item partly on the wire; after a failure
no write is outstanding and the queue never empties. -/
inductive Writing (encode : α → List β) (p : Pump α β) (done : List α) : Prop where
  | idle (hopen : p.closed = false) (hqueue : p.writeQueue = []) (hwrites : p.writes = [])
      (hwire : p.wire = done.flatMap encode)
  | busy (x : α) (rest : List α) (written left : List β) (hqueue : p.writeQueue = x :: rest)
      (hsplit : encode x = written ++ left)
      (hwrites : p.writes = if p.closed then [] else [left])
      (hwire : p.wire = done.flatMap encode ++ written)

/-- Everything posted is done, in the queue or still posted, in this order. -/
structure Pumping (encode : α → List β) (p : Pump α β) (done : List α) : Prop where
  order : p.sent = done ++ p.writeQueue ++ p.posted
  writing : Writing encode p done

theorem pumping_new : Pumping encode (Pump.new : Pump α β) [] :=
  ⟨rfl, .idle rfl rfl rfl rfl⟩

/-- At most one write is outstanding. -/
theorem Pumping.one_write {p : Pump α β} {done : List α} (h : Pumping encode p done) :
    p.writes.length ≤ 1 := by
  cases h.writing with
  | idle _ _ hwrites _ =>
    rw [hwrites]
    exact Nat.zero_le _
  | busy x rest written left _ _ hwrites _ =>
    rw [hwrites]
    split
    · exact Nat.zero_le _
    · exact le_rfl

theorem Pumping.post {p : Pump α β} {done : List α} (h : Pumping encode p done) (x : α) :
    Pumping encode (p.post x) done := by
  refine ⟨?_, ?_⟩
  · simp only [Pump.post, h.order, List.append_assoc]
  · cases h.writing with
    | idle hopen hqueue hwrites hwire => exact .idle hopen hqueue hwrites hwire
    | busy y rest written left hqueue hsplit hwrites hwire =>
      exact .busy y rest written left hqueue hsplit hwrites hwire

theorem Pumping.runPosted {p : Pump α β} {done : List α} (h : Pumping encode p done) :
    Pumping encode (p.runPosted encode) done := by
  unfold Pump.runPosted
  cases hposted : p.posted with
  | nil => exact h
  | cons x rest =>
    have horder : p.sent = done ++ (p.writeQueue ++ [x]) ++ rest := by
      rw [h.order, hposted]
      simp only [List.append_assoc, List.singleton_append]
    cases h.writing with
    | idle hopen hqueue hwrites hwire =>
      simp only [hqueue, List.isEmpty_nil, if_true, List.nil_append, Pump.doWrite, hwrites]
      refine ⟨?_, .busy x [] [] (encode x) rfl rfl ?_ ?_⟩
      · rw [hqueue] at horder
        exact horder
      · simp only [hopen, Bool.false_eq_true, if_false]
      · simp only [hwire, List.append_nil]
    | busy y ys written left hqueue hsplit hwrites hwire =>
      simp only [hqueue, List.isEmpty_cons, Bool.false_eq_true, if_false, List.cons_append]
      refine ⟨?_, .busy y (ys ++ [x]) written left rfl hsplit hwrites hwire⟩
      rw [hqueue] at horder
      exact horder

theorem Pumping.transmit {p : Pump α β} {done : List α} (h : Pumping encode p done)
    (write count : ℕ) : Pumping encode (p.transmit write count) done := by
  unfold Pump.transmit
  cases hwrite : p.writes[write]? with
  | none => exact h
  | some left' =>
    by_cases hclosed : p.closed
    · simp only [hclosed, if_true]
      exact h
    · cases h.writing with
      | idle _ _ hwrites _ =>
        rw [hwrites] at hwrite
        cases hwrite
      | busy x rest written left hqueue hsplit hwrites hwire =>
        rw [if_neg hclosed] at hwrites
        obtain ⟨rfl, rfl⟩ : write = 0 ∧ left = left' := by
          rw [hwrites] at hwrite
          cases write with
          | zero => exact ⟨rfl, Option.some.inj hwrite⟩
          | succ n => cases hwrite
        simp only [if_neg hclosed, hwrites, List.set_cons_zero]
        refine ⟨h.order,
          .busy x rest (written ++ left.take count) (left.drop count) hqueue ?_ ?_ ?_⟩
        · rw [hsplit, List.append_assoc, List.take_append_drop]
        · simp only [hclosed, Bool.false_eq_true, if_false]
        · simp only [hwire, List.append_assoc]

/-- Completion is the only event that adds to what is done. -/
theorem Pumping.writeDone {p : Pump α β} {done : List α} (h : Pumping encode p done)
    (write : ℕ) : ∃ done', Pumping encode (p.writeDone encode write) done' := by
  unfold Pump.writeDone
  split
  · rename_i hwrite
    by_cases hclosed : p.closed
    · rw [if_pos hclosed]
      exact ⟨done, h⟩
    · rw [if_neg hclosed]
      cases h.writing with
      | idle _ _ hwrites _ =>
        rw [hwrites] at hwrite
        cases hwrite
      | busy x rest written left hqueue hsplit hwrites hwire =>
        rw [if_neg hclosed] at hwrites
        obtain ⟨rfl, rfl⟩ : write = 0 ∧ left = [] := by
          rw [hwrites] at hwrite
          cases write with
          | zero => exact ⟨rfl, Option.some.inj hwrite⟩
          | succ n => cases hwrite
        have hwire' : p.wire = (done ++ [x]).flatMap encode := by
          rw [hwire, List.flatMap_append, List.flatMap_singleton, hsplit, List.append_nil]
        have horder : p.sent = (done ++ [x]) ++ rest ++ p.posted := by
          rw [h.order, hqueue]
          simp only [List.append_assoc, List.cons_append, List.nil_append]
        have hopen : p.closed = false := by simpa using hclosed
        refine ⟨done ++ [x], ?_⟩
        simp only [hqueue, hwrites, List.eraseIdx_cons_zero, List.tail_cons]
        cases rest with
        | nil => exact ⟨horder, .idle hopen rfl rfl hwire'⟩
        | cons y ys =>
          simp only [List.isEmpty_cons, Bool.false_eq_true, if_false, Pump.doWrite]
          refine ⟨horder, .busy y ys [] (encode y) rfl rfl ?_ ?_⟩
          · simp only [hopen, Bool.false_eq_true, if_false, List.nil_append]
          · simp only [hwire', List.append_nil]
  · exact ⟨done, h⟩

theorem Pumping.writeFailed {p : Pump α β} {done : List α} (h : Pumping encode p done)
    (write : ℕ) : Pumping encode (p.writeFailed write) done := by
  unfold Pump.writeFailed
  split
  · rename_i hlt
    refine ⟨h.order, ?_⟩
    cases h.writing with
    | idle _ _ hwrites _ =>
      rw [hwrites] at hlt
      exact absurd hlt (Nat.not_lt_zero _)
    | busy x rest written left hqueue hsplit hwrites hwire =>
      refine .busy x rest written left hqueue hsplit ?_ hwire
      have hshort : p.writes.length ≤ 1 := h.one_write
      have hlength := List.length_eraseIdx_of_lt hlt
      have hnone : p.writes.eraseIdx write = [] := List.eq_nil_of_length_eq_zero (by omega)
      simp only [hnone, if_true]
  · exact h

theorem Pumping.step {p : Pump α β} {done : List α} (h : Pumping encode p done)
    (e : PumpEvent) : ∃ done', Pumping encode (p.step encode e) done' := by
  cases e with
  | runPosted => exact ⟨done, h.runPosted⟩
  | transmit write count => exact ⟨done, h.transmit write count⟩
  | writeDone write => exact h.writeDone write
  | writeFailed write => exact ⟨done, h.writeFailed write⟩

theorem Pumping.wire_prefix {p : Pump α β} {done : List α} (h : Pumping encode p done) :
    p.wire <+: p.sent.flatMap encode := by
  rw [h.order]
  cases h.writing with
  | idle _ hqueue _ hwire =>
    rw [hwire, hqueue, List.append_nil, List.flatMap_append]
    exact List.prefix_append _ _
  | busy x rest written left hqueue hsplit _ hwire =>
    rw [hwire, hqueue]
    simp only [List.flatMap_append, List.flatMap_cons, hsplit, List.append_assoc]
    exact (List.prefix_append_right_inj _).mpr (List.prefix_append _ _)

/-- With nothing posted and no write outstanding, an open stream has carried it all. -/
theorem Pumping.wire_complete {p : Pump α β} {done : List α} (h : Pumping encode p done)
    (hopen : p.closed = false) (hposted : p.posted = []) (hwrites : p.writes = []) :
    p.wire = p.sent.flatMap encode := by
  cases h.writing with
  | idle _ hqueue _ hwire =>
    rw [hwire, h.order, hqueue, hposted, List.append_nil, List.append_nil]
  | busy x rest written left _ _ hbusy _ =>
    rw [hopen, hwrites] at hbusy
    cases hbusy

end

section

variable {α β : Type} (encode : α → List β)

/-- The items whose encodings lie within the first `n` symbols. -/
def carried : List α → ℕ → List α
  | [], _ => []
  | x :: rest, n =>
    if (encode x).length ≤ n then x :: carried rest (n - (encode x).length) else []

theorem carried_mono_left (xs ys : List α) (n : ℕ) :
    carried encode xs n <+: carried encode (xs ++ ys) n := by
  induction xs generalizing n with
  | nil => exact List.nil_prefix
  | cons x rest ih =>
    simp only [List.cons_append, carried]
    split
    · exact List.cons_prefix_cons.mpr ⟨rfl, ih _⟩
    · exact List.prefix_rfl

theorem carried_mono_right (xs : List α) {m n : ℕ} (h : m ≤ n) :
    carried encode xs m <+: carried encode xs n := by
  induction xs generalizing m n with
  | nil => exact List.prefix_rfl
  | cons x rest ih =>
    simp only [carried]
    by_cases hm : (encode x).length ≤ m
    · rw [if_pos hm, if_pos (hm.trans h)]
      exact List.cons_prefix_cons.mpr ⟨rfl, ih (Nat.sub_le_sub_right h _)⟩
    · rw [if_neg hm]
      exact List.nil_prefix

theorem encode_carried_isPrefix (xs : List α) {wire : List β}
    (hwire : wire <+: xs.flatMap encode) :
    (carried encode xs wire.length).flatMap encode <+: wire := by
  induction xs generalizing wire with
  | nil => exact List.nil_prefix
  | cons x rest ih =>
    simp only [carried]
    split
    · rename_i hle
      rw [List.flatMap_cons] at hwire
      obtain ⟨tail, rfl⟩ : encode x <+: wire :=
        List.prefix_of_prefix_length_le (List.prefix_append _ _) hwire hle
      have htail := ih ((List.prefix_append_right_inj _).mp hwire)
      rw [List.length_append, Nat.add_sub_cancel_left, List.flatMap_cons]
      exact (List.prefix_append_right_inj _).mpr htail
    · exact List.nil_prefix

/-- The items that a pump has wholly put on the wire. -/
def Pump.carried (p : Pump α β) : List α := WritePumps.carried encode p.sent p.wire.length

/-- What is on the wire stays there, whatever is posted and written later. -/
theorem Pump.carried_mono {p q : Pump α β} (hsent : p.sent <+: q.sent)
    (hwire : p.wire <+: q.wire) : p.carried encode <+: q.carried encode := by
  obtain ⟨more, hmore⟩ := hsent
  unfold Pump.carried
  rw [← hmore]
  exact (carried_mono_left encode p.sent more _).trans
    (carried_mono_right encode _ hwire.length_le)

/-- The symbols of these items are on the wire. -/
theorem Pumping.carried_onWire {p : Pump α β} {done : List α} (h : Pumping encode p done) :
    (p.carried encode).flatMap encode <+: p.wire :=
  encode_carried_isPrefix encode p.sent h.wire_prefix

theorem Pump.foldl_post (p : Pump α β) (items : List α) :
    (items.foldl Pump.post p).sent = p.sent ++ items ∧ (items.foldl Pump.post p).wire = p.wire := by
  induction items generalizing p with
  | nil => exact ⟨(List.append_nil _).symm, rfl⟩
  | cons x rest ih =>
    obtain ⟨hsent, hwire⟩ := ih (p.post x)
    refine ⟨?_, hwire⟩
    rw [List.foldl_cons, hsent, Pump.post, List.append_assoc, List.singleton_append]

theorem Pumping.foldl_post {p : Pump α β} {done : List α} (h : Pumping encode p done)
    (items : List α) : Pumping encode (items.foldl Pump.post p) done := by
  induction items generalizing p with
  | nil => exact h
  | cons x rest ih => exact ih (h.post x)

end

def PumpEvent.fails : PumpEvent → Bool
  | .writeFailed _ => true
  | _ => false

section

variable {α β : Type} (encode : α → List β)

/-- Every symbol that is not on the wire counts, every write that has not completed, and
every item that is still posted. -/
def Pump.work (p : Pump α β) : ℕ :=
  (p.posted.map fun x => (encode x).length + 2).sum +
    (p.writeQueue.tail.map fun x => (encode x).length + 1).sum +
    (p.writes.map fun left => left.length + 1).sum

variable {encode} {p : Pump α β} {done : List α}

theorem Pumping.work_runPosted (h : Pumping encode p done) :
    p.runPosted encode = p ∨
      (p.runPosted encode).work encode < p.work encode ∧
        (p.runPosted encode).wire = p.wire := by
  unfold Pump.runPosted
  cases hposted : p.posted with
  | nil => exact Or.inl rfl
  | cons x rest =>
    refine Or.inr ?_
    cases h.writing with
    | idle hopen hqueue hwrites _ =>
      simp only [hqueue, List.isEmpty_nil, if_true, List.nil_append, Pump.doWrite, hwrites,
        Pump.work, hposted, List.map_cons, List.sum_cons, List.tail_cons, List.tail_nil,
        List.map_nil, List.sum_nil]
      exact ⟨by omega, trivial⟩
    | busy y ys written left hqueue _ _ _ =>
      simp only [hqueue, List.isEmpty_cons, Bool.false_eq_true, if_false, Pump.work, hposted,
        List.cons_append, List.tail_cons, List.map_append, List.sum_append, List.map_cons,
        List.sum_cons, List.map_nil, List.sum_nil]
      exact ⟨by omega, trivial⟩

/-- An open pump that writes, writes the item at the front. -/
theorem Pumping.outstanding (h : Pumping encode p done) (hopen : ¬ p.closed) {write : ℕ}
    {left : List β} (hwrite : p.writes[write]? = some left) :
    write = 0 ∧ p.writes = [left] ∧ ∃ x rest, p.writeQueue = x :: rest := by
  cases h.writing with
  | idle _ _ hwrites _ =>
    rw [hwrites] at hwrite
    cases hwrite
  | busy x rest written left' hqueue _ hwrites _ =>
    rw [if_neg hopen] at hwrites
    rw [hwrites] at hwrite
    cases write with
    | zero =>
      cases hwrite
      exact ⟨rfl, hwrites, x, rest, hqueue⟩
    | succ n => cases hwrite

theorem Pumping.work_transmit (h : Pumping encode p done) (write count : ℕ) :
    p.transmit write count = p ∨
      (p.transmit write count).work encode < p.work encode ∧
        (p.transmit write count).work encode + (p.transmit write count).wire.length =
          p.work encode + p.wire.length := by
  unfold Pump.transmit
  split
  · exact Or.inl rfl
  · rename_i left hwrite
    split
    · exact Or.inl rfl
    · rename_i hopen
      obtain ⟨rfl, hwrites, -⟩ := h.outstanding hopen hwrite
      by_cases hnothing : min count left.length = 0
      · have htake : left.take count = [] :=
          List.eq_nil_of_length_eq_zero (List.length_take.trans hnothing)
        have hdrop : left.drop count = left := by
          have hwhole := List.take_append_drop count left
          rwa [htake, List.nil_append] at hwhole
        refine Or.inl ?_
        simp only [htake, hdrop, hwrites, List.set_cons_zero, List.append_nil]
        rw [← hwrites]
      · refine Or.inr ?_
        simp only [Pump.work, hwrites, List.set_cons_zero, List.map_cons, List.map_nil,
          List.sum_cons, List.sum_nil, List.length_drop, List.length_append, List.length_take]
        omega

theorem Pumping.work_writeDone (h : Pumping encode p done) (write : ℕ) :
    p.writeDone encode write = p ∨
      (p.writeDone encode write).work encode < p.work encode ∧
        (p.writeDone encode write).wire = p.wire := by
  unfold Pump.writeDone
  split
  · rename_i hwrite
    split
    · exact Or.inl rfl
    · rename_i hopen
      obtain ⟨rfl, hwrites, x, rest, hqueue⟩ := h.outstanding hopen hwrite
      refine Or.inr ?_
      simp only [hqueue, hwrites, List.eraseIdx_cons_zero, List.tail_cons]
      cases rest with
      | nil =>
        simp only [List.isEmpty_nil, if_true, Pump.work, hqueue, hwrites, List.tail_cons,
          List.tail_nil, List.map_nil, List.sum_nil, List.map_cons, List.sum_cons]
        exact ⟨by omega, trivial⟩
      | cons y ys =>
        simp only [List.isEmpty_cons, Bool.false_eq_true, if_false, Pump.doWrite, Pump.work,
          hqueue, hwrites, List.tail_cons, List.nil_append, List.map_nil, List.sum_nil,
          List.map_cons, List.sum_cons, List.length_nil]
        exact ⟨by omega, trivial⟩
  · exact Or.inl rfl

/-- A symbol that goes on the wire is worth more before than behind. -/
theorem Pumping.work_step (h : Pumping encode p done) {e : PumpEvent} (he : e.fails = false) :
    p.step encode e = p ∨
      3 * (p.step encode e).work encode + 2 * (p.step encode e).wire.length <
        3 * p.work encode + 2 * p.wire.length := by
  cases e with
  | runPosted =>
    rcases h.work_runPosted with hsame | ⟨hless, hwire⟩
    · exact Or.inl hsame
    · refine Or.inr ?_
      simp only [Pump.step, hwire]
      omega
  | transmit write count =>
    rcases h.work_transmit write count with hsame | ⟨hless, htotal⟩
    · exact Or.inl hsame
    · refine Or.inr ?_
      simp only [Pump.step]
      omega
  | writeDone write =>
    rcases h.work_writeDone write with hsame | ⟨hless, hwire⟩
    · exact Or.inl hsame
    · refine Or.inr ?_
      simp only [Pump.step, hwire]
      omega
  | writeFailed write => cases he

/-- An open pump that does nothing more has nothing to do. -/
theorem Pumping.idle_of_quiet (h : Pumping encode p done) (hopen : p.closed = false)
    (hquiet : ∀ e : PumpEvent, e.fails = false → p.step encode e = p) :
    p.posted = [] ∧ p.writes = [] := by
  constructor
  · by_contra hne
    obtain ⟨x, rest, hposted⟩ := List.exists_cons_of_ne_nil hne
    have hsame := congrArg Pump.posted (hquiet .runPosted rfl)
    simp only [Pump.step, Pump.runPosted, hposted, Pump.doWrite] at hsame
    have hrest : rest = x :: rest := by
      split at hsame
      · split at hsame <;> exact hsame
      · exact hsame
    exact absurd (congrArg List.length hrest) (by simp)
  · cases h.writing with
    | idle _ _ hwrites _ => exact hwrites
    | busy x rest written left hqueue _ hwrites _ =>
      simp only [hopen, Bool.false_eq_true, if_false] at hwrites
      cases left with
      | nil =>
        have hsame := congrArg Pump.writeQueue (hquiet (.writeDone 0) rfl)
        simp only [Pump.step, Pump.writeDone, hwrites, List.getElem?_cons_zero, hopen,
          Bool.false_eq_true, if_false, hqueue, List.tail_cons, Pump.doWrite] at hsame
        have hrest : rest = x :: rest := by
          split at hsame
          · exact hsame
          · split at hsame <;> exact hsame
        exact absurd (congrArg List.length hrest) (by simp)
      | cons b left =>
        have hsame := congrArg Pump.wire (hquiet (.transmit 0 1) rfl)
        simp only [Pump.step, Pump.transmit, hwrites, List.getElem?_cons_zero, hopen,
          Bool.false_eq_true, if_false] at hsame
        exact absurd (congrArg List.length hsame) (by simp)

end

end Messenger.WritePumps
