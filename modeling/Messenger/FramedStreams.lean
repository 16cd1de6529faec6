import Mathlib.Data.List.Infix

/-!
Reading frames off a stream: a header of fixed size tells the tag and the length of the
body behind it. The reading end sees a growing stream that is, at every moment, a prefix
of the frames written; it then delivers a prefix of the items, each once and whole, and
it has delivered them all when the stream carries them all and it can read no further.
Of any stream at all, it delivers the frames up to where no whole frame stands.
-/
namespace Messenger.FramedStreams

/-- The reading end: `header` while it waits for one, `body` once it knows tag and length;
`consumed` symbols of the stream have been taken. -/
inductive Phase (γ : Type) where
  | header
  | body (tag : γ) (length : ℕ)
deriving DecidableEq, Repr

structure Reader (γ β : Type) where
  phase : Phase γ
  consumed : ℕ
  delivered : List (γ × List β)

/-- How items are framed, and how a header is read. -/
structure Framing (α γ β : Type) where
  header : α → List β
  tag : α → γ
  body : α → List β
  headerSize : ℕ
  parseHeader : List β → γ × ℕ

namespace Framing

variable {α γ β : Type} (F : Framing α γ β)

def frame (x : α) : List β := F.header x ++ F.body x

/-- The header of `x` is of the fixed size and read back for what it says. -/
structure Sound (x : α) : Prop where
  size : (F.header x).length = F.headerSize
  parse : F.parseHeader (F.header x) = (F.tag x, (F.body x).length)

end Framing

namespace Reader

variable {α γ β : Type} (F : Framing α γ β)

def new : Reader γ β := ⟨.header, 0, []⟩

/-- A read fills its whole buffer or does not happen yet. -/
def read (r : Reader γ β) (count : ℕ) (stream : List β) : Option (List β) :=
  if r.consumed + count ≤ stream.length then some ((stream.drop r.consumed).take count) else none

def step (r : Reader γ β) (stream : List β) : Reader γ β :=
  match r.phase with
  | .header =>
    match r.read F.headerSize stream with
    | none => r
    | some header =>
      { r with
        phase := .body (F.parseHeader header).1 (F.parseHeader header).2
        consumed := r.consumed + F.headerSize }
  | .body tag length =>
    match r.read length stream with
    | none => r
    | some body =>
      { phase := .header
        consumed := r.consumed + length
        delivered := r.delivered ++ [(tag, body)] }

end Reader

section

variable {α γ β : Type} {F : Framing α γ β}

def item (F : Framing α γ β) (x : α) : γ × List β := (F.tag x, F.body x)

/-- The reader stands behind the frames of `done`, or inside the frame of the next item. -/
inductive Reading (F : Framing α γ β) (items : List α) (r : Reader γ β) : Prop where
  | between (done rest : List α) (hitems : items = done ++ rest) (hphase : r.phase = .header)
      (hconsumed : r.consumed = (done.flatMap F.frame).length)
      (hdelivered : r.delivered = done.map (item F))
  | inside (done : List α) (x : α) (rest : List α) (hitems : items = done ++ x :: rest)
      (hphase : r.phase = .body (F.tag x) (F.body x).length)
      (hconsumed : r.consumed = (done.flatMap F.frame).length + F.headerSize)
      (hdelivered : r.delivered = done.map (item F))

theorem reading_new (items : List α) : Reading F items (Reader.new : Reader γ β) :=
  .between [] items rfl rfl rfl rfl

/-- New items at the end do not concern the reader. -/
theorem Reading.append {items : List α} {r : Reader γ β} (h : Reading F items r)
    (more : List α) : Reading F (items ++ more) r := by
  cases h with
  | between done rest hitems hphase hconsumed hdelivered =>
    exact .between done (rest ++ more) (by rw [hitems, List.append_assoc]) hphase hconsumed
      hdelivered
  | inside done x rest hitems hphase hconsumed hdelivered =>
    refine .inside done x (rest ++ more) ?_ hphase hconsumed hdelivered
    rw [hitems, List.append_assoc, List.cons_append]

/-- What stands at an offset of a prefix is what stands there in the whole. -/
theorem slice_of_prefix {stream pre word post : List β} (hpre : stream <+: pre ++ word ++ post)
    (hlen : pre.length + word.length ≤ stream.length) :
    (stream.drop pre.length).take word.length = word := by
  obtain ⟨tail, rfl⟩ : pre ++ word <+: stream := by
    refine List.prefix_of_prefix_length_le (List.prefix_append _ _) hpre ?_
    rw [List.length_append]
    exact hlen
  rw [List.append_assoc, List.drop_left, List.take_left]

theorem Reading.step {items : List α} {r : Reader γ β} (h : Reading F items r)
    (hsound : ∀ x ∈ items, F.Sound x) (hsize : 0 < F.headerSize) {stream : List β}
    (hstream : stream <+: items.flatMap F.frame) : Reading F items (r.step F stream) := by
  unfold Reader.step
  cases h with
  | between done rest hitems hphase hconsumed hdelivered =>
    rw [hphase]
    simp only [Reader.read, hconsumed]
    by_cases hlen : (done.flatMap F.frame).length + F.headerSize ≤ stream.length
    · rw [if_pos hlen]
      have hle := hstream.length_le
      cases rest with
      | nil =>
        rw [hitems, List.append_nil] at hle
        omega
      | cons x rest =>
        have hx := hsound x (by simp [hitems])
        have hsplit : stream <+: done.flatMap F.frame ++ F.header x ++
            (F.body x ++ rest.flatMap F.frame) := by
          rw [hitems] at hstream
          simpa only [List.flatMap_append, List.flatMap_cons, Framing.frame, List.append_assoc]
            using hstream
        have hheader := slice_of_prefix hsplit (by rw [hx.size]; exact hlen)
        rw [hx.size] at hheader
        simp only [hheader, hx.parse]
        exact .inside done x rest hitems rfl rfl hdelivered
    · rw [if_neg hlen]
      exact .between done rest hitems hphase hconsumed hdelivered
  | inside done x rest hitems hphase hconsumed hdelivered =>
    rw [hphase]
    simp only [Reader.read, hconsumed]
    have hx := hsound x (by simp [hitems])
    by_cases hlen : (done.flatMap F.frame).length + F.headerSize + (F.body x).length ≤ stream.length
    · rw [if_pos hlen]
      have hsplit : stream <+: (done.flatMap F.frame ++ F.header x) ++ F.body x ++
          rest.flatMap F.frame := by
        rw [hitems] at hstream
        simpa only [List.flatMap_append, List.flatMap_cons, Framing.frame, List.append_assoc]
          using hstream
      have hpre : (done.flatMap F.frame ++ F.header x).length =
          (done.flatMap F.frame).length + F.headerSize := by
        rw [List.length_append, hx.size]
      have hbody := slice_of_prefix hsplit (by rw [hpre]; exact hlen)
      rw [hpre] at hbody
      simp only [hbody]
      refine .between (done ++ [x]) rest ?_ rfl ?_ ?_
      · rw [hitems, List.append_assoc, List.singleton_append]
      · rw [List.flatMap_append, List.flatMap_singleton, List.length_append, Framing.frame,
          List.length_append, hx.size, Nat.add_assoc]
      · rw [hdelivered, List.map_append]
        rfl
    · rw [if_neg hlen]
      exact .inside done x rest hitems hphase hconsumed hdelivered

/-- A read delivers one item at most. -/
theorem Reader.delivered_step (r : Reader γ β) (stream : List β) :
    (r.step F stream).delivered = r.delivered ∨
      ∃ x, (r.step F stream).delivered = r.delivered ++ [x] := by
  unfold Reader.step
  split
  · split <;> exact Or.inl rfl
  · split
    · exact Or.inl rfl
    · exact Or.inr ⟨_, rfl⟩

theorem Reading.delivered_prefix {items : List α} {r : Reader γ β} (h : Reading F items r) :
    r.delivered <+: items.map (item F) := by
  cases h with
  | between done rest hitems _ _ hdelivered =>
    rw [hdelivered, hitems, List.map_append]
    exact List.prefix_append _ _
  | inside done x rest hitems _ _ hdelivered =>
    rw [hdelivered, hitems, List.map_append]
    exact List.prefix_append _ _

/-- A reader that waits although the stream carries every frame has delivered them all. -/
theorem Reading.delivered_all {items : List α} {r : Reader γ β} (h : Reading F items r)
    (hsound : ∀ x ∈ items, F.Sound x) (hwaits : r.step F (items.flatMap F.frame) = r) :
    r.delivered = items.map (item F) := by
  cases h with
  | between done rest hitems hphase hconsumed hdelivered =>
    cases rest with
    | nil => rw [hdelivered, hitems, List.append_nil]
    | cons x rest =>
      have hx := hsound x (by simp [hitems])
      have hlen : r.consumed + F.headerSize ≤ (items.flatMap F.frame).length := by
        rw [hconsumed, hitems]
        simp only [List.flatMap_append, List.flatMap_cons, List.length_append, Framing.frame,
          hx.size]
        omega
      have hmoved := congrArg Reader.phase hwaits
      simp only [Reader.step, hphase, Reader.read, if_pos hlen] at hmoved
      cases hmoved
  | inside done x rest hitems hphase hconsumed hdelivered =>
    have hx := hsound x (by simp [hitems])
    have hlen : r.consumed + (F.body x).length ≤ (items.flatMap F.frame).length := by
      rw [hconsumed, hitems]
      simp only [List.flatMap_append, List.flatMap_cons, List.length_append, Framing.frame,
        hx.size]
      omega
    have hmoved := congrArg Reader.phase hwaits
    simp only [Reader.step, hphase, Reader.read, if_pos hlen] at hmoved
    cases hmoved

/-- A whole frame stands at the start, as far as its header tells. -/
def Framing.Begins (F : Framing α γ β) (stream : List β) : Prop :=
  F.headerSize + (F.parseHeader (stream.take F.headerSize)).2 ≤ stream.length

/-- Whatever the header tells, some item is framed so. -/
def Framing.Complete (F : Framing α γ β) : Prop :=
  ∀ stream, F.Begins stream → ∃ x rest, F.Sound x ∧ stream = F.frame x ++ rest

/-- Every stream is frames and a remainder that holds no whole frame. -/
theorem Framing.Complete.exists_frames (hcomplete : F.Complete) (hsize : 0 < F.headerSize)
    (stream : List β) :
    ∃ (items : List α) (tail : List β), (∀ x ∈ items, F.Sound x) ∧
      stream = items.flatMap F.frame ++ tail ∧ ¬ F.Begins tail := by
  induction hlen : stream.length using Nat.strong_induction_on generalizing stream with
  | _ n ih =>
    by_cases hbegins : F.Begins stream
    · obtain ⟨x, rest, hx, rfl⟩ := hcomplete stream hbegins
      have hshorter : rest.length < n := by
        rw [← hlen, List.length_append, Framing.frame, List.length_append, hx.size]
        omega
      obtain ⟨items, tail, hitems, hrest, htail⟩ := ih rest.length hshorter rest rfl
      refine ⟨x :: items, tail, List.forall_mem_cons.mpr ⟨hx, hitems⟩, ?_, htail⟩
      rw [hrest, List.flatMap_cons, List.append_assoc]
    · exact ⟨[], stream, fun x hx => absurd hx List.not_mem_nil, rfl, hbegins⟩

namespace Reader

/-- How many symbols the pending read asks for. -/
def awaits (F : Framing α γ β) (r : Reader γ β) : ℕ :=
  match r.phase with
  | .header => F.headerSize
  | .body _ length => length

def Readable (F : Framing α γ β) (r : Reader γ β) (stream : List β) : Prop :=
  r.consumed + r.awaits F ≤ stream.length

instance (r : Reader γ β) (stream : List β) : Decidable (r.Readable F stream) :=
  inferInstanceAs (Decidable (_ ≤ _))

/-- A body may be empty, so that only header and body together are sure to consume. -/
def remaining (r : Reader γ β) (stream : List β) : ℕ :=
  2 * (stream.length - r.consumed) + match r.phase with
    | .header => 0
    | .body _ _ => 1

theorem step_remaining (hsize : 0 < F.headerSize) {r : Reader γ β} {stream : List β}
    (h : r.Readable F stream) : (r.step F stream).remaining stream < r.remaining stream := by
  unfold Readable awaits at h
  unfold step read remaining
  cases hphase : r.phase with
  | header =>
    rw [hphase] at h
    simp only at h
    simp only [if_pos h]
    omega
  | body tag length =>
    rw [hphase] at h
    simp only at h
    simp only [if_pos h]
    omega

theorem step_of_not_readable {r : Reader γ β} {stream : List β} (h : ¬ r.Readable F stream) :
    r.step F stream = r := by
  unfold Readable awaits at h
  unfold step read
  cases hphase : r.phase with
  | header =>
    rw [hphase] at h
    simp only [if_neg h]
  | body tag length =>
    rw [hphase] at h
    simp only [if_neg h]

/-- What comes in may have to be read. -/
theorem remaining_le (r : Reader γ β) {stream longer : List β}
    (h : stream.length ≤ longer.length) :
    r.remaining longer ≤ r.remaining stream + 2 * (longer.length - stream.length) := by
  unfold remaining
  omega

/-- The read loop until a read asks for more than is left, where it fails. -/
def readLoop (hsize : 0 < F.headerSize) (stream : List β) (r : Reader γ β) : Reader γ β :=
  if r.Readable F stream then readLoop hsize stream (r.step F stream) else r
termination_by r.remaining stream
decreasing_by exact step_remaining hsize ‹_›

/-- A frame is taken in two reads. -/
theorem readLoop_frame (hsize : 0 < F.headerSize) {x : α} (hx : F.Sound x) (pre post : List β)
    (delivered : List (γ × List β)) :
    readLoop hsize (pre ++ (F.frame x ++ post)) ⟨.header, pre.length, delivered⟩ =
      readLoop hsize (pre ++ (F.frame x ++ post))
        ⟨.header, (pre ++ F.frame x).length, delivered ++ [item F x]⟩ := by
  have hlen : (pre ++ (F.frame x ++ post)).length =
      pre.length + F.headerSize + (F.body x).length + post.length := by
    simp only [List.length_append, Framing.frame, hx.size, Nat.add_assoc]
  have hheader : ((pre ++ (F.frame x ++ post)).drop pre.length).take F.headerSize =
      F.header x := by
    rw [List.drop_left, Framing.frame, List.append_assoc, ← hx.size, List.take_left]
  have hbody : ((pre ++ (F.frame x ++ post)).drop (pre.length + F.headerSize)).take
      (F.body x).length = F.body x := by
    rw [← List.drop_drop, List.drop_left, Framing.frame, List.append_assoc, ← hx.size,
      List.drop_left, List.take_left]
  have hfirst : pre.length + F.headerSize ≤ (pre ++ (F.frame x ++ post)).length := by omega
  have hsecond : pre.length + F.headerSize + (F.body x).length ≤
      (pre ++ (F.frame x ++ post)).length := by omega
  have hreadable : Readable F (⟨.header, pre.length, delivered⟩ : Reader γ β)
      (pre ++ (F.frame x ++ post)) := hfirst
  have hreadable' : Readable F (⟨.body (F.tag x) (F.body x).length,
      pre.length + F.headerSize, delivered⟩ : Reader γ β)
      (pre ++ (F.frame x ++ post)) := hsecond
  have hconsumed : (pre ++ F.frame x).length =
      pre.length + F.headerSize + (F.body x).length := by
    rw [List.length_append, Framing.frame, List.length_append, hx.size, Nat.add_assoc]
  rw [readLoop, if_pos hreadable]
  simp only [step, read, if_pos hfirst, hheader, hx.parse]
  rw [readLoop, if_pos hreadable']
  simp only [step, read, if_pos hsecond, hbody, hconsumed, item]

/-- Where no whole frame stands, at most a header is read. -/
theorem readLoop_tail (hsize : 0 < F.headerSize) {tail : List β} (htail : ¬ F.Begins tail)
    (pre : List β) (delivered : List (γ × List β)) :
    (readLoop hsize (pre ++ tail) ⟨.header, pre.length, delivered⟩).delivered = delivered := by
  rw [readLoop]
  split
  · rename_i hfirst
    have hlen : pre.length + F.headerSize ≤ (pre ++ tail).length := hfirst
    simp only [step, read, if_pos hlen, List.drop_left]
    rw [readLoop, if_neg]
    change ¬ pre.length + F.headerSize +
      (F.parseHeader (tail.take F.headerSize)).2 ≤ (pre ++ tail).length
    unfold Framing.Begins at htail
    rw [List.length_append]
    omega
  · rfl

/-- A stream of whole frames and a remainder: the frames are delivered, and no more. -/
theorem readLoop_delivered (hsize : 0 < F.headerSize) {items : List α}
    (hitems : ∀ x ∈ items, F.Sound x) {tail : List β} (htail : ¬ F.Begins tail) (pre : List β)
    (delivered : List (γ × List β)) :
    (readLoop hsize (pre ++ (items.flatMap F.frame ++ tail))
      ⟨.header, pre.length, delivered⟩).delivered = delivered ++ items.map (item F) := by
  induction items generalizing pre delivered with
  | nil =>
    rw [List.flatMap_nil, List.nil_append, readLoop_tail hsize htail, List.map_nil,
      List.append_nil]
  | cons x items ih =>
    obtain ⟨hx, hrest⟩ := List.forall_mem_cons.mp hitems
    have hnext := ih hrest (pre ++ F.frame x) (delivered ++ [item F x])
    rw [List.append_assoc] at hnext
    rw [List.flatMap_cons, List.append_assoc, readLoop_frame hsize hx, hnext, List.map_cons,
      List.append_assoc, List.singleton_append]

end Reader

end

end Messenger.FramedStreams
