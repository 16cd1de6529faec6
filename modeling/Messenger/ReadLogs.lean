import Messenger.OffsetDecoders

/-!
Offset decoders that log the reads they make. A read names the buffer it looks into by
its size, since a decoder may cut a buffer out of another and go on in there. `Tells`
says that a logged decoder is a given decoder with a log, and that one chosen error
stands for a read outside: the log is free of such reads just where the decoder does not
end in that error. It composes as the decoders do.
-/
namespace Messenger.ReadLogs

open OffsetDecoders

variable {ε α β : Type*}

/-- The bytes from `offset` to `offset + count`, of a buffer of `size` bytes. -/
structure Read where
  offset : ℕ
  count : ℕ
  size : ℕ
deriving DecidableEq, Repr

def Read.Inside (r : Read) : Prop := r.offset + r.count ≤ r.size

instance (r : Read) : Decidable r.Inside := inferInstanceAs (Decidable (_ ≤ _))

abbrev LoggedDecoder (ε α : Type*) := ℕ → List UInt8 → List Read × Except ε (α × ℕ)

namespace LoggedDecoder

def pure (x : α) : LoggedDecoder ε α := fun offset _ => ([], .ok (x, offset))

def pair (d : LoggedDecoder ε α) (e : LoggedDecoder ε β) : LoggedDecoder ε (α × β) :=
  fun offset buffer =>
    match d offset buffer with
    | (reads, .error err) => (reads, .error err)
    | (reads, .ok (x, offset)) =>
      match e offset buffer with
      | (more, .error err) => (reads ++ more, .error err)
      | (more, .ok (y, offset)) => (reads ++ more, .ok ((x, y), offset))

def map (f : α → β) (d : LoggedDecoder ε α) : LoggedDecoder ε β := fun offset buffer =>
  match d offset buffer with
  | (reads, .error err) => (reads, .error err)
  | (reads, .ok (x, offset)) => (reads, .ok (f x, offset))

def many (d : LoggedDecoder ε α) : ℕ → LoggedDecoder ε (List α)
  | 0 => pure []
  | count + 1 => map (fun p => p.1 :: p.2) (pair d (many d count))

end LoggedDecoder

/-- The log is that of the decoder, and `oob` is the error of a read outside. -/
def Tells (oob : ε) (l : LoggedDecoder ε α) (d : Decoder ε α) : Prop :=
  ∀ offset buffer, (l offset buffer).2 = d offset buffer ∧
    ((∀ r ∈ (l offset buffer).1, r.Inside) ↔ d offset buffer ≠ .error oob)

variable {oob : ε}

theorem tells_of_error {l : LoggedDecoder ε α} {d : Decoder ε α} {offset : ℕ}
    {buffer : List UInt8} {reads : List Read} {err : ε} (hl : l offset buffer = (reads, .error err))
    (hd : d offset buffer = .error err) (hinside : (∀ r ∈ reads, r.Inside) ↔ err ≠ oob) :
    (l offset buffer).2 = d offset buffer ∧
      ((∀ r ∈ (l offset buffer).1, r.Inside) ↔ d offset buffer ≠ .error oob) := by
  rw [hl, hd]
  simpa only [ne_eq, Except.error.injEq, true_and] using hinside

theorem tells_of_ok {l : LoggedDecoder ε α} {d : Decoder ε α} {offset : ℕ}
    {buffer : List UInt8} {reads : List Read} {p : α × ℕ} (hl : l offset buffer = (reads, .ok p))
    (hd : d offset buffer = .ok p) (hinside : ∀ r ∈ reads, r.Inside) :
    (l offset buffer).2 = d offset buffer ∧
      ((∀ r ∈ (l offset buffer).1, r.Inside) ↔ d offset buffer ≠ .error oob) := by
  rw [hl, hd]
  exact ⟨rfl, fun _ h => (by cases h), fun _ => hinside⟩

/-- A logged run fails as the decoder does, or it yields its value from reads inside. -/
theorem Tells.outcome {l : LoggedDecoder ε α} {d : Decoder ε α} (h : Tells oob l d)
    (offset : ℕ) (buffer : List UInt8) :
    (∃ reads err, l offset buffer = (reads, .error err) ∧ d offset buffer = .error err ∧
      ((∀ r ∈ reads, r.Inside) ↔ err ≠ oob)) ∨
    ∃ reads x stop, l offset buffer = (reads, .ok (x, stop)) ∧
      d offset buffer = .ok (x, stop) ∧ ∀ r ∈ reads, r.Inside := by
  obtain ⟨hresult, hinside⟩ := h offset buffer
  rcases hlog : l offset buffer with ⟨reads, err | ⟨x, stop⟩⟩
  · rw [hlog] at hresult hinside
    rw [← hresult] at hinside ⊢
    exact Or.inl ⟨reads, err, rfl, rfl, by
      simpa only [ne_eq, Except.error.injEq] using hinside⟩
  · rw [hlog] at hresult hinside
    rw [← hresult] at hinside ⊢
    exact Or.inr ⟨reads, x, stop, rfl, rfl, hinside.mpr (fun h => by cases h)⟩

theorem forall_mem_append_iff {reads more : List Read} (h : ∀ r ∈ reads, r.Inside) :
    (∀ r ∈ reads ++ more, r.Inside) ↔ ∀ r ∈ more, r.Inside := by
  simp only [List.mem_append, or_imp, forall_and, and_iff_right_iff_imp]
  exact fun _ => h

theorem tells_pure (x : α) : Tells oob (LoggedDecoder.pure x) (Decoder.pure x) := by
  intro offset buffer
  exact tells_of_ok rfl rfl (fun _ hr => absurd hr List.not_mem_nil)

theorem Tells.pair {l : LoggedDecoder ε α} {m : LoggedDecoder ε β} {d : Decoder ε α}
    {e : Decoder ε β} (hl : Tells oob l d) (hm : Tells oob m e) :
    Tells oob (l.pair m) (d.pair e) := by
  intro offset buffer
  rcases hl.outcome offset buffer with
    ⟨reads, err, hlog, hrun, hinside⟩ | ⟨reads, x, middle, hlog, hrun, hinside⟩
  · exact tells_of_error (by simp only [LoggedDecoder.pair, hlog])
      (by simp only [Decoder.pair, hrun]) hinside
  · rcases hm.outcome middle buffer with
      ⟨more, err, hlog', hrun', hinside'⟩ | ⟨more, y, stop, hlog', hrun', hinside'⟩
    · exact tells_of_error (by simp only [LoggedDecoder.pair, hlog, hlog'])
        (by simp only [Decoder.pair, hrun, hrun'])
        ((forall_mem_append_iff hinside).trans hinside')
    · exact tells_of_ok (p := ((x, y), stop)) (by simp only [LoggedDecoder.pair, hlog, hlog'])
        (by simp only [Decoder.pair, hrun, hrun'])
        ((forall_mem_append_iff hinside).mpr hinside')

theorem Tells.map {l : LoggedDecoder ε α} {d : Decoder ε α} (f : α → β) (hl : Tells oob l d) :
    Tells oob (l.map f) (d.map f) := by
  intro offset buffer
  rcases hl.outcome offset buffer with
    ⟨reads, err, hlog, hrun, hinside⟩ | ⟨reads, x, stop, hlog, hrun, hinside⟩
  · exact tells_of_error (by simp only [LoggedDecoder.map, hlog])
      (by simp only [Decoder.map, hrun]) hinside
  · exact tells_of_ok (p := (f x, stop)) (by simp only [LoggedDecoder.map, hlog])
      (by simp only [Decoder.map, hrun]) hinside

theorem Tells.many {l : LoggedDecoder ε α} {d : Decoder ε α} (hl : Tells oob l d) (count : ℕ) :
    Tells oob (l.many count) (d.many count) := by
  induction count with
  | zero => exact tells_pure []
  | succ count ih => exact (hl.pair ih).map _

end Messenger.ReadLogs
