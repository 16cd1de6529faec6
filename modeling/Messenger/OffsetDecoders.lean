import Mathlib.Data.List.Basic

/-!
Decoders that read a byte buffer at an offset and return a value with the offset
behind it, the way hand-written C++ decoders do. `ReadsBack` says that a decoder
recovers a value from its bytes wherever they stand in a buffer, `Inverts` that it
yields a value from no other bytes; both compose through pairs and through counted
repetitions, whatever surrounds the bytes.
-/
namespace Messenger.OffsetDecoders

variable {ε α β γ : Type*}

abbrev Decoder (ε α : Type*) := ℕ → List UInt8 → Except ε (α × ℕ)

namespace Decoder

def pure (x : α) : Decoder ε α := fun offset _ => .ok (x, offset)

def pair (d : Decoder ε α) (e : Decoder ε β) : Decoder ε (α × β) := fun offset buffer =>
  match d offset buffer with
  | .error err => .error err
  | .ok (x, offset) =>
    match e offset buffer with
    | .error err => .error err
    | .ok (y, offset) => .ok ((x, y), offset)

def map (f : α → β) (d : Decoder ε α) : Decoder ε β := fun offset buffer =>
  match d offset buffer with
  | .error err => .error err
  | .ok (x, offset) => .ok (f x, offset)

/-- Read `count` values one behind the other. -/
def many (d : Decoder ε α) : ℕ → Decoder ε (List α)
  | 0 => pure []
  | count + 1 => map (fun p => p.1 :: p.2) (pair d (many d count))

/-- The value alone, from the start of a buffer. -/
def run (d : Decoder ε α) (buffer : List UInt8) : Except ε α :=
  match d 0 buffer with
  | .error err => .error err
  | .ok (x, _) => .ok x

end Decoder

/-- The bytes of `x` decode to `x` between any prefix and any suffix. -/
def ReadsBack (d : Decoder ε α) (bytes : List UInt8) (x : α) : Prop :=
  ∀ pre post, d pre.length (pre ++ bytes ++ post) = .ok (x, pre.length + bytes.length)

theorem readsBack_pure (x : α) : ReadsBack (Decoder.pure x : Decoder ε α) [] x := by
  intro pre post
  rfl

theorem ReadsBack.pair {d : Decoder ε α} {e : Decoder ε β} {bx bY : List UInt8} {x : α} {y : β}
    (hd : ReadsBack d bx x) (he : ReadsBack e bY y) :
    ReadsBack (d.pair e) (bx ++ bY) (x, y) := by
  intro pre post
  have hfirst := hd pre (bY ++ post)
  have hsecond := he (pre ++ bx) post
  simp only [List.append_assoc, List.length_append] at hfirst hsecond ⊢
  simp only [Decoder.pair, hfirst, hsecond, Nat.add_assoc]

theorem ReadsBack.map {d : Decoder ε α} {bytes : List UInt8} {x : α} (f : α → β)
    (hd : ReadsBack d bytes x) : ReadsBack (d.map f) bytes (f x) := by
  intro pre post
  simp only [Decoder.map, hd pre post]

/-- Values written one behind the other are read back as a list. -/
theorem ReadsBack.many {d : Decoder ε α} {enc : α → List UInt8} (xs : List α)
    (hd : ∀ x ∈ xs, ReadsBack d (enc x) x) :
    ReadsBack (d.many xs.length) (xs.flatMap enc) xs := by
  induction xs with
  | nil => exact readsBack_pure []
  | cons x rest ih =>
    have hhead : ReadsBack d (enc x) x := hd x List.mem_cons_self
    have htail : ReadsBack (d.many rest.length) (rest.flatMap enc) rest :=
      ih (fun y hy => hd y (List.mem_cons_of_mem x hy))
    simpa only [List.flatMap_cons, List.length_cons, Decoder.many]
      using (hhead.pair htail).map (fun p => p.1 :: p.2)

/-- Whatever follows, a value read back from the start of a buffer is the value. -/
theorem ReadsBack.run {d : Decoder ε α} {bytes : List UInt8} {x : α}
    (hd : ReadsBack d bytes x) (post : List UInt8) : d.run (bytes ++ post) = .ok x := by
  have h := hd [] post
  simp only [List.nil_append, List.length_nil] at h
  simp only [Decoder.run, h]

/-- Whatever the buffer and the offset, a failure satisfies `E`. -/
def FailsOnly (E : ε → Prop) (d : Decoder ε α) : Prop :=
  ∀ offset buffer err, d offset buffer = .error err → E err

variable {E : ε → Prop}

theorem failsOnly_pure (x : α) : FailsOnly E (Decoder.pure x) := by
  intro offset buffer err h
  cases h

theorem FailsOnly.pair {d : Decoder ε α} {e : Decoder ε β} (hd : FailsOnly E d)
    (he : FailsOnly E e) : FailsOnly E (d.pair e) := by
  intro offset buffer err h
  unfold Decoder.pair at h
  split at h
  · rename_i herr
    cases h
    exact hd _ _ _ herr
  · split at h
    · rename_i herr
      cases h
      exact he _ _ _ herr
    · cases h

theorem FailsOnly.map {d : Decoder ε α} (f : α → β) (hd : FailsOnly E d) :
    FailsOnly E (d.map f) := by
  intro offset buffer err h
  unfold Decoder.map at h
  split at h
  · rename_i herr
    cases h
    exact hd _ _ _ herr
  · cases h

theorem FailsOnly.run {d : Decoder ε α} (hd : FailsOnly E d) {buffer : List UInt8} {err : ε}
    (h : d.run buffer = .error err) : E err := by
  unfold Decoder.run at h
  split at h
  · rename_i herr
    cases h
    exact hd _ _ _ herr
  · cases h

theorem FailsOnly.many {d : Decoder ε α} (hd : FailsOnly E d) (count : ℕ) :
    FailsOnly E (d.many count) := by
  induction count with
  | zero => exact failsOnly_pure []
  | succ count ih => exact (hd.pair ih).map _

/-- A decoder yields a value only where the bytes that encode it stand, and stops right
behind them; `P` is what every value it yields satisfies. -/
def Inverts (P : α → Prop) (enc : α → List UInt8) (d : Decoder ε α) : Prop :=
  ∀ offset buffer x stop, d offset buffer = .ok (x, stop) →
    P x ∧ enc x <+: buffer.drop offset ∧ stop = offset + (enc x).length

theorem inverts_pure (x : α) : Inverts (· = x) (fun _ => []) (Decoder.pure x : Decoder ε α) := by
  intro offset buffer y stop h
  cases h
  exact ⟨rfl, List.nil_prefix, rfl⟩

/-- Two encodings that stand one behind the other are one. -/
theorem append_prefix_drop {first second buffer : List UInt8} {offset : ℕ}
    (hfirst : first <+: buffer.drop offset)
    (hsecond : second <+: buffer.drop (offset + first.length)) :
    first ++ second <+: buffer.drop offset := by
  obtain ⟨rest, hrest⟩ := hfirst
  rw [← List.drop_drop, ← hrest, List.drop_left] at hsecond
  rw [← hrest]
  exact (List.prefix_append_right_inj first).mpr hsecond

theorem Inverts.pair {P : α → Prop} {Q : β → Prop} {encX : α → List UInt8}
    {encY : β → List UInt8} {d : Decoder ε α} {e : Decoder ε β} (hd : Inverts P encX d)
    (he : Inverts Q encY e) :
    Inverts (fun p => P p.1 ∧ Q p.2) (fun p => encX p.1 ++ encY p.2) (d.pair e) := by
  rintro offset buffer ⟨x, y⟩ stop h
  unfold Decoder.pair at h
  split at h
  · cases h
  · rename_i x' middle hx
    split at h
    · cases h
    · rename_i y' stop' hy
      cases h
      obtain ⟨hP, hfirst, rfl⟩ := hd _ _ _ _ hx
      obtain ⟨hQ, hsecond, rfl⟩ := he _ _ _ _ hy
      exact ⟨⟨hP, hQ⟩, append_prefix_drop hfirst hsecond,
        by rw [List.length_append, Nat.add_assoc]⟩

/-- `f` may forget nothing: the encoding and the property are told by its value. -/
theorem Inverts.map {P : α → Prop} {Q : β → Prop} {encX : α → List UInt8}
    {encY : β → List UInt8} {d : Decoder ε α} {f : α → β} (hd : Inverts P encX d)
    (henc : ∀ x, encY (f x) = encX x) (hQ : ∀ x, P x → Q (f x)) :
    Inverts Q encY (d.map f) := by
  intro offset buffer y stop h
  unfold Decoder.map at h
  split at h
  · cases h
  · rename_i x stop' hx
    cases h
    rw [henc]
    exact ⟨hQ x (hd _ _ _ _ hx).1, (hd _ _ _ _ hx).2⟩

theorem Inverts.many {P : α → Prop} {enc : α → List UInt8} {d : Decoder ε α}
    (hd : Inverts P enc d) (count : ℕ) :
    Inverts (fun xs => xs.length = count ∧ ∀ x ∈ xs, P x) (fun xs => xs.flatMap enc)
      (d.many count) := by
  induction count with
  | zero =>
    intro offset buffer xs stop h
    obtain ⟨rfl, hpre, hstop⟩ := inverts_pure ([] : List α) _ _ _ _ h
    exact ⟨⟨rfl, fun x hx => absurd hx List.not_mem_nil⟩, hpre, hstop⟩
  | succ count ih =>
    refine (hd.pair ih).map (fun _ => List.flatMap_cons) ?_
    rintro ⟨x, xs⟩ ⟨hx, hlength, hxs⟩
    refine ⟨by rw [List.length_cons, hlength], fun y hy => ?_⟩
    rcases List.mem_cons.mp hy with rfl | hy
    · exact hx
    · exact hxs y hy

end Messenger.OffsetDecoders
