import Mathlib.Data.List.Sort
import Mathlib.Order.Basic

/-!
The newest entries of a record, read as a window of a given size. When no two entries
have the same key there is one such window, the end of the entries in ascending order. The
beginning is the newest window only when it is everything, or nothing is asked for, and the
latest entry of all is in the beginning only when the beginning is everything.
-/
namespace Messenger.SortedWindows

variable {α κ : Type*} [LinearOrder κ] {key : α → κ} {n : ℕ}

/-- The window holds the n newest entries, all of them if there are fewer, oldest first. -/
structure Newest (key : α → κ) (n : ℕ) (entries window : List α) : Prop where
  ascending : window.Pairwise (fun x y => key x < key y)
  subset : window ⊆ entries
  length : window.length = min n entries.length
  later : ∀ x ∈ window, ∀ y ∈ entries, y ∉ window → key y < key x

theorem nodup_of_strict {sorted : List α} (h : sorted.Pairwise (fun x y => key x < key y)) :
    sorted.Nodup :=
  h.imp fun hlt heq => hlt.ne (congrArg key heq)

namespace Newest

variable {entries entries' window window' : List α}

theorem nodup (h : Newest key n entries window) : window.Nodup := nodup_of_strict h.ascending

theorem perm (h : Newest key n entries window) (hperm : entries.Perm entries') :
    Newest key n entries' window where
  ascending := h.ascending
  subset := fun _ hx => hperm.subset (h.subset hx)
  length := by rw [h.length, hperm.length_eq]
  later := fun x hx y hy => h.later x hx y (hperm.symm.subset hy)

/-- Of two windows of one size neither has an entry that the other lacks: it would have to
be later than an entry that is later than itself. -/
theorem subset_of_newest (h : Newest key n entries window) (h' : Newest key n entries window') :
    window ⊆ window' := by
  intro x hx
  by_contra hout
  have hother : ∃ y ∈ window', y ∉ window := by
    by_contra hnone
    push Not at hnone
    have hlength : window.length ≤ window'.length := (h.length.trans h'.length.symm).le
    have hperm := (List.subperm_of_subset h'.nodup hnone).perm_of_length_le hlength
    exact hout (hperm.symm.subset hx)
  obtain ⟨y, hy, hyout⟩ := hother
  have hyx : key y < key x := h.later x hx y (h'.subset hy) hyout
  have hxy : key x < key y := h'.later y hy x (h.subset hx) hout
  exact lt_asymm hyx hxy

/-- There is at most one window. -/
theorem unique (h : Newest key n entries window) (h' : Newest key n entries window') :
    window = window' := by
  have hperm : window.Perm window' := (List.perm_ext_iff_of_nodup h.nodup h'.nodup).mpr
    fun x => ⟨fun hx => h.subset_of_newest h' hx, fun hx => h'.subset_of_newest h hx⟩
  refine hperm.eq_of_pairwise (fun x y _ _ hxy hyx => ?_) h.ascending h'.ascending
  exact absurd hxy (lt_asymm hyx)

end Newest

variable {entries sorted : List α}

theorem strict_of_sorted (hsorted : sorted.Pairwise (fun x y => key x ≤ key y))
    (hdistinct : sorted.Pairwise (fun x y => key x ≠ key y)) :
    sorted.Pairwise (fun x y => key x < key y) :=
  hsorted.imp₂ (fun _ _ hle hne => lt_of_le_of_ne hle hne) hdistinct

theorem Newest.drop (hstrict : sorted.Pairwise (fun x y => key x < key y)) (n : ℕ) :
    Newest key n sorted (sorted.drop (sorted.length - n)) where
  ascending := hstrict.sublist (List.drop_sublist _ _)
  subset := List.drop_subset _ _
  length := by
    rw [List.length_drop]
    omega
  later := by
    intro x hx y hy hout
    rw [← List.take_append_drop (sorted.length - n) sorted] at hstrict hy
    rcases List.mem_append.mp hy with hfront | hback
    · exact (List.pairwise_append.mp hstrict).2.2 y hfront x hx
    · exact absurd hback hout

theorem take_eq_drop_iff (hnodup : sorted.Nodup) (n : ℕ) :
    sorted.take n = sorted.drop (sorted.length - n) ↔ n = 0 ∨ sorted.length ≤ n := by
  constructor
  · intro heq
    by_contra hinside
    push Not at hinside
    have hpos : 0 < n := Nat.pos_of_ne_zero hinside.1
    have hfirst := congrArg (fun l => l[0]?) heq
    simp only [List.getElem?_take_of_lt hpos, List.getElem?_drop, Nat.add_zero] at hfirst
    have hzero := (List.getElem?_inj (hpos.trans hinside.2) hnodup).mp hfirst
    omega
  · rintro (rfl | hall)
    · rw [List.take_zero, Nat.sub_zero, List.drop_length]
    · rw [List.take_of_length_le hall, Nat.sub_eq_zero_of_le hall, List.drop_zero]

/-- The beginning is the newest window when it is empty or everything, and never else. -/
theorem newest_take_iff (hperm : sorted.Perm entries)
    (hsorted : sorted.Pairwise (fun x y => key x ≤ key y))
    (hdistinct : entries.Pairwise (fun x y => key x ≠ key y)) (n : ℕ) :
    Newest key n entries (sorted.take n) ↔ n = 0 ∨ entries.length ≤ n := by
  have hstrict := strict_of_sorted hsorted
    ((hperm.pairwise_iff fun hne => hne.symm).mpr hdistinct)
  have hnewest := (Newest.drop hstrict n).perm hperm
  rw [← hperm.length_eq, ← take_eq_drop_iff (nodup_of_strict hstrict) n]
  constructor
  · intro htake
    exact htake.unique hnewest
  · intro heq
    rwa [heq]

/-- The latest entry is in the beginning when that is everything, and never else. -/
theorem latest_mem_take_iff (hstrict : sorted.Pairwise (fun x y => key x < key y)) {x : α}
    (hx : x ∈ sorted) (hlatest : ∀ y ∈ sorted, key y ≤ key x) :
    x ∈ sorted.take n ↔ sorted.length ≤ n := by
  constructor
  · intro htake
    by_contra hlong
    obtain ⟨y, hy⟩ : ∃ y, y ∈ sorted.drop n := by
      refine List.exists_mem_of_ne_nil _ fun hnil => ?_
      exact hlong (List.drop_eq_nil_iff.mp hnil)
    rw [← List.take_append_drop n sorted] at hstrict
    have hlt := (List.pairwise_append.mp hstrict).2.2 x htake y hy
    exact absurd (hlatest y (List.drop_subset _ _ hy)) (not_le.mpr hlt)
  · intro hall
    rwa [List.take_of_length_le hall]

end Messenger.SortedWindows
