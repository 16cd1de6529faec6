import Mathlib.Data.List.Sort
import Mathlib.Order.Basic

/-!
Entries that are stored in ascending order and sorted again by a key with ties. Any two sorts
agree on the keys, position by position, so a window without ties comes back in the order of
storage. A sort that turns ties around shows that nothing less is enough.
-/
namespace Messenger.SortedTies

variable {α κ ι : Type*} [LinearOrder κ] [LinearOrder ι] {key : α → κ} {seq : α → ι}
  {entries sorted : List α}

theorem map_key_eq (hperm : sorted.Perm entries)
    (hsorted : sorted.Pairwise (fun x y => key x ≤ key y))
    (hkeys : entries.Pairwise (fun x y => key x ≤ key y)) : sorted.map key = entries.map key := by
  refine (hperm.map key).eq_of_pairwise (fun x y _ _ hxy hyx => le_antisymm hxy hyx) ?_ ?_
  · exact List.pairwise_map.mpr hsorted
  · exact List.pairwise_map.mpr hkeys

omit [LinearOrder κ] in
theorem distinct_take_iff (hmap : sorted.map key = entries.map key) (n : ℕ) :
    (sorted.take n).Pairwise (fun x y => key x ≠ key y) ↔
      (entries.take n).Pairwise (fun x y => key x ≠ key y) := by
  have hkeys : ∀ l : List α, l.Pairwise (fun x y => key x ≠ key y) ↔
      (l.map key).Pairwise (fun a b => a ≠ b) := fun l => List.pairwise_map.symm
  rw [hkeys, hkeys, List.map_take, List.map_take, hmap]

/-- Of two entries the one with the smaller key was stored first. -/
theorem seq_lt_of_key_lt (hseq : entries.Pairwise (fun x y => seq x < seq y))
    (hkeys : entries.Pairwise (fun x y => key x ≤ key y)) {x y : α} (hx : x ∈ entries)
    (hy : y ∈ entries) (hlt : key x < key y) : seq x < seq y := by
  have hforward : entries.Pairwise (fun x y => key x < key y → seq x < seq y) :=
    hseq.imp fun {x y} hxy (_ : key x < key y) => hxy
  have hbackward : entries.Pairwise (fun x y => key y < key x → seq y < seq x) :=
    hkeys.imp fun hle hgt => absurd hgt hle.not_gt
  exact hforward.forall_of_forall_of_flip (fun x _ h => absurd h (lt_irrefl _)) hbackward hx hy hlt

/-- A window without ties comes back as it was stored. -/
theorem take_in_order (hperm : sorted.Perm entries)
    (hsorted : sorted.Pairwise (fun x y => key x ≤ key y))
    (hseq : entries.Pairwise (fun x y => seq x < seq y))
    (hkeys : entries.Pairwise (fun x y => key x ≤ key y)) {n : ℕ}
    (hdistinct : (entries.take n).Pairwise (fun x y => key x ≠ key y)) :
    (sorted.take n).Pairwise (fun x y => seq x < seq y) := by
  have hstrict := (hsorted.sublist (List.take_sublist n sorted)).imp₂
    (fun _ _ hle hne => lt_of_le_of_ne hle hne)
    ((distinct_take_iff (map_key_eq hperm hsorted hkeys) n).mpr hdistinct)
  refine hstrict.imp_of_mem fun hx hy hlt => ?_
  exact seq_lt_of_key_lt hseq hkeys (hperm.subset (List.mem_of_mem_take hx))
    (hperm.subset (List.mem_of_mem_take hy)) hlt

def TiesReversed (key : α → κ) (seq : α → ι) (sorted : List α) : Prop :=
  sorted.Pairwise (fun x y => key x = key y → seq y < seq x)

/-- The stable sort of the entries from the last to the first. -/
def latestFirst (key : α → κ) (entries : List α) : List α :=
  entries.reverse.insertionSort (fun x y => key x ≤ key y)

theorem mem_orderedInsert {a x : α} {l : List α}
    (h : x ∈ l.orderedInsert (fun x y => key x ≤ key y) a) : x = a ∨ x ∈ l :=
  List.mem_cons.mp ((List.perm_orderedInsert _ a l).subset h)

theorem tiesReversed_orderedInsert {a : α} {l : List α}
    (hsorted : l.Pairwise (fun x y => key x ≤ key y)) (hties : TiesReversed key seq l)
    (hlatest : ∀ x ∈ l, seq x < seq a) :
    TiesReversed key seq (l.orderedInsert (fun x y => key x ≤ key y) a) := by
  induction l with
  | nil => exact List.pairwise_singleton _ _
  | cons b rest ih =>
    obtain ⟨hb, hrest⟩ := List.pairwise_cons.mp hsorted
    obtain ⟨hbties, hrestties⟩ := List.pairwise_cons.mp hties
    rw [List.orderedInsert_cons]
    split
    · exact List.pairwise_cons.mpr ⟨fun x hx _ => hlatest x hx, hties⟩
    · rename_i hbefore
      refine List.pairwise_cons.mpr ⟨fun x hx heq => ?_, ?_⟩
      · rcases mem_orderedInsert hx with rfl | hold
        · exact absurd heq.ge hbefore
        · exact hbties x hold heq
      · exact ih hrest hrestties fun x hx => hlatest x (List.mem_cons_of_mem b hx)

theorem tiesReversed_insertionSort {l : List α} (h : l.Pairwise (fun x y => seq y < seq x)) :
    TiesReversed key seq (l.insertionSort (fun x y => key x ≤ key y)) := by
  induction l with
  | nil => exact List.Pairwise.nil
  | cons a rest ih =>
    obtain ⟨hlatest, hrest⟩ := List.pairwise_cons.mp h
    rw [List.insertionSort_cons]
    refine tiesReversed_orderedInsert (List.pairwise_insertionSort _ rest) (ih hrest) ?_
    exact fun x hx => hlatest x ((List.mem_insertionSort _).mp hx)

theorem tiesReversed_latestFirst (h : entries.Pairwise (fun x y => seq x < seq y)) :
    TiesReversed key seq (latestFirst key entries) :=
  tiesReversed_insertionSort (List.pairwise_reverse.mpr h)

/-- Where ties are turned around, order shows that there are none. -/
theorem distinct_of_take_in_order (hperm : sorted.Perm entries)
    (hsorted : sorted.Pairwise (fun x y => key x ≤ key y))
    (hkeys : entries.Pairwise (fun x y => key x ≤ key y)) (hties : TiesReversed key seq sorted)
    {n : ℕ} (horder : (sorted.take n).Pairwise (fun x y => seq x < seq y)) :
    (entries.take n).Pairwise (fun x y => key x ≠ key y) := by
  refine (distinct_take_iff (map_key_eq hperm hsorted hkeys) n).mp ?_
  exact horder.imp₂ (fun _ _ hlt hreversed heq => lt_asymm hlt (hreversed heq))
    (hties.sublist (List.take_sublist n sorted))

end Messenger.SortedTies
