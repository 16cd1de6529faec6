import Mathlib.Data.List.Nodup
import Mathlib.Data.Int.Order.Basic
import Mathlib.Order.Basic

/-!
Tables with an autoincremented integer key. Rows stand in key order and `seq` is
at least as large as every key ever given out, so a new row never takes the key of
an old one, deleted or not. The order and the bound are fields of the table:
insertion, update and deletion carry them along, and no later proof repeats them.
-/
namespace Messenger.KeyedTables

variable {ρ : Type*}

structure Table (key : ρ → ℤ) where
  rows : List ρ
  seq : ℤ
  ordered : rows.Pairwise (fun a b => key a < key b)
  bounded : ∀ r ∈ rows, key r ≤ seq

namespace Table

variable {key : ρ → ℤ}

def empty (key : ρ → ℤ) : Table key :=
  ⟨[], 0, List.Pairwise.nil, fun _ h => absurd h List.not_mem_nil⟩

/-- Append the row that `mk` builds from the next key. -/
def insert (t : Table key) (mk : ℤ → ρ) (hmk : ∀ n, key (mk n) = n) : Table key where
  rows := t.rows ++ [mk (t.seq + 1)]
  seq := t.seq + 1
  ordered := by
    refine List.pairwise_append.mpr ⟨t.ordered, List.pairwise_singleton _ _, ?_⟩
    intro a ha b hb
    have hle := t.bounded a ha
    have hb' : b = mk (t.seq + 1) := List.mem_singleton.mp hb
    rw [hb', hmk]
    omega
  bounded := by
    intro r hr
    rcases List.mem_append.mp hr with hold | hnew
    · have hle := t.bounded r hold
      omega
    · rw [List.mem_singleton.mp hnew, hmk]

/-- Replace each row that satisfies `p`; the replacement keeps the key. -/
def update (t : Table key) (p : ρ → Bool) (f : ρ → ρ) (hf : ∀ r, key (f r) = key r) :
    Table key where
  rows := t.rows.map (fun r => if p r then f r else r)
  seq := t.seq
  ordered := by
    rw [List.pairwise_map]
    refine t.ordered.imp ?_
    intro a b hab
    split <;> split <;> simpa only [hf] using hab
  bounded := by
    intro r hr
    obtain ⟨a, ha, rfl⟩ := List.mem_map.mp hr
    have hle := t.bounded a ha
    split
    · rw [hf]
      exact hle
    · exact hle

def delete (t : Table key) (p : ρ → Bool) : Table key where
  rows := t.rows.filter (fun r => !p r)
  seq := t.seq
  ordered := t.ordered.filter _
  bounded := fun r hr => t.bounded r (List.mem_of_mem_filter hr)

variable (t : Table key)

@[simp] theorem rows_empty : (empty key).rows = [] := rfl

@[simp] theorem rows_insert (mk : ℤ → ρ) (hmk : ∀ n, key (mk n) = n) :
    (t.insert mk hmk).rows = t.rows ++ [mk (t.seq + 1)] := rfl

@[simp] theorem seq_insert (mk : ℤ → ρ) (hmk : ∀ n, key (mk n) = n) :
    (t.insert mk hmk).seq = t.seq + 1 := rfl

@[simp] theorem rows_update (p : ρ → Bool) (f : ρ → ρ) (hf : ∀ r, key (f r) = key r) :
    (t.update p f hf).rows = t.rows.map (fun r => if p r then f r else r) := rfl

@[simp] theorem seq_update (p : ρ → Bool) (f : ρ → ρ) (hf : ∀ r, key (f r) = key r) :
    (t.update p f hf).seq = t.seq := rfl

@[simp] theorem rows_delete (p : ρ → Bool) :
    (t.delete p).rows = t.rows.filter (fun r => !p r) := rfl

theorem keys_nodup : (t.rows.map key).Nodup := by
  rw [List.Nodup, List.pairwise_map]
  exact t.ordered.imp (fun {a b} hab => ne_of_lt hab)

/-- A key names at most one row. -/
theorem eq_of_key_eq {a b : ρ} (ha : a ∈ t.rows) (hb : b ∈ t.rows) (h : key a = key b) :
    a = b :=
  List.inj_on_of_nodup_map t.keys_nodup ha hb h

end Table

end Messenger.KeyedTables
