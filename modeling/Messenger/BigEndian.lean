import Mathlib.Data.List.Induction
import Mathlib.Data.Nat.Bitwise

/-!
Big-endian numerals over bytes. `ofBytes` reads a byte list as a number in base
256, `toBytes k n` writes the lowest k digits of n. Each is the inverse of the
other where the digits fit, and the shift-and-or loop that C++ code uses to
assemble a word computes the same number.
-/
namespace Messenger.BigEndian

def ofBytes (bytes : List UInt8) : ℕ :=
  bytes.foldl (fun acc b => acc * 256 + b.toNat) 0

def toBytes : ℕ → ℕ → List UInt8
  | 0, _ => []
  | k + 1, n => toBytes k (n / 256) ++ [UInt8.ofNat n]

@[simp] theorem toBytes_length (k n : ℕ) : (toBytes k n).length = k := by
  induction k generalizing n with
  | zero => rfl
  | succ k ih => simp [toBytes, ih]

theorem ofBytes_concat (bytes : List UInt8) (b : UInt8) :
    ofBytes (bytes ++ [b]) = ofBytes bytes * 256 + b.toNat := by
  simp [ofBytes]

theorem ofBytes_toBytes (k n : ℕ) : ofBytes (toBytes k n) = n % 256 ^ k := by
  induction k generalizing n with
  | zero => simp [toBytes, ofBytes, Nat.mod_one]
  | succ k ih =>
    have hdigit : (UInt8.ofNat n).toNat = n % 256 := UInt8.toNat_ofNat'
    rw [toBytes, ofBytes_concat, ih, hdigit, pow_succ, Nat.mul_comm (256 ^ k) 256, Nat.mod_mul]
    omega

/-- The digits of a word, written out again, are the word. -/
theorem toBytes_ofBytes (bytes : List UInt8) : toBytes bytes.length (ofBytes bytes) = bytes := by
  induction bytes using List.reverseRecOn with
  | nil => rfl
  | append_singleton bytes b ih =>
    have hlt : b.toNat < 256 := b.toNat_lt
    have hrest : (ofBytes bytes * 256 + b.toNat) / 256 = ofBytes bytes := by omega
    have hdigit : UInt8.ofNat (ofBytes bytes * 256 + b.toNat) = b := by
      apply UInt8.toNat_inj.mp
      rw [UInt8.toNat_ofNat']
      omega
    rw [List.length_append, List.length_singleton, ofBytes_concat, toBytes, hrest, hdigit, ih]

theorem ofBytes_lt (bytes : List UInt8) : ofBytes bytes < 256 ^ bytes.length := by
  induction bytes using List.reverseRecOn with
  | nil => decide
  | append_singleton bytes b ih =>
    have hlt : b.toNat < 256 := b.toNat_lt
    rw [ofBytes_concat, List.length_append, List.length_singleton, pow_succ]
    omega

/-- `acc = (acc << 8) | b` appends a digit, up to the width of the accumulator. -/
theorem shiftLeft_or_byte (acc : ℕ) (b : UInt8) :
    acc <<< 8 ||| b.toNat = acc * 256 + b.toNat := by
  rw [Nat.shiftLeft_eq, ← Nat.shiftLeft_eq, Nat.shiftLeft_add_eq_or_of_lt b.toNat_lt,
    Nat.shiftLeft_eq]

/-- The digit with index i of a number, as `toBytes` writes it. -/
theorem toBytes_eq_map (k n : ℕ) :
    toBytes k n = (List.range k).reverse.map (fun i => UInt8.ofNat (n / 256 ^ i)) := by
  induction k generalizing n with
  | zero => rfl
  | succ k ih =>
    rw [toBytes, ih, List.range_succ_eq_map, List.reverse_cons, List.map_append,
      ← List.map_reverse, List.map_map]
    simp only [List.map_cons, List.map_nil, pow_zero, Nat.div_one]
    congr 1
    apply List.map_congr_left
    intro i _
    simp only [Function.comp, Nat.div_div_eq_div_mul, pow_succ, Nat.succ_eq_add_one,
      Nat.mul_comm]

end Messenger.BigEndian
