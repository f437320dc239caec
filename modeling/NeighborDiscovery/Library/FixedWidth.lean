/-
Fixed-width little-endian digits of a natural number.

`digits k n` writes the low `k` base-256 digits of `n`, least significant first,
and `value` reads a digit string back.  The two are inverse on strings of one
width and on numbers below `256 ^ k`.
-/
import Mathlib.Algebra.Group.Nat.Defs
import Mathlib.Data.List.Basic

namespace FixedWidth

/-- The low `k` base-256 digits of `n`, least significant first. -/
def digits : Nat → Nat → List UInt8
  | 0, _ => []
  | k + 1, n => UInt8.ofNat n :: digits k (n / 256)

/-- The number a digit string stands for. -/
def value : List UInt8 → Nat
  | [] => 0
  | d :: ds => d.toNat + 256 * value ds

theorem length_digits (k n : Nat) : (digits k n).length = k := by
  induction k generalizing n with
  | zero => rfl
  | succ k ih => rw [digits, List.length_cons, ih]

theorem value_digits (k n : Nat) : value (digits k n) = n % 256 ^ k := by
  induction k generalizing n with
  | zero => rw [digits, value, Nat.pow_zero, Nat.mod_one]
  | succ k ih =>
    have hd : (UInt8.ofNat n).toNat = n % 256 := UInt8.toNat_ofNat'
    rw [digits, value, ih, hd, Nat.pow_succ, Nat.mul_comm (256 ^ k), Nat.mod_mul]

theorem value_lt (ds : List UInt8) : value ds < 256 ^ ds.length := by
  induction ds with
  | nil => exact Nat.one_pos
  | cons d ds ih =>
    have hd := d.toNat_lt
    rw [value, List.length_cons, Nat.pow_succ]
    omega

theorem digits_value (ds : List UInt8) : digits ds.length (value ds) = ds := by
  induction ds with
  | nil => rfl
  | cons d ds ih =>
    have hd := d.toNat_lt
    have hquot : (d.toNat + 256 * value ds) / 256 = value ds := by omega
    have hrem : UInt8.ofNat (d.toNat + 256 * value ds) = d := by
      apply UInt8.toNat_inj.mp
      rw [UInt8.toNat_ofNat']
      omega
    rw [List.length_cons, value, digits, hquot, ih, hrem]

end FixedWidth
