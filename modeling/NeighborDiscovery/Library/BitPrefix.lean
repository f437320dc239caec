/-
The bits of a string of bytes, the most significant bit of the first byte first.

Two strings that differ have a first bit in which they do, and they agree on a
prefix exactly if that bit lies behind it.  A prefix of whole bytes is the same in
both exactly if the bytes are.
-/
import Mathlib.Data.Nat.Find

namespace BitPrefix

def bitAt (bytes : List UInt8) (i : Nat) : Bool :=
  (bytes.getD (i / 8) 0).toNat.testBit (7 - i % 8)

/-- The first `n` bits are the same. -/
def SamePrefix (l₁ l₂ : List UInt8) (n : Nat) : Prop := ∀ i < n, bitAt l₁ i = bitAt l₂ i

/-- The bits before number `d` are the same, and those at `d` are not. -/
def FirstDifference (l₁ l₂ : List UInt8) (d : Nat) : Prop :=
  SamePrefix l₁ l₂ d ∧ bitAt l₁ d ≠ bitAt l₂ d

variable {l₁ l₂ : List UInt8} {d m n : Nat}

/-! ## The first difference -/

theorem SamePrefix.mono (h : SamePrefix l₁ l₂ n) (hle : m ≤ n) : SamePrefix l₁ l₂ m :=
  fun i hi => h i (by omega)

theorem FirstDifference.samePrefix_iff (h : FirstDifference l₁ l₂ d) :
    SamePrefix l₁ l₂ n ↔ n ≤ d := by
  constructor
  · intro hsame
    by_contra hlt
    exact h.2 (hsame d (by omega))
  · intro hle
    exact h.1.mono hle

theorem exists_firstDifference (h : ¬ SamePrefix l₁ l₂ n) : ∃ d, FirstDifference l₁ l₂ d := by
  have hex : ∃ i, bitAt l₁ i ≠ bitAt l₂ i := by
    by_contra hnone
    apply h
    intro i _
    by_contra hne
    exact hnone ⟨i, hne⟩
  classical
  refine ⟨Nat.find hex, fun i hi => ?_, Nat.find_spec hex⟩
  have hmin := Nat.find_min hex hi
  exact not_not.mp hmin

/-- Two prefixes are alike in being the same exactly if the first difference lies in
both or in neither. -/
theorem samePrefix_congr : (SamePrefix l₁ l₂ m ↔ SamePrefix l₁ l₂ n) ↔
    ∀ d, FirstDifference l₁ l₂ d → (d < m ↔ d < n) := by
  constructor
  · intro h d hd
    rw [hd.samePrefix_iff, hd.samePrefix_iff] at h
    omega
  · intro h
    by_cases hall : ∃ d, FirstDifference l₁ l₂ d
    · obtain ⟨d, hd⟩ := hall
      have hlt := h d hd
      rw [hd.samePrefix_iff, hd.samePrefix_iff]
      omega
    · have hsame : ∀ k, SamePrefix l₁ l₂ k := fun k => by
        by_contra hk
        exact hall (exists_firstDifference hk)
      exact iff_of_true (hsame m) (hsame n)

/-! ## Whole bytes -/

theorem byte_eq_of_bits {x y : UInt8}
    (h : ∀ j < 8, x.toNat.testBit (7 - j) = y.toNat.testBit (7 - j)) : x = y := by
  apply UInt8.toNat_inj.mp
  apply Nat.eq_of_testBit_eq
  intro b
  by_cases hb : b < 8
  · have hbit := h (7 - b) (by omega)
    have hsub : 7 - (7 - b) = b := by omega
    rw [hsub] at hbit
    exact hbit
  · have hpow : 2 ^ 8 ≤ 2 ^ b := Nat.pow_le_pow_right (by omega) (by omega)
    have hx := x.toNat_lt
    have hy := y.toNat_lt
    rw [Nat.testBit_lt_two_pow (by omega), Nat.testBit_lt_two_pow (by omega)]

theorem getD_eq_of_samePrefix (h : SamePrefix l₁ l₂ (8 * n)) {k : Nat} (hk : k < n) :
    l₁.getD k 0 = l₂.getD k 0 := by
  apply byte_eq_of_bits
  intro j hj
  have hbit := h (8 * k + j) (by omega)
  have hdiv : (8 * k + j) / 8 = k := by omega
  have hmod : (8 * k + j) % 8 = j := by omega
  unfold bitAt at hbit
  rw [hdiv, hmod] at hbit
  exact hbit

theorem take_eq_take_iff (hlen : l₁.length = l₂.length) :
    l₁.take n = l₂.take n ↔ SamePrefix l₁ l₂ (8 * n) := by
  constructor
  · intro h i hi
    have hk : i / 8 < n := by omega
    have hbyte : l₁[i / 8]? = l₂[i / 8]? := by
      rw [← List.getElem?_take_of_lt hk, h, List.getElem?_take_of_lt hk]
    unfold bitAt
    rw [List.getD_eq_getElem?_getD, List.getD_eq_getElem?_getD, hbyte]
  · intro h
    apply List.ext_getElem?
    intro k
    by_cases hk : k < n
    · rw [List.getElem?_take_of_lt hk, List.getElem?_take_of_lt hk]
      by_cases hlt : k < l₁.length
      · have hlt' : k < l₂.length := by omega
        have hbyte := getD_eq_of_samePrefix h hk
        rw [List.getD_eq_getElem?_getD, List.getD_eq_getElem?_getD, List.getElem?_eq_getElem hlt,
          List.getElem?_eq_getElem hlt'] at hbyte
        rw [List.getElem?_eq_getElem hlt, List.getElem?_eq_getElem hlt']
        exact congrArg some hbyte
      · rw [List.getElem?_eq_none (by omega), List.getElem?_eq_none (by omega)]
    · rw [List.getElem?_take_eq_none (by omega), List.getElem?_take_eq_none (by omega)]

theorem bitAt_cons_of_lt {byte : UInt8} {bytes : List UInt8} {j : Nat} (hj : j < 8) :
    bitAt (byte :: bytes) j = byte.toNat.testBit (7 - j) := by
  have hdiv : j / 8 = 0 := by omega
  have hmod : j % 8 = j := by omega
  unfold bitAt
  rw [hdiv, hmod, List.getD_cons_zero]

theorem bitAt_cons_add {byte : UInt8} {bytes : List UInt8} (i : Nat) :
    bitAt (byte :: bytes) (i + 8) = bitAt bytes i := by
  have hdiv : (i + 8) / 8 = i / 8 + 1 := by omega
  have hmod : (i + 8) % 8 = i % 8 := by omega
  unfold bitAt
  rw [hdiv, hmod, List.getD_cons_succ]

end BitPrefix
