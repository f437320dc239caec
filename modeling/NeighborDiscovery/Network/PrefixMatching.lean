/-
What the IPv6 form of `isSameSubnet` compares.

The bits after the full bytes are counted as `prefixLength & CHAR_BIT`, which is 8
for an odd number of full bytes and 0 for an even one.  So the bits compared are
the prefix length rounded to a multiple of 16, from a remainder of 8 on upwards.
The answer is that of prefix matching unless the first bit in which the addresses
differ lies between the two.
-/
import Mathlib.Data.Nat.Bitwise
import NeighborDiscovery.Library.BitPrefix
import NeighborDiscovery.Network.DaemonRun
import NeighborDiscovery.Network.IPAddressManager

namespace NeighborDiscovery

open BitPrefix

namespace IPAddressManager

def comparedBytes (prefixLength : Nat) : Nat := 2 * ((prefixLength + 8) / 16)

def comparedBits (prefixLength : Nat) : Nat := 16 * ((prefixLength + 8) / 16)

/-! ## The comparison -/

section Compared

variable {addr1 addr2 : InAddr .inet6}

theorem length_addr (addr : InAddr .inet6) : addr.toList.length = 16 := Vector.length_toList

theorem memcmpEq_ok {n : Nat} (h : n ≤ 16) :
    memcmpEq addr1 addr2 n = .ok (addr1.toList.take n == addr2.toList.take n) := if_pos h

theorem byteAt_ok (addr : InAddr .inet6) {i : Nat} (h : i < 16) :
    ∃ b, byteAt addr i = .ok b ∧ addr.toList[i]? = some b := by
  have hlt : i < addr.toList.length := by rw [length_addr]; exact h
  have hbyte := List.getElem?_eq_getElem hlt
  refine ⟨_, ?_, hbyte⟩
  unfold byteAt
  rw [hbyte]

theorem and_fullMask (b : UInt8) : b &&& UInt8.ofNat (0xFF <<< (8 - 8)) = b := by
  have hmask : (UInt8.ofNat (0xFF <<< (8 - 8))).toNat = 2 ^ 8 - 1 := rfl
  apply UInt8.toNat_inj.mp
  rw [UInt8.toNat_and, hmask]
  exact Nat.and_two_pow_sub_one_of_lt_two_pow b.toNat_lt

/-- After an odd number of full bytes the code takes 8 bits more, after an even
number none. -/
theorem remainingBits_eq (prefixLength : Nat) :
    prefixLength &&& 8 = if prefixLength / 8 % 2 = 1 then 8 else 0 := by
  show prefixLength &&& 2 ^ 3 = if prefixLength / 2 ^ 3 % 2 = 1 then 8 else 0
  rw [Nat.and_two_pow, Nat.testBit_eq_decide_div_mod_eq]
  by_cases hodd : prefixLength / 2 ^ 3 % 2 = 1
  · rw [decide_eq_true hodd, if_pos hodd]
    rfl
  · rw [decide_eq_false hodd, if_neg hodd]
    rfl

theorem take_succ_eq_iff {l₁ l₂ : Bytes} {n : Nat} {b₁ b₂ : UInt8} (h₁ : l₁[n]? = some b₁)
    (h₂ : l₂[n]? = some b₂) :
    l₁.take (n + 1) = l₂.take (n + 1) ↔ l₁.take n = l₂.take n ∧ b₁ = b₂ := by
  rw [List.take_add_one, List.take_add_one, h₁, h₂]
  constructor
  · intro h
    obtain ⟨htake, hbyte⟩ := List.append_inj' h rfl
    exact ⟨htake, (List.cons.inj hbyte).1⟩
  · intro h
    rw [h.1, h.2]

end Compared

variable (pton : InetPton)

/-- The comparison is one of whole bytes. -/
theorem isSameSubnetIPv6_eq {ip1 ip2 : IPv6Info} {addr1 addr2 : InAddr .inet6}
    (h1 : (pton .inet6 (cStr ip1.address)).addr? = some addr1)
    (h2 : (pton .inet6 (cStr ip2.address)).addr? = some addr2)
    (hprefixes : ip1.prefixLength = ip2.prefixLength) (hle : ip1.prefixLength.toNat ≤ 128) :
    ∃ r, isSameSubnetIPv6 pton ip1 ip2 = .ok r ∧
      (r = true ↔ addr1.toList.take (comparedBytes ip1.prefixLength.toNat) =
        addr2.toList.take (comparedBytes ip1.prefixLength.toNat)) := by
  unfold isSameSubnetIPv6
  rw [if_neg (not_not_intro hprefixes), h1, h2]
  dsimp only
  generalize ip1.prefixLength.toNat = p at hle
  rw [memcmpEq_ok (by omega), Fallible.ok_bind, remainingBits_eq]
  by_cases hodd : p / 8 % 2 = 1
  · rw [if_pos hodd, if_pos (by omega : (8 : Nat) > 0)]
    obtain ⟨b1, hbyte1, hget1⟩ := byteAt_ok addr1 (by omega : p / 8 < 16)
    obtain ⟨b2, hbyte2, hget2⟩ := byteAt_ok addr2 (by omega : p / 8 < 16)
    have hbytes : comparedBytes p = p / 8 + 1 := by
      unfold comparedBytes
      omega
    rw [hbytes, take_succ_eq_iff hget1 hget2]
    by_cases hfull : addr1.toList.take (p / 8) = addr2.toList.take (p / 8)
    · rw [beq_iff_eq.mpr hfull]
      refine ⟨b1 == b2, ?_, ?_⟩
      · unfold maskedEq
        rw [hbyte1, hbyte2]
        simp only [Fallible.ok_bind, and_fullMask]
        rfl
      · rw [beq_iff_eq]
        exact (and_iff_right hfull).symm
    · rw [beq_eq_false_iff_ne.mpr hfull]
      exact ⟨false, rfl, fun h => Bool.noConfusion h, fun h => absurd h.1 hfull⟩
  · rw [if_neg hodd, if_neg (by omega : ¬ (0 : Nat) > 0)]
    have hbytes : comparedBytes p = p / 8 := by
      unfold comparedBytes
      omega
    rw [hbytes]
    refine ⟨addr1.toList.take (p / 8) == addr2.toList.take (p / 8), ?_, beq_iff_eq⟩
    cases addr1.toList.take (p / 8) == addr2.toList.take (p / 8) <;> rfl

/-- `isSameSubnet` answers whether the first `prefixLength` bits are the same, and no
where the prefix lengths differ or an address does not parse. -/
def MatchesPrefixes (ip1 ip2 : IPv6Info) : Prop :=
  match (pton .inet6 (cStr ip1.address)).addr?, (pton .inet6 (cStr ip2.address)).addr? with
  | some addr1, some addr2 =>
    if ip1.prefixLength = ip2.prefixLength then
      ip1.prefixLength.toNat ≤ 128 → ∃ r, isSameSubnetIPv6 pton ip1 ip2 = .ok r ∧
        (r = true ↔ SamePrefix addr1.toList addr2.toList ip1.prefixLength.toNat)
    else isSameSubnetIPv6 pton ip1 ip2 = .ok false
  | _, _ => isSameSubnetIPv6 pton ip1 ip2 = .ok false

/-- No first difference of the two addresses lies between the prefix and the bits
compared. -/
def DiffersOutside (ip1 ip2 : IPv6Info) : Prop :=
  ∀ addr1 addr2, (pton .inet6 (cStr ip1.address)).addr? = some addr1 →
    (pton .inet6 (cStr ip2.address)).addr? = some addr2 → ip1.prefixLength = ip2.prefixLength →
    ip1.prefixLength.toNat ≤ 128 → ∀ d, FirstDifference addr1.toList addr2.toList d →
      (d < comparedBits ip1.prefixLength.toNat ↔ d < ip1.prefixLength.toNat)

variable {pton} {ip1 ip2 : IPv6Info}

theorem compared_iff {addr1 addr2 : InAddr .inet6} (p : Nat) :
    addr1.toList.take (comparedBytes p) = addr2.toList.take (comparedBytes p) ↔
      SamePrefix addr1.toList addr2.toList (comparedBits p) := by
  have hbits : comparedBits p = 8 * comparedBytes p := by
    unfold comparedBits comparedBytes
    omega
  rw [hbits, take_eq_take_iff (by rw [length_addr, length_addr])]

theorem isSameSubnetIPv6_unlike (hprefixes : ip1.prefixLength ≠ ip2.prefixLength) :
    isSameSubnetIPv6 pton ip1 ip2 = .ok false := if_pos hprefixes

theorem isSameSubnetIPv6_unparsed (h : (pton .inet6 (cStr ip1.address)).addr? = none ∨
    (pton .inet6 (cStr ip2.address)).addr? = none) :
    isSameSubnetIPv6 pton ip1 ip2 = .ok false := by
  unfold isSameSubnetIPv6
  by_cases hprefixes : ip1.prefixLength = ip2.prefixLength
  · rw [if_neg (not_not_intro hprefixes)]
    rcases h with h | h
    · rw [h]
    · rw [h]
      cases (pton .inet6 (cStr ip1.address)).addr? <;> rfl
  · exact if_pos hprefixes

theorem matchesPrefixes_iff (pton : InetPton) (ip1 ip2 : IPv6Info) :
    MatchesPrefixes pton ip1 ip2 ↔ DiffersOutside pton ip1 ip2 := by
  unfold MatchesPrefixes DiffersOutside
  cases h1 : (pton .inet6 (cStr ip1.address)).addr? with
  | none =>
    refine iff_of_true (isSameSubnetIPv6_unparsed (Or.inl h1)) fun addr1 addr2 hparsed => ?_
    cases hparsed
  | some addr1 =>
    cases h2 : (pton .inet6 (cStr ip2.address)).addr? with
    | none =>
      refine iff_of_true (isSameSubnetIPv6_unparsed (Or.inr h2)) fun addr1 addr2 _ hparsed => ?_
      cases hparsed
    | some addr2 =>
      dsimp only
      by_cases hprefixes : ip1.prefixLength = ip2.prefixLength
      · rw [if_pos hprefixes]
        constructor
        · intro hmatches addr1' addr2' heq1 heq2 _ hle
          cases heq1
          cases heq2
          obtain ⟨r, hrun, hr⟩ := hmatches hle
          obtain ⟨r', hrun', hr'⟩ := isSameSubnetIPv6_eq pton h1 h2 hprefixes hle
          cases hrun.symm.trans hrun'
          rw [compared_iff] at hr'
          exact samePrefix_congr.mp (hr'.symm.trans hr)
        · intro houtside hle
          obtain ⟨r, hrun, hr⟩ := isSameSubnetIPv6_eq pton h1 h2 hprefixes hle
          rw [compared_iff] at hr
          have hcongr := samePrefix_congr.mpr (houtside addr1 addr2 rfl rfl hprefixes hle)
          exact ⟨r, hrun, hr.trans hcongr⟩
      · rw [if_neg hprefixes]
        exact iff_of_true (isSameSubnetIPv6_unlike hprefixes)
          fun _ _ _ _ heq => absurd heq hprefixes

end IPAddressManager

namespace Small

/-- Two subnets of a site, 0 and 1. -/
def subnetPton : InetPton
  | .inet, _ => .malformed
  | .inet6, s =>
    if s = text "2001:db8::1" then
      .parsed #v[32, 1, 13, 184, 0, 0, 0, 0, 0, 0, 0, 0, 0, 0, 0, 1]
    else if s = text "2001:db8:0:1::1" then
      .parsed #v[32, 1, 13, 184, 0, 0, 0, 1, 0, 0, 0, 0, 0, 0, 0, 1]
    else .malformed

end Small

/-- Bit 63 is the first in which the two differ.  It lies behind a prefix of 60 bits,
but inside the 64 that are compared. -/
theorem matchesPrefixes_rounded :
    IPAddressManager.isSameSubnetIPv6 Small.subnetPton ⟨text "2001:db8::1", 60⟩
        ⟨text "2001:db8:0:1::1", 60⟩ = .ok false ∧
      ¬ IPAddressManager.MatchesPrefixes Small.subnetPton ⟨text "2001:db8::1", 60⟩
        ⟨text "2001:db8:0:1::1", 60⟩ := by
  refine ⟨rfl, fun hmatches => ?_⟩
  obtain ⟨r, hrun, hr⟩ := hmatches (by decide)
  have hsame : SamePrefix [32, 1, 13, 184, 0, 0, 0, 0, 0, 0, 0, 0, 0, 0, 0, 1]
      [32, 1, 13, 184, 0, 0, 0, 1, 0, 0, 0, 0, 0, 0, 0, 1] 60 := by
    unfold SamePrefix
    decide
  cases hrun
  exact Bool.noConfusion (hr.mpr hsame)

end NeighborDiscovery
