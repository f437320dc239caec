/-
`isSameSubnet` as a relation.

Both forms answer whether two addresses have the same subnet: for IPv4 the netmask
text with the masked address, for IPv6 the prefix length with the bytes compared.
An address that does not parse has none.
-/
import NeighborDiscovery.Library.PartialKernel
import NeighborDiscovery.Network.PrefixMatching

namespace NeighborDiscovery

open PartialKernel

namespace IPAddressManager

variable (pton : InetPton)

/-- The netmask as text and the address under it. -/
def subnetIPv4 (ip : IPv4Info) : Option (Bytes × UInt32) := do
  let addr ← (pton .inet (cStr ip.address)).addr?
  let mask ← (pton .inet (cStr ip.netmask)).addr?
  return (ip.netmask, ntohl addr &&& ntohl mask)

/-- The prefix length and the bytes that are compared for it. -/
def subnetIPv6 (ip : IPv6Info) : Option (UInt8 × Bytes) := do
  let addr ← (pton .inet6 (cStr ip.address)).addr?
  return (ip.prefixLength, addr.toList.take (comparedBytes ip.prefixLength.toNat))

/-- An IPv6 address with a prefix that fits it. -/
abbrev FittingIPv6Info := { ip : IPv6Info // ip.prefixLength.toNat ≤ 128 }

variable {pton}

theorem subnetIPv4_eq_some {ip : IPv4Info} {subnet : Bytes × UInt32} :
    subnetIPv4 pton ip = some subnet ↔ ∃ addr mask,
      (pton .inet (cStr ip.address)).addr? = some addr ∧
      (pton .inet (cStr ip.netmask)).addr? = some mask ∧
      (ip.netmask, ntohl addr &&& ntohl mask) = subnet := by
  simp only [subnetIPv4, bind, pure, Option.bind_eq_some_iff, Option.some_inj, exists_and_left]

theorem isSameSubnetIPv4_iff (ip1 ip2 : IPv4Info) :
    isSameSubnetIPv4 pton ip1 ip2 = true ↔ SameValue (subnetIPv4 pton) ip1 ip2 := by
  unfold isSameSubnetIPv4
  by_cases hmask : ip1.netmask = ip2.netmask
  · rw [if_neg (not_not_intro hmask)]
    split
    · rename_i addr1 addr2 mask haddr1 haddr2 hparsed
      have hone := subnetIPv4_eq_some.mpr ⟨addr1, mask, haddr1, hparsed, rfl⟩
      rw [hmask] at hparsed
      have htwo := subnetIPv4_eq_some.mpr ⟨addr2, mask, haddr2, hparsed, rfl⟩
      rw [sameValue_iff hone htwo, hmask, Prod.mk.injEq, beq_iff_eq]
      exact (and_iff_right rfl).symm
    · rename_i hunparsed
      refine ⟨fun h => Bool.noConfusion h, fun h => ?_⟩
      obtain ⟨subnet, h1, h2⟩ := h
      obtain ⟨addr1, mask, haddr1, hparsed, -⟩ := subnetIPv4_eq_some.mp h1
      obtain ⟨addr2, mask2, haddr2, -, -⟩ := subnetIPv4_eq_some.mp h2
      exact absurd hparsed (hunparsed addr1 addr2 mask haddr1 haddr2)
  · rw [if_pos hmask]
    refine ⟨fun h => Bool.noConfusion h, fun h => ?_⟩
    obtain ⟨subnet, h1, h2⟩ := h
    obtain ⟨addr1, mask1, -, -, heq1⟩ := subnetIPv4_eq_some.mp h1
    obtain ⟨addr2, mask2, -, -, heq2⟩ := subnetIPv4_eq_some.mp h2
    exact absurd (congrArg Prod.fst (heq1.trans heq2.symm)) hmask

theorem subnetIPv6_some {ip : IPv6Info} {addr : InAddr .inet6}
    (h : (pton .inet6 (cStr ip.address)).addr? = some addr) :
    subnetIPv6 pton ip =
      some (ip.prefixLength, addr.toList.take (comparedBytes ip.prefixLength.toNat)) := by
  unfold subnetIPv6
  rw [h]
  rfl

theorem subnetIPv6_none {ip : IPv6Info} (h : (pton .inet6 (cStr ip.address)).addr? = none) :
    subnetIPv6 pton ip = none := by
  unfold subnetIPv6
  rw [h]
  rfl

theorem isSameSubnetIPv6_iff (ip1 ip2 : IPv6Info) (hle : ip1.prefixLength.toNat ≤ 128) :
    isSameSubnetIPv6 pton ip1 ip2 = .ok true ↔ SameValue (subnetIPv6 pton) ip1 ip2 := by
  have hfalse : ¬(Except.ok false : Except Fault Bool) = .ok true := fun h => by cases h
  cases h1 : (pton .inet6 (cStr ip1.address)).addr? with
  | none =>
    rw [isSameSubnetIPv6_unparsed (Or.inl h1)]
    exact iff_of_false hfalse (not_sameValue (Or.inl (subnetIPv6_none h1)))
  | some addr1 =>
    cases h2 : (pton .inet6 (cStr ip2.address)).addr? with
    | none =>
      rw [isSameSubnetIPv6_unparsed (Or.inr h2)]
      exact iff_of_false hfalse (not_sameValue (Or.inr (subnetIPv6_none h2)))
    | some addr2 =>
      rw [sameValue_iff (subnetIPv6_some h1) (subnetIPv6_some h2), Prod.mk.injEq]
      by_cases hprefixes : ip1.prefixLength = ip2.prefixLength
      · obtain ⟨r, hrun, hr⟩ := isSameSubnetIPv6_eq pton h1 h2 hprefixes hle
        rw [hrun, Except.ok.injEq, hr, hprefixes]
        exact (and_iff_right rfl).symm
      · rw [isSameSubnetIPv6_unlike hprefixes]
        exact iff_of_false hfalse fun h => hprefixes h.1

theorem isSome_subnetIPv4 (ip : IPv4Info) :
    ((pton .inet (cStr ip.address)).addr?.isSome ∧ (pton .inet (cStr ip.netmask)).addr?.isSome) ↔
      (subnetIPv4 pton ip).isSome := by
  unfold subnetIPv4
  cases (pton .inet (cStr ip.address)).addr? with
  | none => simp
  | some addr =>
    cases (pton .inet (cStr ip.netmask)).addr? with
    | none => simp
    | some mask => simp

theorem isSome_subnetIPv6 (ip : IPv6Info) :
    (pton .inet6 (cStr ip.address)).addr?.isSome ↔ (subnetIPv6 pton ip).isSome := by
  unfold subnetIPv6
  cases (pton .inet6 (cStr ip.address)).addr? with
  | none => simp
  | some addr => simp

end IPAddressManager

open IPAddressManager

/-- Both forms always answer, and what they answer is symmetric and transitive.  An
address is in its own subnet exactly if it parses, and for IPv4 its netmask too. -/
theorem subnet_partial_equivalence (pton : InetPton) :
    PartialEquivalence (fun ip1 ip2 => isSameSubnetIPv4 pton ip1 ip2 = true)
      (fun ip => (pton .inet (cStr ip.address)).addr?.isSome ∧
        (pton .inet (cStr ip.netmask)).addr?.isSome) ∧
    (∀ ip1 ip2 : FittingIPv6Info, ∃ b, isSameSubnetIPv6 pton ip1 ip2 = .ok b) ∧
    PartialEquivalence
      (fun ip1 ip2 : FittingIPv6Info => isSameSubnetIPv6 pton ip1 ip2 = .ok true)
      (fun ip => (pton .inet6 (cStr ip.1.address)).addr?.isSome) := by
  refine ⟨?_, fun ip1 ip2 => isSameSubnetIPv6_returns pton ip1.2 ip2, ?_⟩
  · exact (partialEquivalence_sameValue (subnetIPv4 pton)).congr isSameSubnetIPv4_iff
      isSome_subnetIPv4
  · exact (partialEquivalence_sameValue fun ip : FittingIPv6Info => subnetIPv6 pton ip).congr
      (fun ip1 ip2 => isSameSubnetIPv6_iff ip1.1 ip2.1 ip1.2) fun ip => isSome_subnetIPv6 ip.1

end NeighborDiscovery
