/-
`IPAddressManager::isSameSubnet`.

The IPv4 form compares netmasks as text and addresses under the parsed mask.  The
IPv6 form takes the bits after the last full byte as `prefixLength & CHAR_BIT`,
which is 0 or 8 where the remainder modulo 8 was meant, and it indexes the byte
after the full ones without a bound.
-/
import NeighborDiscovery.Library.Fallible
import NeighborDiscovery.Network.NetInterface
import NeighborDiscovery.Network.Sockets.InetAddr

namespace NeighborDiscovery

open Fallible

namespace IPAddressManager

variable (pton : InetPton)

def ntohl (addr : InAddr .inet) : UInt32 :=
  addr.toList.foldl (fun acc b => acc <<< 8 ||| b.toUInt32) 0

/-- `isSameSubnet(const IPv4Info&, const IPv4Info&)`. -/
def isSameSubnetIPv4 (ip1 ip2 : IPv4Info) : Bool :=
  if ip1.netmask ≠ ip2.netmask then false
  else
    match (pton .inet (cStr ip1.address)).addr?, (pton .inet (cStr ip2.address)).addr?,
        (pton .inet (cStr ip1.netmask)).addr? with
    | some addr1, some addr2, some mask =>
      let subnet1bin := ntohl addr1 &&& ntohl mask
      let subnet2bin := ntohl addr2 &&& ntohl mask
      subnet1bin == subnet2bin
    | _, _, _ => false

/-- `memcmp(addr1.s6_addr, addr2.s6_addr, n) == 0`. -/
def memcmpEq (addr1 addr2 : InAddr .inet6) (n : Nat) : Except Fault Bool :=
  if n ≤ 16 then .ok (addr1.toList.take n == addr2.toList.take n) else .error .outOfRange

def byteAt (addr : InAddr .inet6) (i : Nat) : Except Fault UInt8 :=
  match addr.toList[i]? with
  | some b => .ok b
  | none => .error .outOfRange

/-- `(addr1.s6_addr[i] & mask) == (addr2.s6_addr[i] & mask)`. -/
def maskedEq (addr1 addr2 : InAddr .inet6) (i : Nat) (mask : UInt8) : Except Fault Bool := do
  let byte1 ← byteAt addr1 i
  let byte2 ← byteAt addr2 i
  return byte1 &&& mask == byte2 &&& mask

/-- `isSameSubnet(const IPv6Info&, const IPv6Info&)`. -/
def isSameSubnetIPv6 (ip1 ip2 : IPv6Info) : Except Fault Bool :=
  if ip1.prefixLength ≠ ip2.prefixLength then .ok false
  else
    match (pton .inet6 (cStr ip1.address)).addr?, (pton .inet6 (cStr ip2.address)).addr? with
    | some addr1, some addr2 => do
      let fullBytes := ip1.prefixLength.toNat / 8
      let remainingBits := ip1.prefixLength.toNat &&& 8
      if !(← memcmpEq addr1 addr2 fullBytes) then
        return false
      if remainingBits > 0 then
        return ← maskedEq addr1 addr2 fullBytes (UInt8.ofNat (0xFF <<< (8 - remainingBits)))
      return true
    | _, _ => .ok false

/-- A prefix that fits an address keeps the comparison inside the addresses. -/
theorem isSameSubnetIPv6_returns {ip1 : IPv6Info} (h : ip1.prefixLength.toNat ≤ 128)
    (ip2 : IPv6Info) : ∃ b, isSameSubnetIPv6 pton ip1 ip2 = .ok b := by
  unfold isSameSubnetIPv6
  by_cases hprefix : ip1.prefixLength = ip2.prefixLength
  · rw [if_neg (not_not_intro hprefix)]
    cases (pton .inet6 (cStr ip1.address)).addr? with
    | none => exact ⟨false, rfl⟩
    | some addr1 =>
      cases (pton .inet6 (cStr ip2.address)).addr? with
      | none => exact ⟨false, rfl⟩
      | some addr2 =>
        have hfull : memcmpEq addr1 addr2 (ip1.prefixLength.toNat / 8) = .ok _ :=
          if_pos (by omega)
        dsimp only
        rw [hfull, ok_bind]
        split
        · exact ⟨false, rfl⟩
        · split
          · rename_i hremaining
            -- Only a prefix of 128 has no byte behind the full ones, and it needs none.
            have hne : ip1.prefixLength.toNat ≠ 128 := fun heq => by
              rw [heq] at hremaining
              exact absurd hremaining (by decide)
            have h1 : ip1.prefixLength.toNat / 8 < addr1.toList.length := by
              rw [Vector.length_toList]
              show _ < 16
              omega
            have h2 : ip1.prefixLength.toNat / 8 < addr2.toList.length := by
              rw [Vector.length_toList]
              show _ < 16
              omega
            unfold maskedEq byteAt
            rw [List.getElem?_eq_getElem h1, List.getElem?_eq_getElem h2]
            exact ⟨_, rfl⟩
          · exact ⟨true, rfl⟩
  · rw [if_pos hprefix]
    exact ⟨false, rfl⟩

theorem memcmpEq_fault {addr1 addr2 : InAddr .inet6} {n : Nat} {e : Fault}
    (h : memcmpEq addr1 addr2 n = .error e) : e = .outOfRange := by
  unfold memcmpEq at h
  split at h
  · cases h
  · cases h
    rfl

theorem byteAt_fault {addr : InAddr .inet6} {i : Nat} {e : Fault}
    (h : byteAt addr i = .error e) : e = .outOfRange := by
  unfold byteAt at h
  split at h
  · cases h
  · cases h
    rfl

theorem maskedEq_fault {addr1 addr2 : InAddr .inet6} {i : Nat} {mask : UInt8} {e : Fault}
    (h : maskedEq addr1 addr2 i mask = .error e) : e = .outOfRange := by
  rcases bind_eq_error.mp h with hbyte | ⟨byte1, -, h⟩
  · exact byteAt_fault hbyte
  · rcases bind_eq_error.mp h with hbyte | ⟨byte2, -, h⟩
    · exact byteAt_fault hbyte
    · cases h

/-- The comparison faults only where it leaves the addresses. -/
theorem isSameSubnetIPv6_fault {ip1 ip2 : IPv6Info} {e : Fault}
    (h : isSameSubnetIPv6 pton ip1 ip2 = .error e) : e = .outOfRange := by
  unfold isSameSubnetIPv6 at h
  split at h
  · cases h
  · split at h
    · rcases bind_eq_error.mp h with hmem | ⟨same, -, h⟩
      · exact memcmpEq_fault hmem
      · split at h
        · cases h
        · split at h
          · exact maskedEq_fault h
          · cases h
    · cases h

theorem isSameSubnetIPv4_comm (ip1 ip2 : IPv4Info) :
    isSameSubnetIPv4 pton ip1 ip2 = isSameSubnetIPv4 pton ip2 ip1 := by
  unfold isSameSubnetIPv4
  by_cases hmask : ip1.netmask = ip2.netmask
  · rw [if_neg (not_not_intro hmask), if_neg (not_not_intro hmask.symm), hmask]
    cases (pton .inet (cStr ip1.address)).addr? <;>
      cases (pton .inet (cStr ip2.address)).addr? <;>
      cases (pton .inet (cStr ip2.netmask)).addr? <;> try rfl
    exact Bool.beq_comm
  · rw [if_pos hmask, if_pos fun h => hmask h.symm]

theorem memcmpEq_comm (addr1 addr2 : InAddr .inet6) (n : Nat) :
    memcmpEq addr1 addr2 n = memcmpEq addr2 addr1 n := by
  unfold memcmpEq
  rw [Bool.beq_comm]

theorem maskedEq_comm (addr1 addr2 : InAddr .inet6) (i : Nat) (mask : UInt8) :
    maskedEq addr1 addr2 i mask = maskedEq addr2 addr1 i mask := by
  unfold maskedEq byteAt
  by_cases hi : i < 16
  · have h1 : i < addr1.toList.length := by rw [Vector.length_toList]; exact hi
    have h2 : i < addr2.toList.length := by rw [Vector.length_toList]; exact hi
    rw [List.getElem?_eq_getElem h1, List.getElem?_eq_getElem h2]
    exact congrArg Except.ok Bool.beq_comm
  · have h1 : addr1.toList.length ≤ i := by rw [Vector.length_toList]; exact Nat.le_of_not_lt hi
    have h2 : addr2.toList.length ≤ i := by rw [Vector.length_toList]; exact Nat.le_of_not_lt hi
    rw [List.getElem?_eq_none h1, List.getElem?_eq_none h2]

theorem isSameSubnetIPv6_comm (ip1 ip2 : IPv6Info) :
    isSameSubnetIPv6 pton ip1 ip2 = isSameSubnetIPv6 pton ip2 ip1 := by
  unfold isSameSubnetIPv6
  by_cases hprefix : ip1.prefixLength = ip2.prefixLength
  · rw [if_neg (not_not_intro hprefix), if_neg (not_not_intro hprefix.symm), hprefix]
    cases (pton .inet6 (cStr ip1.address)).addr? with
    | none => cases (pton .inet6 (cStr ip2.address)).addr? <;> rfl
    | some addr1 =>
      cases (pton .inet6 (cStr ip2.address)).addr? with
      | none => rfl
      | some addr2 => simp only [memcmpEq_comm addr2 addr1, maskedEq_comm addr2 addr1]
  · rw [if_pos hprefix, if_pos fun h => hprefix h.symm]

end IPAddressManager

end NeighborDiscovery
