/-
Where `isSameSubnet` reads the bytes of an IPv6 address.

Nothing in the comparison bounds the bytes it takes.  It reads nothing where the two
prefix lengths differ, and the one of a local address was counted bit by bit over the
sixteen bytes of a netmask.
-/
import NeighborDiscovery.Network.NeighborTable
import NeighborDiscovery.Network.PrefixMatching

namespace NeighborDiscovery

namespace NetInterfaceManager

/-! ## The counter of `getInterfaces` -/

/-- The values that `++prefixLength` gives for the bits of a byte, up to the first
that is not set. -/
def bitCounts (byte : UInt8) : List Nat → UInt8 → List UInt8
  | [], _ => []
  | b :: bits, count =>
    if byte.toNat.testBit b then (count + 1) :: bitCounts byte bits (count + 1) else []

/-- Its values for the bytes of a netmask. -/
def byteCounts : Bytes → UInt8 → List UInt8
  | [], _ => []
  | byte :: bytes, count =>
    let counts := bitCounts byte [7, 6, 5, 4, 3, 2, 1, 0] count
    counts ++ byteCounts bytes (counts.getLast?.getD count)

theorem toNat_succ {count : UInt8} (h : count.toNat < 255) :
    (count + 1).toNat = count.toNat + 1 := by
  rw [UInt8.toNat_add]
  show (count.toNat + 1) % 256 = count.toNat + 1
  omega

theorem bitCounts_eq (byte : UInt8) {bits : List Nat} {count : UInt8}
    (h : count.toNat + bits.length ≤ 255) :
    (bitCounts byte bits count).map UInt8.toNat =
      List.range' (count.toNat + 1) (bits.takeWhile fun b => byte.toNat.testBit b).length := by
  induction bits generalizing count with
  | nil => rfl
  | cons b bits ih =>
    rw [List.length_cons] at h
    have hsucc : (count + 1).toNat = count.toNat + 1 := toNat_succ (by omega)
    unfold bitCounts
    by_cases hb : byte.toNat.testBit b = true
    · rw [if_pos hb, List.takeWhile_cons_of_pos hb, List.map_cons, List.length_cons,
        List.range'_succ, ih (by omega), hsucc]
    · rw [if_neg hb, List.takeWhile_cons_of_neg hb]
      rfl

theorem getLast_bitCounts (byte : UInt8) {bits : List Nat} {count : UInt8}
    (h : count.toNat + bits.length ≤ 255) :
    ((bitCounts byte bits count).getLast?.getD count).toNat =
      count.toNat + (bits.takeWhile fun b => byte.toNat.testBit b).length := by
  have hlast : ((bitCounts byte bits count).getLast?.getD count).toNat =
      ((bitCounts byte bits count).map UInt8.toNat).getLast?.getD count.toNat := by
    rw [List.getLast?_map]
    cases (bitCounts byte bits count).getLast? with
    | none => rfl
    | some last => rfl
  rw [hlast, bitCounts_eq byte h]
  cases (bits.takeWhile fun b => byte.toNat.testBit b).length with
  | zero => rfl
  | succ n =>
    rw [List.getLast?_range']
    simp
    omega

theorem foldl_leadingOnes (bytes : Bytes) (n : Nat) :
    bytes.foldl (fun n byte => n + leadingOnes byte) n = n + (bytes.map leadingOnes).sum := by
  induction bytes generalizing n with
  | nil => rfl
  | cons byte bytes ih =>
    rw [List.foldl_cons, ih, List.map_cons, List.sum_cons]
    omega

theorem byteCounts_eq {bytes : Bytes} {count : UInt8} (h : count.toNat + 8 * bytes.length ≤ 255) :
    (byteCounts bytes count).map UInt8.toNat =
      List.range' (count.toNat + 1) (bytes.map leadingOnes).sum := by
  induction bytes generalizing count with
  | nil => rfl
  | cons byte bytes ih =>
    rw [List.length_cons] at h
    have hbits : count.toNat + [7, 6, 5, 4, 3, 2, 1, 0].length ≤ 255 := by
      show count.toNat + 8 ≤ 255
      omega
    have hlast : ((bitCounts byte [7, 6, 5, 4, 3, 2, 1, 0] count).getLast?.getD count).toNat =
        count.toNat + leadingOnes byte := getLast_bitCounts byte hbits
    have hle := leadingOnes_le byte
    unfold byteCounts
    dsimp only
    rw [List.map_append, bitCounts_eq byte hbits, ih (by omega), hlast, List.map_cons,
      List.sum_cons, ← List.range'_append_1]
    show List.range' (count.toNat + 1) (leadingOnes byte) ++ _ = _
    rw [Nat.add_right_comm count.toNat]

/-- The counter goes up one by one from 0 to the prefix length, at most 128. -/
theorem prefixLength_counted (netmask : InAddr .inet6) :
    (byteCounts netmask.toList 0).map UInt8.toNat = List.range' 1 (prefixLength netmask).toNat ∧
      (prefixLength netmask).toNat ≤ 128 := by
  have hle := foldl_leadingOnes_le netmask.toList 0
  have hlen : netmask.toList.length = 16 := Vector.length_toList
  rw [foldl_leadingOnes, hlen] at hle
  have hcounted : (prefixLength netmask).toNat = (netmask.toList.map leadingOnes).sum := by
    unfold prefixLength
    rw [foldl_leadingOnes, UInt8.toNat_ofNat']
    omega
  refine ⟨?_, prefixLength_le netmask⟩
  rw [hcounted]
  apply byteCounts_eq
  rw [hlen]
  decide

end NetInterfaceManager

namespace IPAddressManager

/-! ## What the comparison reads -/

/-- A read of both addresses: the first bytes, or one byte by its index. -/
inductive AddressRead where
  | memcmp (n : Nat)
  | masked (i : Nat)

def AddressRead.Inside : AddressRead → Prop
  | .memcmp n => n ≤ 16
  | .masked i => i < 16

variable (pton : InetPton)

/-- The reads of `isSameSubnet(const IPv6Info&, const IPv6Info&)`. -/
def addressReads (ip1 ip2 : IPv6Info) : List AddressRead :=
  if ip1.prefixLength ≠ ip2.prefixLength then []
  else
    match (pton .inet6 (cStr ip1.address)).addr?, (pton .inet6 (cStr ip2.address)).addr? with
    | some addr1, some addr2 =>
      let fullBytes := ip1.prefixLength.toNat / 8
      let remainingBits := ip1.prefixLength.toNat &&& 8
      .memcmp fullBytes ::
        if addr1.toList.take fullBytes != addr2.toList.take fullBytes then []
        else if remainingBits > 0 then [.masked fullBytes]
        else []
    | _, _ => []

theorem memcmpEq_returns_iff {addr1 addr2 : InAddr .inet6} {n : Nat} :
    (∃ b, memcmpEq addr1 addr2 n = .ok b) ↔ n ≤ 16 := by
  unfold memcmpEq
  by_cases hn : n ≤ 16
  · rw [if_pos hn]
    exact iff_of_true ⟨_, rfl⟩ hn
  · rw [if_neg hn]
    exact iff_of_false (fun h => by cases h.choose_spec) hn

theorem maskedEq_returns_iff {addr1 addr2 : InAddr .inet6} {i : Nat} {mask : UInt8} :
    (∃ b, maskedEq addr1 addr2 i mask = .ok b) ↔ i < 16 := by
  by_cases hi : i < 16
  · obtain ⟨b1, hbyte1, -⟩ := byteAt_ok addr1 hi
    obtain ⟨b2, hbyte2, -⟩ := byteAt_ok addr2 hi
    refine iff_of_true ⟨b1 &&& mask == b2 &&& mask, ?_⟩ hi
    unfold maskedEq
    rw [hbyte1, hbyte2]
    rfl
  · refine iff_of_false (fun h => ?_) hi
    obtain ⟨b, hb⟩ := h
    obtain ⟨byte1, hbyte1, -⟩ := Fallible.bind_eq_ok.mp hb
    unfold byteAt at hbyte1
    rw [List.getElem?_eq_none (by rw [length_addr]; omega)] at hbyte1
    cases hbyte1

theorem addressReads_none {ip1 ip2 : IPv6Info} (h : (pton .inet6 (cStr ip1.address)).addr? = none ∨
    (pton .inet6 (cStr ip2.address)).addr? = none) : addressReads pton ip1 ip2 = [] := by
  unfold addressReads
  split
  · rfl
  · split
    · rename_i addr1 addr2 h1 h2
      rcases h with h | h
      · rw [h] at h1
        cases h1
      · rw [h] at h2
        cases h2
    · rfl

theorem isSameSubnetIPv6_returns_iff_of_parsed {ip1 ip2 : IPv6Info} {addr1 addr2 : InAddr .inet6}
    (h1 : (pton .inet6 (cStr ip1.address)).addr? = some addr1)
    (h2 : (pton .inet6 (cStr ip2.address)).addr? = some addr2)
    (hprefixes : ip1.prefixLength = ip2.prefixLength) :
    (∃ b, isSameSubnetIPv6 pton ip1 ip2 = .ok b) ↔
      ∀ r ∈ addressReads pton ip1 ip2, r.Inside := by
  unfold isSameSubnetIPv6 addressReads
  rw [if_neg (not_not_intro hprefixes), if_neg (not_not_intro hprefixes), h1, h2]
  dsimp only
  generalize ip1.prefixLength.toNat / 8 = fullBytes
  generalize ip1.prefixLength.toNat &&& 8 = remainingBits
  by_cases hfull : fullBytes ≤ 16
  · rw [memcmpEq_ok hfull, Fallible.ok_bind, List.forall_mem_cons]
    have hinside : (AddressRead.memcmp fullBytes).Inside := hfull
    by_cases hsame : addr1.toList.take fullBytes = addr2.toList.take fullBytes
    · have hne : (addr1.toList.take fullBytes != addr2.toList.take fullBytes) = false := by
        simp [hsame]
      rw [beq_iff_eq.mpr hsame, hne, if_neg (by decide : ¬(!true) = true),
        if_neg Bool.false_ne_true]
      by_cases hremaining : remainingBits > 0
      · rw [if_pos hremaining, if_pos hremaining, List.forall_mem_singleton]
        refine Iff.trans ?_ (and_iff_right hinside).symm
        exact maskedEq_returns_iff
      · rw [if_neg hremaining, if_neg hremaining]
        exact iff_of_true ⟨_, rfl⟩ ⟨hinside, fun r hr => absurd hr List.not_mem_nil⟩
    · have hne : (addr1.toList.take fullBytes != addr2.toList.take fullBytes) = true := by
        simp [hsame]
      rw [beq_eq_false_iff_ne.mpr hsame, hne, if_pos (by decide : (!false) = true), if_pos rfl]
      exact iff_of_true ⟨_, rfl⟩ ⟨hinside, fun r hr => absurd hr List.not_mem_nil⟩
  · refine iff_of_false (fun h => ?_) fun hall => hfull (hall _ (List.mem_cons_self ..))
    obtain ⟨b, hb⟩ := h
    obtain ⟨same, hsame, -⟩ := Fallible.bind_eq_ok.mp hb
    exact hfull (memcmpEq_returns_iff.mp ⟨same, hsame⟩)

/-- The comparison answers exactly if every read is inside the addresses. -/
theorem isSameSubnetIPv6_returns_iff (ip1 ip2 : IPv6Info) :
    (∃ b, isSameSubnetIPv6 pton ip1 ip2 = .ok b) ↔
      ∀ r ∈ addressReads pton ip1 ip2, r.Inside := by
  have hnone : (∃ b, (Except.ok false : Except Fault Bool) = .ok b) ↔
      ∀ r ∈ ([] : List AddressRead), r.Inside :=
    iff_of_true ⟨_, rfl⟩ fun r hr => absurd hr List.not_mem_nil
  by_cases hprefixes : ip1.prefixLength = ip2.prefixLength
  · cases h1 : (pton .inet6 (cStr ip1.address)).addr? with
    | none =>
      rw [isSameSubnetIPv6_unparsed (Or.inl h1), addressReads_none pton (Or.inl h1)]
      exact hnone
    | some addr1 =>
      cases h2 : (pton .inet6 (cStr ip2.address)).addr? with
      | none =>
        rw [isSameSubnetIPv6_unparsed (Or.inr h2), addressReads_none pton (Or.inr h2)]
        exact hnone
      | some addr2 => exact isSameSubnetIPv6_returns_iff_of_parsed pton h1 h2 hprefixes
  · rw [isSameSubnetIPv6_unlike hprefixes]
    unfold addressReads
    rw [if_pos hprefixes]
    exact hnone

end IPAddressManager

open NetInterfaceManager IPAddressManager

/-- Against the interfaces that `getInterfaces` collects, no IPv6 address from another
host moves a read out of the addresses.  The update that makes the comparisons ends,
and the 8 bits of the local counter are enough. -/
theorem reads_stay_inside (ntop : InetNtop) {order : Traversal NetInterface}
    {entries : List IfAddrs} {interfaces : FunctionReturn (List NetInterface)}
    (hget : getInterfaces ntop order (some entries) = .ok interfaces) (host : Host) {env : Env}
    (henv : env.interfaces = interfaces) :
    (∀ loc ∈ env.nifs, ∀ lIPv6 ∈ loc.ipv6s, ∀ rIPv6 : IPv6Info,
      ∀ r ∈ addressReads host.pton lIPv6 rIPv6, r.Inside) ∧
    (∀ (nnd : NetworkNeighborDiscoverer) (receivedNifs : KeyedMap.Map Bytes NetInterface),
      ∃ t, updateNeighbors host env nnd env.nifs receivedNifs = .ok t) ∧
    ∀ netmask : InAddr .inet6,
      (byteCounts netmask.toList 0).map UInt8.toNat = List.range' 1 (prefixLength netmask).toNat ∧
        (prefixLength netmask).toNat ≤ 128 := by
  have hfit : ∀ nif ∈ env.nifs, PrefixesFit nif := by
    rcases getInterfaces_ok ntop hget with ⟨hnone, -⟩ | ⟨nifs, -, hreturned, -, hfits⟩
    · cases hnone
    · have hnifs : env.nifs = nifs := by
        unfold Env.nifs
        rw [henv, hreturned]
        rfl
      rw [hnifs]
      exact hfits
  refine ⟨fun loc hloc lIPv6 hlIPv6 rIPv6 => ?_, fun nnd receivedNifs =>
    updateNeighbors_returns hfit nnd receivedNifs, prefixLength_counted⟩
  exact (isSameSubnetIPv6_returns_iff host.pton lIPv6 rIPv6).mp
    (isSameSubnetIPv6_returns host.pton (hfit loc hloc lIPv6 hlIPv6) rIPv6)

namespace Small

/-- An address whose netmask has all bits set. -/
def hostRoute : List IfAddrs :=
  [⟨text "eth0", some (.inet6 (Vector.replicate 16 17) (some (Vector.replicate 16 255))), false,
    true⟩]

def hostRouteNtop : InetNtop := fun _ _ => some (text "fe80::1")

def hostRouteNif : NetInterface := ⟨text "eth0", [], [], [⟨text "fe80::1", 128⟩]⟩

theorem hostRoute_collected : getInterfaces hostRouteNtop (.kept NetInterface) (some hostRoute) =
    .ok (.ofCodeData .Ok [hostRouteNif]) := rfl

end Small

theorem reads_stay_inside_small :
    addressReads Small.host.pton ⟨text "fe80::1", 128⟩ ⟨text "fe80::1", 128⟩ = [.memcmp 16] ∧
      ∀ rIPv6 : IPv6Info, ∀ r ∈ addressReads Small.host.pton ⟨text "fe80::1", 128⟩ rIPv6,
        r.Inside :=
  ⟨rfl, (reads_stay_inside Small.hostRouteNtop Small.hostRoute_collected Small.host
    (rfl : (Small.env [Small.hostRouteNif] [] 0).interfaces = _)).1 Small.hostRouteNif
    (List.mem_singleton_self _) _ (List.mem_singleton_self _)⟩

end NeighborDiscovery
