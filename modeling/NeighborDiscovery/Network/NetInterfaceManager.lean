/-
`NetInterfaceManager::getInterfaces`.

The entries of the list `getifaddrs` makes are gathered by interface name.  What
`inet_ntop` writes and the order of the map are left open.  Where `getifaddrs`
fails, the result holds an empty list and no message.
-/
import NeighborDiscovery.Containers.IndexedTimedSet
import NeighborDiscovery.Library.Fallible
import NeighborDiscovery.Network.NetInterface
import NeighborDiscovery.Network.Sockets.InetAddr

namespace NeighborDiscovery

open KeyedMap

/-- `inet_ntop`, a fixed function of the address; `none` stands for a null pointer. -/
abbrev InetNtop := (T : Family) → InAddr T → Option Bytes

/-- `ifa_addr` with `ifa_netmask`, by `sa_family`. -/
inductive IfaAddr where
  | inet (addr : InAddr .inet) (netmask : Option (InAddr .inet))
  | inet6 (addr : InAddr .inet6) (netmask : Option (InAddr .inet6))
  | packet (halen : UInt8) (addr : Vector UInt8 8)
  | other

/-- An entry of the list, with the two flags the source tests. -/
structure IfAddrs where
  name : Bytes
  addr : Option IfaAddr
  isLoopback : Bool
  isUp : Bool

namespace NetInterfaceManager

/-- The bits the inner loop counts: those set before the first one that is not. -/
def leadingOnes (byte : UInt8) : Nat :=
  ([7, 6, 5, 4, 3, 2, 1, 0].takeWhile fun b => byte.toNat.testBit b).length

/-- The count goes on in the next byte after a byte that ends it. -/
def prefixLength (netmask : InAddr .inet6) : UInt8 :=
  UInt8.ofNat (netmask.toList.foldl (fun count byte => count + leadingOnes byte) 0)

def hexDigit (n : Nat) : UInt8 := UInt8.ofNat (if n < 10 then 48 + n else 87 + n)

/-- `std::hex << std::setw(2) << std::setfill('0')`. -/
def hex (byte : UInt8) : Bytes := [hexDigit (byte.toNat / 16), hexDigit (byte.toNat % 16)]

/-- The loop over `sll_addr`, an array of eight bytes. -/
def macText (halen : UInt8) (addr : Vector UInt8 8) : Except Fault Bytes :=
  if halen.toNat ≤ 8 then
    .ok ((text ":").intercalate ((addr.toList.take halen.toNat).map hex))
  else .error .outOfRange

variable (ntop : InetNtop)

/-- The branches by family.  The IPv4 one does not test the netmask it reads. -/
def addAddress (iface : NetInterface) : IfaAddr → Except Fault NetInterface
  | .inet addr netmask =>
    match ntop .inet addr, netmask with
    | none, _ => .ok iface
    | some _, none => .error .outOfRange
    | some address, some nm =>
      match ntop .inet nm with
      | none => .ok iface
      | some mask => .ok { iface with ipv4s := iface.ipv4s ++ [⟨address, mask⟩] }
  | .inet6 addr netmask =>
    match ntop .inet6 addr with
    | none => .ok iface
    | some address =>
      .ok { iface with
        ipv6s := iface.ipv6s ++ [⟨address, (netmask.map prefixLength).getD 0⟩] }
  | .packet halen addr => do return { iface with mac := ← macText halen addr }
  | .other => .ok iface

/-- `interfaces[ifa->ifa_name]`, its name assigned. -/
def ifaceOf (interfaces : Map Bytes NetInterface) (name : Bytes) : NetInterface :=
  { (interfaces.lookup name).getD ⟨[], [], [], []⟩ with name := name }

/-- The body of the loop over the entries. -/
def addEntry (interfaces : Map Bytes NetInterface) (ifa : IfAddrs) :
    Except Fault (Map Bytes NetInterface) :=
  match ifa.addr with
  | none => .ok interfaces
  | some addr =>
    if ifa.isLoopback || !ifa.isUp then .ok interfaces
    else do
      let iface ← addAddress ntop (ifaceOf interfaces ifa.name) addr
      return interfaces.insert ifa.name iface

/-- `getInterfaces`, given the list `getifaddrs` makes. -/
def getInterfaces (order : Traversal NetInterface) :
    Option (List IfAddrs) → Except Fault (FunctionReturn (List NetInterface))
  | none => .ok (.ofCodeData .Error [])
  | some ifaddr => do
    let interfaces ← ifaddr.foldlM (addEntry ntop) ∅
    return .ofCodeData .Ok (order.visit (values interfaces))

/-! ## What it returns -/

theorem leadingOnes_le (byte : UInt8) : leadingOnes byte ≤ 8 :=
  (List.takeWhile_prefix _).length_le

theorem foldl_leadingOnes_le (bytes : Bytes) (count : Nat) :
    bytes.foldl (fun count byte => count + leadingOnes byte) count ≤ count + 8 * bytes.length := by
  induction bytes generalizing count with
  | nil => exact Nat.le_refl count
  | cons byte bytes ih =>
    have hone := leadingOnes_le byte
    have hrest := ih (count + leadingOnes byte)
    rw [List.foldl_cons, List.length_cons]
    omega

theorem prefixLength_le (netmask : InAddr .inet6) : (prefixLength netmask).toNat ≤ 128 := by
  have hcount := foldl_leadingOnes_le netmask.toList 0
  rw [Vector.length_toList] at hcount
  unfold prefixLength
  rw [UInt8.toNat_ofNat']
  exact Nat.le_trans (Nat.mod_le _ _) hcount

/-- No prefix of an interface is longer than an address. -/
def PrefixesFit (nif : NetInterface) : Prop := ∀ ip ∈ nif.ipv6s, ip.prefixLength.toNat ≤ 128

theorem addAddress_ok {iface iface' : NetInterface} {addr : IfaAddr}
    (h : addAddress ntop iface addr = .ok iface') :
    iface'.name = iface.name ∧ (PrefixesFit iface → PrefixesFit iface') := by
  cases addr with
  | inet addr netmask =>
    simp only [addAddress] at h
    split at h
    · cases h
      exact ⟨rfl, id⟩
    · cases h
    · split at h
      · cases h
        exact ⟨rfl, id⟩
      · cases h
        exact ⟨rfl, id⟩
  | inet6 addr netmask =>
    simp only [addAddress] at h
    split at h
    · cases h
      exact ⟨rfl, id⟩
    · cases h
      refine ⟨rfl, fun hfit ip hip => ?_⟩
      rcases List.mem_append.mp hip with hip | hip
      · exact hfit ip hip
      · rw [List.mem_singleton.mp hip]
        cases netmask with
        | none => exact Nat.zero_le 128
        | some netmask => exact prefixLength_le netmask
  | packet halen addr =>
    obtain ⟨mac, -, h⟩ := Fallible.bind_eq_ok.mp h
    cases h
    exact ⟨rfl, id⟩
  | other =>
    cases h
    exact ⟨rfl, id⟩

/-- The map while it is filled: every interface under its name, with prefixes that
fit. -/
structure Gathered (interfaces : Map Bytes NetInterface) : Prop where
  keyed : KeyedBy NetInterface.name interfaces
  prefixes : ∀ nif ∈ values interfaces, PrefixesFit nif

theorem gathered_empty : Gathered ∅ :=
  ⟨fun _ he => absurd he List.not_mem_nil, fun _ hn => absurd hn List.not_mem_nil⟩

theorem gathered_addEntry {interfaces interfaces' : Map Bytes NetInterface} {ifa : IfAddrs}
    (hm : Gathered interfaces) (h : addEntry ntop interfaces ifa = .ok interfaces') :
    Gathered interfaces' := by
  unfold addEntry at h
  split at h
  · cases h
    exact hm
  · split at h
    · cases h
      exact hm
    · obtain ⟨iface, hiface, h⟩ := Fallible.bind_eq_ok.mp h
      cases h
      obtain ⟨hname, hfit⟩ := addAddress_ok ntop hiface
      have hbefore : PrefixesFit (ifaceOf interfaces ifa.name) := by
        unfold ifaceOf
        cases hlook : interfaces.lookup ifa.name with
        | none => exact fun ip hip => absurd hip List.not_mem_nil
        | some nif => exact hm.prefixes nif (mem_values_iff.mpr ⟨_, hlook⟩)
      refine ⟨fun e he => ?_, fun nif hnif => ?_⟩
      · rw [AList.entries_insert, List.mem_cons] at he
        rcases he with rfl | he
        · exact hname.symm
        · exact hm.keyed e ((List.kerase_sublist _ interfaces.entries).subset he)
      · obtain ⟨e, he, rfl⟩ := List.mem_map.mp hnif
        rw [AList.entries_insert, List.mem_cons] at he
        rcases he with rfl | he
        · exact hfit hbefore
        · exact hm.prefixes _ (List.mem_map.mpr
            ⟨e, (List.kerase_sublist _ interfaces.entries).subset he, rfl⟩)

/-- It fails exactly if `getifaddrs` does, and then without a message.  The names in
a list it returns are different, and the prefixes fit an address. -/
theorem getInterfaces_ok {order : Traversal NetInterface} {ifaddr : Option (List IfAddrs)}
    {r : FunctionReturn (List NetInterface)} (h : getInterfaces ntop order ifaddr = .ok r) :
    (ifaddr = none ∧ r = .ofCodeData .Error []) ∨
      ∃ nifs, ifaddr.isSome = true ∧ r = .ofCodeData .Ok nifs ∧
        (nifs.map NetInterface.name).Nodup ∧ ∀ nif ∈ nifs, PrefixesFit nif := by
  cases ifaddr with
  | none =>
    cases h
    exact Or.inl ⟨rfl, rfl⟩
  | some ifaddr =>
    obtain ⟨interfaces, hfold, h⟩ := Fallible.bind_eq_ok.mp h
    cases h
    have hm : Gathered interfaces :=
      Fallible.foldlM_invariant (fun _ _ _ => gathered_addEntry ntop) gathered_empty hfold
    have hperm := order.perm (values interfaces)
    refine Or.inr ⟨_, rfl, rfl, ?_, fun nif hnif => ?_⟩
    · exact (hperm.map NetInterface.name).nodup_iff.mpr (nodup_values hm.keyed)
    · exact hm.prefixes nif (hperm.mem_iff.mp hnif)

theorem macText_fault {halen : UInt8} {addr : Vector UInt8 8} {e : Fault}
    (h : macText halen addr = .error e) : e = .outOfRange := by
  unfold macText at h
  split at h
  · cases h
  · cases h
    rfl

theorem addAddress_fault {iface : NetInterface} {addr : IfaAddr} {e : Fault}
    (h : addAddress ntop iface addr = .error e) : e = .outOfRange := by
  cases addr with
  | inet addr netmask =>
    simp only [addAddress] at h
    split at h
    · cases h
    · cases h
      rfl
    · split at h
      · cases h
      · cases h
  | inet6 addr netmask =>
    simp only [addAddress] at h
    split at h
    · cases h
    · cases h
  | packet halen addr =>
    rcases Fallible.bind_eq_error.mp h with hmac | ⟨mac, -, h⟩
    · exact macText_fault hmac
    · cases h
  | other => cases h

theorem addEntry_fault {interfaces : Map Bytes NetInterface} {ifa : IfAddrs} {e : Fault}
    (h : addEntry ntop interfaces ifa = .error e) : e = .outOfRange := by
  unfold addEntry at h
  split at h
  · cases h
  · split at h
    · cases h
    · rcases Fallible.bind_eq_error.mp h with hiface | ⟨iface, -, h⟩
      · exact addAddress_fault ntop hiface
      · cases h

/-- Only an address that is read outside its object keeps it from returning. -/
theorem getInterfaces_fault {order : Traversal NetInterface} {ifaddr : Option (List IfAddrs)}
    {e : Fault} (h : getInterfaces ntop order ifaddr = .error e) : e = .outOfRange := by
  cases ifaddr with
  | none => cases h
  | some ifaddr =>
    rcases Fallible.bind_eq_error.mp h with hfold | ⟨interfaces, -, h⟩
    · exact Fallible.foldlM_fault (fun _ _ _ => addEntry_fault ntop) hfold
    · cases h

end NetInterfaceManager

end NeighborDiscovery
