/-
What `getInterfaces` makes of a list of entries.

An entry counts if it has an address and its interface is up and no loopback.  The
interfaces returned are one for each name with such an entry, and each is made of
the entries with its name alone, in their order.  The array of a link-layer address
has eight bytes, and the loop over it goes by the length of the entry.
-/
import Mathlib.Data.List.Dedup
import NeighborDiscovery.Library.BitPrefix
import NeighborDiscovery.Network.NetInterfaceManager

namespace NeighborDiscovery

open BitPrefix KeyedMap

namespace NetInterfaceManager

variable (ntop : InetNtop)

/-! ## One interface -/

/-- The address of an entry that counts. -/
def qualifying (ifa : IfAddrs) : Option IfaAddr :=
  if ifa.isLoopback || !ifa.isUp then none else ifa.addr

/-- The addresses that count under a name, in the order of the list. -/
def addressesOf (entries : List IfAddrs) (name : Bytes) : List IfaAddr :=
  (entries.filter (·.name = name)).filterMap qualifying

def ipv4Of : IfaAddr → Option IPv4Info
  | .inet addr (some netmask) =>
    match ntop .inet addr, ntop .inet netmask with
    | some address, some mask => some ⟨address, mask⟩
    | _, _ => none
  | _ => none

def ipv6Of : IfaAddr → Option IPv6Info
  | .inet6 addr netmask => (ntop .inet6 addr).map fun address =>
    ⟨address, (netmask.map prefixLength).getD 0⟩
  | _ => none

def macOf : IfaAddr → Option Bytes
  | .packet halen addr => some ((text ":").intercalate ((addr.toList.take halen.toNat).map hex))
  | _ => none

/-- The interface that some addresses make, the last link-layer address being its MAC
address. -/
def interfaceOf (name : Bytes) (addresses : List IfaAddr) : NetInterface where
  name := name
  mac := (addresses.filterMap macOf).getLast?.getD []
  ipv4s := addresses.filterMap (ipv4Of ntop)
  ipv6s := addresses.filterMap (ipv6Of ntop)

/-- The address can be read: an IPv4 one has its netmask, and a link-layer one fits its
array. -/
def Readable : IfaAddr → Prop
  | .inet _ netmask => netmask.isSome = true
  | .packet halen _ => halen.toNat ≤ 8
  | _ => True

theorem getLast?_snoc_getD {α : Type} (l : List α) (a b : α) :
    (l ++ [a]).getLast?.getD b = a := by
  rw [List.getLast?_append]
  rfl

/-- One more address is one more step of the loop. -/
theorem addAddress_interfaceOf {addr : IfaAddr} (h : Readable addr) (name : Bytes)
    (addresses : List IfaAddr) :
    addAddress ntop (interfaceOf ntop name addresses) addr =
      .ok (interfaceOf ntop name (addresses ++ [addr])) := by
  unfold interfaceOf
  simp only [List.filterMap_append, List.filterMap_cons, List.filterMap_nil]
  cases addr with
  | inet addr netmask =>
    cases netmask with
    | none => cases h
    | some netmask =>
      simp only [addAddress, ipv4Of, ipv6Of, macOf, List.append_nil]
      cases haddress : ntop .inet addr with
      | none => simp only [List.append_nil]
      | some address =>
        cases hmask : ntop .inet netmask with
        | none => simp only [hmask, List.append_nil]
        | some mask => simp only [hmask]
  | inet6 addr netmask =>
    simp only [addAddress, ipv4Of, ipv6Of, macOf, List.append_nil]
    cases haddress : ntop .inet6 addr with
    | none => simp only [Option.map_none, List.append_nil]
    | some address => rfl
  | packet halen addr =>
    have hfits : halen.toNat ≤ 8 := h
    simp only [addAddress, macText, if_pos hfits, ipv4Of, ipv6Of, macOf, List.append_nil]
    rw [getLast?_snoc_getD]
    rfl
  | other => simp [addAddress, ipv4Of, ipv6Of, macOf]

/-! ## The loop -/

variable {ntop}

theorem addressesOf_append (l₁ l₂ : List IfAddrs) (name : Bytes) :
    addressesOf (l₁ ++ l₂) name = addressesOf l₁ name ++ addressesOf l₂ name := by
  unfold addressesOf
  rw [List.filter_append, List.filterMap_append]

theorem addressesOf_singleton (ifa : IfAddrs) (name : Bytes) :
    addressesOf [ifa] name = if ifa.name = name then (qualifying ifa).toList else [] := by
  unfold addressesOf
  by_cases hname : ifa.name = name
  · rw [if_pos hname, List.filter_singleton, decide_eq_true hname, cond_true]
    cases hqualifying : qualifying ifa with
    | none => simp [hqualifying]
    | some addr => simp [hqualifying]
  · rw [if_neg hname, List.filter_singleton, decide_eq_false hname, cond_false,
      List.filterMap_nil]

/-- The map holds the interface of every name that has an address that counts. -/
def Holds (ntop : InetNtop) (entries : List IfAddrs) (interfaces : Map Bytes NetInterface) : Prop :=
  ∀ name, interfaces.lookup name =
    if addressesOf entries name = [] then none
    else some (interfaceOf ntop name (addressesOf entries name))

theorem holds_nil : Holds ntop [] ∅ := fun _ => rfl

theorem Holds.ifaceOf {done : List IfAddrs} {interfaces : Map Bytes NetInterface}
    (h : Holds ntop done interfaces) (name : Bytes) :
    NetInterfaceManager.ifaceOf interfaces name =
      interfaceOf ntop name (addressesOf done name) := by
  unfold NetInterfaceManager.ifaceOf
  rw [h name]
  by_cases hnone : addressesOf done name = []
  · rw [if_pos hnone, hnone]
    rfl
  · rw [if_neg hnone]
    rfl

theorem addEntry_skips {interfaces : Map Bytes NetInterface} {ifa : IfAddrs}
    (h : qualifying ifa = none) : addEntry ntop interfaces ifa = .ok interfaces := by
  unfold qualifying at h
  unfold addEntry
  cases haddr : ifa.addr with
  | none => rfl
  | some addr =>
    dsimp only
    by_cases hskip : (ifa.isLoopback || !ifa.isUp) = true
    · rw [if_pos hskip]
    · rw [if_neg hskip, haddr] at h
      cases h

theorem addEntry_qualifying {interfaces : Map Bytes NetInterface} {ifa : IfAddrs} {addr : IfaAddr}
    (h : qualifying ifa = some addr) :
    addEntry ntop interfaces ifa =
      (addAddress ntop (ifaceOf interfaces ifa.name) addr).map (interfaces.insert ifa.name) := by
  unfold qualifying at h
  unfold addEntry
  by_cases hskip : (ifa.isLoopback || !ifa.isUp) = true
  · rw [if_pos hskip] at h
    cases h
  · rw [if_neg hskip] at h
    rw [h]
    dsimp only
    rw [if_neg hskip]
    cases addAddress ntop (ifaceOf interfaces ifa.name) addr <;> rfl

theorem holds_addEntry {done : List IfAddrs} {interfaces : Map Bytes NetInterface}
    (h : Holds ntop done interfaces) {ifa : IfAddrs}
    (hreadable : ∀ addr, qualifying ifa = some addr → Readable addr) :
    ∃ interfaces', addEntry ntop interfaces ifa = .ok interfaces' ∧
      Holds ntop (done ++ [ifa]) interfaces' := by
  cases hqualifying : qualifying ifa with
  | none =>
    refine ⟨interfaces, addEntry_skips hqualifying, fun name => ?_⟩
    rw [addressesOf_append, addressesOf_singleton, hqualifying, Option.toList_none, ite_self,
      List.append_nil]
    exact h name
  | some addr =>
    have hadd := addAddress_interfaceOf ntop (hreadable addr hqualifying) ifa.name
      (addressesOf done ifa.name)
    refine ⟨interfaces.insert ifa.name (interfaceOf ntop ifa.name
      (addressesOf done ifa.name ++ [addr])), ?_, fun name => ?_⟩
    · rw [addEntry_qualifying hqualifying, h.ifaceOf, hadd]
      rfl
    · rw [addressesOf_append, addressesOf_singleton, hqualifying]
      by_cases hname : ifa.name = name
      · subst hname
        rw [if_pos rfl, AList.lookup_insert, if_neg (by simp)]
        rfl
      · rw [if_neg hname, List.append_nil, AList.lookup_insert_ne fun heq => hname heq.symm]
        exact h name

theorem holds_foldlM {done entries : List IfAddrs} {interfaces : Map Bytes NetInterface}
    (h : Holds ntop done interfaces)
    (hreadable : ∀ ifa ∈ entries, ∀ addr, qualifying ifa = some addr → Readable addr) :
    ∃ interfaces', entries.foldlM (addEntry ntop) interfaces = .ok interfaces' ∧
      Holds ntop (done ++ entries) interfaces' := by
  induction entries generalizing done interfaces with
  | nil => exact ⟨interfaces, rfl, by rw [List.append_nil]; exact h⟩
  | cons ifa entries ih =>
    obtain ⟨hone, hrest⟩ := List.forall_mem_cons.mp hreadable
    obtain ⟨next, hnext, hholds⟩ := holds_addEntry h hone
    obtain ⟨interfaces', hfold, hholds'⟩ := ih hholds hrest
    refine ⟨interfaces', ?_, ?_⟩
    · rw [List.foldlM_cons, hnext]
      exact hfold
    · rw [List.append_assoc] at hholds'
      exact hholds'

/-! ## The interfaces returned -/

/-- The names that have an address that counts. -/
def names (entries : List IfAddrs) : List Bytes :=
  ((entries.filter fun ifa => (qualifying ifa).isSome).map IfAddrs.name).dedup

/-- One interface for each name. -/
def interfacesOf (ntop : InetNtop) (entries : List IfAddrs) : List NetInterface :=
  (names entries).map fun name => interfaceOf ntop name (addressesOf entries name)

theorem mem_names {entries : List IfAddrs} {name : Bytes} :
    name ∈ names entries ↔ addressesOf entries name ≠ [] := by
  unfold names addressesOf
  rw [List.mem_dedup, List.mem_map, Ne, List.filterMap_eq_nil_iff]
  constructor
  · intro h hnone
    obtain ⟨ifa, hifa, rfl⟩ := h
    obtain ⟨hmem, hsome⟩ := List.mem_filter.mp hifa
    rw [hnone ifa (List.mem_filter.mpr ⟨hmem, decide_eq_true rfl⟩)] at hsome
    cases hsome
  · intro h
    by_contra hall
    apply h
    intro ifa hifa
    obtain ⟨hmem, hname⟩ := List.mem_filter.mp hifa
    by_contra hsome
    exact hall ⟨ifa, List.mem_filter.mpr ⟨hmem, Option.isSome_iff_ne_none.mpr hsome⟩,
      of_decide_eq_true hname⟩

theorem Holds.lookup_eq_some {entries : List IfAddrs} {interfaces : Map Bytes NetInterface}
    (h : Holds ntop entries interfaces) {name : Bytes} {nif : NetInterface} :
    interfaces.lookup name = some nif ↔
      name ∈ names entries ∧ interfaceOf ntop name (addressesOf entries name) = nif := by
  rw [h name, mem_names]
  by_cases hnone : addressesOf entries name = []
  · rw [if_pos hnone]
    exact iff_of_false (fun heq => by cases heq) fun hboth => hboth.1 hnone
  · rw [if_neg hnone, Option.some_inj]
    exact (and_iff_right hnone).symm

theorem Holds.mem_values {entries : List IfAddrs} {interfaces : Map Bytes NetInterface}
    (h : Holds ntop entries interfaces) {nif : NetInterface} :
    nif ∈ values interfaces ↔ nif ∈ interfacesOf ntop entries := by
  unfold interfacesOf
  rw [mem_values_iff, List.mem_map]
  exact exists_congr fun name => h.lookup_eq_some

theorem Holds.keyedBy {entries : List IfAddrs} {interfaces : Map Bytes NetInterface}
    (h : Holds ntop entries interfaces) : KeyedBy NetInterface.name interfaces := by
  intro e he
  obtain ⟨-, heq⟩ := h.lookup_eq_some.mp (AList.mem_lookup_iff.mpr he)
  rw [← heq]
  rfl

theorem Holds.perm {entries : List IfAddrs} {interfaces : Map Bytes NetInterface}
    (h : Holds ntop entries interfaces) :
    (values interfaces).Perm (interfacesOf ntop entries) := by
  have hvalues : (values interfaces).Nodup := List.Nodup.of_map _ (nodup_values h.keyedBy)
  have hkeys : (interfacesOf ntop entries).map NetInterface.name = names entries := by
    unfold interfacesOf
    rw [List.map_map]
    exact List.map_id (names entries)
  have hinterfaces : (interfacesOf ntop entries).Nodup := by
    apply List.Nodup.of_map NetInterface.name
    rw [hkeys]
    exact List.nodup_dedup _
  exact (List.perm_ext_iff_of_nodup hvalues hinterfaces).mpr fun _ => h.mem_values

/-! ## Netmasks -/

/-- The first `p` bits of the netmask are set and the others are not. -/
def Contiguous (netmask : InAddr .inet6) (p : Nat) : Prop :=
  p ≤ 128 ∧ ∀ i < 128, bitAt netmask.toList i = decide (i < p)

theorem takeWhile_congr {α : Type} {p q : α → Bool} {l : List α} (h : ∀ a ∈ l, p a = q a) :
    l.takeWhile p = l.takeWhile q := by
  induction l with
  | nil => rfl
  | cons a l ih =>
    obtain ⟨ha, hl⟩ := List.forall_mem_cons.mp h
    rw [List.takeWhile_cons, List.takeWhile_cons, ha, ih hl]

theorem takeWhile_ones : ∀ p < 9,
    ([7, 6, 5, 4, 3, 2, 1, 0].takeWhile fun b => decide (7 - b < p)).length = p := by
  decide

theorem leadingOnes_eq {byte : UInt8} {p : Nat}
    (h : ∀ j < 8, byte.toNat.testBit (7 - j) = decide (j < p)) : leadingOnes byte = min 8 p := by
  rw [← takeWhile_ones (min 8 p) (by omega)]
  unfold leadingOnes
  congr 1
  apply takeWhile_congr
  intro b hmem
  have hb : b < 8 := by
    simp only [List.mem_cons, List.not_mem_nil, or_false] at hmem
    omega
  have hbit := h (7 - b) (by omega)
  have hsub : 7 - (7 - b) = b := by omega
  have hlt : 7 - b < p ↔ 7 - b < min 8 p := by omega
  rw [hsub, decide_eq_decide.mpr hlt] at hbit
  exact hbit

theorem foldl_leadingOnes_eq {bytes : Bytes} {p : Nat}
    (h : ∀ i < 8 * bytes.length, bitAt bytes i = decide (i < p)) (count : Nat) :
    bytes.foldl (fun count byte => count + leadingOnes byte) count =
      count + min (8 * bytes.length) p := by
  induction bytes generalizing p count with
  | nil => simp
  | cons byte bytes ih =>
    rw [List.length_cons] at h
    have hone : leadingOnes byte = min 8 p := by
      apply leadingOnes_eq
      intro j hj
      rw [← bitAt_cons_of_lt hj]
      exact h j (by omega)
    have hrest : ∀ i < 8 * bytes.length, bitAt bytes i = decide (i < p - 8) := by
      intro i hi
      have hbit := h (i + 8) (by omega)
      have hlt : i + 8 < p ↔ i < p - 8 := by omega
      rw [bitAt_cons_add, decide_eq_decide.mpr hlt] at hbit
      exact hbit
    rw [List.foldl_cons, ih hrest, hone, List.length_cons]
    omega

theorem prefixLength_eq {netmask : InAddr .inet6} {p : Nat} (h : Contiguous netmask p) :
    (prefixLength netmask).toNat = p := by
  obtain ⟨hp, hbits⟩ := h
  have hlen : netmask.toList.length = 16 := Vector.length_toList
  have hcount := foldl_leadingOnes_eq (p := p) (by rw [hlen]; exact hbits) 0
  rw [hlen] at hcount
  unfold prefixLength
  rw [hcount, UInt8.toNat_ofNat']
  omega

/-! ## What is collected -/

/-- Under every name the same entries in the same order. -/
def SameByName (entries₁ entries₂ : List IfAddrs) : Prop :=
  ∀ name, entries₁.filter (·.name = name) = entries₂.filter (·.name = name)

/-- However the entries of different names are interleaved and the map is ordered, the
interfaces are those of the entries. -/
def Collects (ntop : InetNtop) (entries : List IfAddrs) : Prop :=
  ∀ entries', SameByName entries entries' → ∀ order, ∃ nifs,
    getInterfaces ntop order (some entries') = .ok (.ofCodeData .Ok nifs) ∧
      nifs.Perm (interfacesOf ntop entries)

/-- Every IPv4 entry has its netmask. -/
def Masked (entries : List IfAddrs) : Prop :=
  ∀ ifa ∈ entries, ∀ addr netmask, ifa.addr = some (.inet addr netmask) → netmask.isSome = true

/-- No link-layer address that counts is longer than `sll_addr`. -/
def LinksFit (entries : List IfAddrs) : Prop :=
  ∀ ifa ∈ entries, ∀ halen addr, qualifying ifa = some (.packet halen addr) → halen.toNat ≤ 8

theorem SameByName.mem {entries₁ entries₂ : List IfAddrs} (h : SameByName entries₁ entries₂)
    {ifa : IfAddrs} (hifa : ifa ∈ entries₂) : ifa ∈ entries₁ := by
  have hmem : ifa ∈ entries₂.filter (·.name = ifa.name) :=
    List.mem_filter.mpr ⟨hifa, decide_eq_true rfl⟩
  rw [← h ifa.name] at hmem
  exact List.mem_of_mem_filter hmem

theorem SameByName.holds {entries₁ entries₂ : List IfAddrs} (h : SameByName entries₁ entries₂)
    {interfaces : Map Bytes NetInterface} (hholds : Holds ntop entries₂ interfaces) :
    Holds ntop entries₁ interfaces := by
  intro name
  have hsame : addressesOf entries₁ name = addressesOf entries₂ name := by
    unfold addressesOf
    rw [h name]
  rw [hsame]
  exact hholds name

theorem qualifying_addr {ifa : IfAddrs} {addr : IfaAddr} (h : qualifying ifa = some addr) :
    ifa.addr = some addr := by
  unfold qualifying at h
  by_cases hskip : (ifa.isLoopback || !ifa.isUp) = true
  · rw [if_pos hskip] at h
    cases h
  · rw [if_neg hskip] at h
    exact h

theorem readable_of_fits {entries : List IfAddrs} (hmasked : Masked entries)
    (hfit : LinksFit entries) {ifa : IfAddrs} (hifa : ifa ∈ entries) {addr : IfaAddr}
    (h : qualifying ifa = some addr) : Readable addr := by
  cases addr with
  | inet addr netmask => exact hmasked ifa hifa addr netmask (qualifying_addr h)
  | inet6 addr netmask => trivial
  | packet halen addr => exact hfit ifa hifa halen addr h
  | other => trivial

theorem collects_of_fits {entries : List IfAddrs} (hmasked : Masked entries)
    (hfit : LinksFit entries) : Collects ntop entries := by
  intro entries' hsame order
  have hreadable : ∀ ifa ∈ entries', ∀ addr, qualifying ifa = some addr → Readable addr :=
    fun _ hifa _ => readable_of_fits hmasked hfit (hsame.mem hifa)
  have hstart : Holds ntop [] ∅ := holds_nil
  obtain ⟨interfaces, hfold, hholds⟩ := holds_foldlM hstart hreadable
  rw [List.nil_append] at hholds
  refine ⟨order.visit (values interfaces), ?_, ?_⟩
  · exact Fallible.bind_eq_ok.mpr ⟨interfaces, hfold, rfl⟩
  · exact (order.perm (values interfaces)).trans (hsame.holds hholds).perm

theorem fits_of_collects {entries : List IfAddrs} (h : Collects ntop entries) :
    LinksFit entries := by
  intro ifa hifa halen addr hpacket
  obtain ⟨nifs, hget, -⟩ := h entries (fun _ => rfl) (.kept NetInterface)
  obtain ⟨interfaces, hfold, -⟩ := Fallible.bind_eq_ok.mp hget
  obtain ⟨b₁, b₂, hentry⟩ := Fallible.foldlM_steps hfold ifa hifa
  rw [addEntry_qualifying hpacket] at hentry
  by_contra hlong
  have hmac : macText halen addr = .error .outOfRange := if_neg hlong
  have hfault : addAddress ntop (ifaceOf b₁ ifa.name) (.packet halen addr) =
      .error .outOfRange := Fallible.bind_eq_error.mpr (Or.inl hmac)
  rw [hfault] at hentry
  cases hentry

/-- The interfaces are those of the entries if and only if every link-layer address
fits its array, and the prefix length taken from a contiguous netmask is its own. -/
theorem collects_iff {entries : List IfAddrs} (hmasked : Masked entries) :
    (Collects ntop entries ↔ LinksFit entries) ∧
      ∀ netmask p, Contiguous netmask p → (prefixLength netmask).toNat = p :=
  ⟨⟨fits_of_collects, collects_of_fits hmasked⟩, fun _ _ => prefixLength_eq⟩

namespace Small

def texts : InetNtop
  | .inet, addr => some (text (".".intercalate (addr.toList.map fun b => toString b.toNat)))
  | .inet6, addr =>
    if addr.toList = List.replicate 16 17 then
      some (text "1111:1111:1111:1111:1111:1111:1111:1111")
    else none

def mask64 : InAddr .inet6 :=
  (Vector.replicate 8 (255 : UInt8) ++ Vector.replicate 8 (0 : UInt8) : Vector UInt8 (8 + 8))

/-- Two interfaces, their entries interleaved, and one that is down. -/
def interleaved : List IfAddrs :=
  [⟨text "eth0", some (.packet 6 (Vector.replicate 8 2)), false, true⟩,
    ⟨text "eth1", some (.packet 6 (Vector.replicate 8 4)), false, true⟩,
    ⟨text "eth2", some (.packet 20 (Vector.replicate 8 6)), false, false⟩,
    ⟨text "eth0", some (.inet (Vector.replicate 4 10) (some (Vector.replicate 4 255))), false, true⟩,
    ⟨text "eth1", some (.inet6 (Vector.replicate 16 17) (some mask64)), false, true⟩]

/-- The link-layer address of an IPv6 tunnel is an IPv6 address. -/
def tunnel : List IfAddrs :=
  [⟨text "ip6tnl1", some (.packet 16 (Vector.replicate 8 17)), false, true⟩]

theorem masked_interleaved : Masked interleaved := by
  simp only [Masked, interleaved, List.forall_mem_cons]
  refine ⟨?_, ?_, ?_, ?_, ?_, ?_⟩
  · intro addr netmask h
    cases h
  · intro addr netmask h
    cases h
  · intro addr netmask h
    cases h
  · intro addr netmask h
    cases h
    rfl
  · intro addr netmask h
    cases h
  · exact fun ifa hifa => absurd hifa List.not_mem_nil

theorem fits_interleaved : LinksFit interleaved := by
  simp [LinksFit, interleaved, qualifying]

end Small

theorem collects_iff_small : Collects Small.texts Small.interleaved :=
  (collects_iff Small.masked_interleaved).1.mpr Small.fits_interleaved

theorem tunnel_overruns : Masked Small.tunnel ∧
    getInterfaces Small.texts (.kept NetInterface) (some Small.tunnel) = .error .outOfRange ∧
      ¬ Collects Small.texts Small.tunnel := by
  have hmasked : Masked Small.tunnel := by simp [Masked, Small.tunnel]
  have hfault : getInterfaces Small.texts (.kept NetInterface) (some Small.tunnel) =
      .error .outOfRange := rfl
  refine ⟨hmasked, hfault, fun h => ?_⟩
  obtain ⟨nifs, hget, -⟩ := h Small.tunnel (fun _ => rfl) (.kept NetInterface)
  rw [hfault] at hget
  cases hget

end NetInterfaceManager

end NeighborDiscovery
