/-
Two hosts that hear one announcement of each other.

Either host tests the addresses it received against its own, the local one always
first.  The subnet tests are symmetric, so each host keeps of the other what the
other keeps of it.
-/
import NeighborDiscovery.Network.Truncation

namespace NeighborDiscovery

open Fallible NetInterfaceManager

/-! ## One announcement -/

section Hears

variable (host : Host)

/-- What a daemon with an empty table makes of one datagram: it decodes the buffer and
handles what it received against its own interfaces. -/
def hearOnce (env : Env) (maxBufferSize : UInt32) (nifs : List NetInterface)
    (incoming : Incoming) : Except Fault (IndexedTimedSet Bytes NetInterface) := do
  let (receivedNifs, _) ←
    storeReceived host (IPMulticastReceiver.receive maxBufferSize (some incoming)).1 ∅ none
  (env.receivedOrder.visit (KeyedMap.values receivedNifs)).foldlM (handleReceived host env nifs)
    .empty

variable {host} {env : Env} {maxBufferSize : UInt32} {nifs : List NetInterface}
  {incoming : Incoming}

theorem lookup_hearOnce {t : IndexedTimedSet Bytes NetInterface}
    (h : hearOnce host env maxBufferSize nifs incoming = .ok t) (mac : Bytes) :
    t.lookup mac = (lastWithMac mac (decodedNifs host
      (IPMulticastReceiver.receive maxBufferSize (some incoming)).1)).bind
        (written host env nifs) := by
  obtain ⟨⟨receivedNifs, logger⟩, hstore, hfold⟩ := Fallible.bind_eq_ok.mp h
  have hstored := storeReceived_ok host hstore
  subst hstored
  rw [lookup_handled host hfold mac]
  exact Option.or_none

/-- An iteration that starts with an empty table and stores this datagram alone goes on
from what is heard to the expiry. -/
theorem updateNeighbors_hearOnce {nnd : NetworkNeighborDiscoverer}
    (hempty : nnd.neighbors = .empty) {receivedNifs : KeyedMap.Map Bytes NetInterface}
    {logger : Logger}
    (hstored : storeReceived host
      (IPMulticastReceiver.receive nnd.settings.maxBufferSize (some incoming)).1 ∅ none =
        .ok (receivedNifs, logger)) :
    updateNeighbors host env nnd nifs receivedNifs = do
      let t ← hearOnce host env nnd.settings.maxBufferSize nifs incoming
      return t.removeOlder (seconds nnd.settings.neighborActivityPeriodS.toNat) env.removeNow := by
  unfold updateNeighbors hearOnce
  rw [hstored, ok_bind, hempty]

theorem hearOnce_returns (hfit : ∀ nif ∈ nifs, PrefixesFit nif) {others : List NetInterface}
    (hdecodes : Decodes host (IPMulticastReceiver.receive maxBufferSize (some incoming)).1 others) :
    ∃ t, hearOnce host env maxBufferSize nifs incoming = .ok t := by
  obtain ⟨r, hdecode, -⟩ := hdecodes
  obtain ⟨logger, hstore, -⟩ := storeReceived_yields hdecode ∅ none
  unfold hearOnce
  rw [hstore, ok_bind]
  exact foldlM_returns (fun received _ t => handleReceived_returns hfit t received) _

/-! ## What is kept, and why -/

/-- The table keeps the address `y` of an interface of the other host because of the
address `x` of an own interface. -/
def KeptIPv4 (pton : InetPton) (t : IndexedTimedSet Bytes NetInterface)
    (own other : NetInterface) (x y : IPv4Info) : Prop :=
  x ∈ own.ipv4s ∧ y ∈ other.ipv4s ∧ IPAddressManager.isSameSubnetIPv4 pton x y = true ∧
    ∃ e, t.lookup other.mac = some e ∧ y ∈ e.1.ipv4s

def KeptIPv6 (pton : InetPton) (t : IndexedTimedSet Bytes NetInterface)
    (own other : NetInterface) (x y : IPv6Info) : Prop :=
  x ∈ own.ipv6s ∧ y ∈ other.ipv6s ∧ IPAddressManager.isSameSubnetIPv6 pton x y = .ok true ∧
    ∃ e, t.lookup other.mac = some e ∧ y ∈ e.1.ipv6s

/-- The table holds of the other interfaces exactly what matches. -/
def Holds (host : Host) (env : Env) (nifs others : List NetInterface)
    (t : IndexedTimedSet Bytes NetInterface) : Prop :=
  ∀ other ∈ others, t.lookup other.mac = written host env nifs other

theorem Holds.kept_iff4 {others : List NetInterface} {t : IndexedTimedSet Bytes NetInterface}
    (h : Holds host env nifs others t) {own other : NetInterface} (hown : own ∈ nifs)
    (hother : other ∈ others) {x y : IPv4Info} :
    KeptIPv4 host.pton t own other x y ↔ x ∈ own.ipv4s ∧ y ∈ other.ipv4s ∧
      IPAddressManager.isSameSubnetIPv4 host.pton x y = true := by
  unfold KeptIPv4
  rw [h other hother]
  refine ⟨fun hkept => ⟨hkept.1, hkept.2.1, hkept.2.2.1⟩, fun hsame => ?_⟩
  obtain ⟨hx, hy, hsame⟩ := hsame
  have hmatch : matchesIPv4 host nifs y = true :=
    (matchesIPv4_iff host).mpr ⟨own, hown, x, hx, hsame⟩
  have hany : isMatch host nifs other = true := by
    rw [isMatch, Bool.or_eq_true, List.any_eq_true]
    exact Or.inl ⟨y, hy, hmatch⟩
  exact ⟨hx, hy, hsame, _, if_pos hany, List.mem_filter.mpr ⟨hy, hmatch⟩⟩

theorem Holds.kept_iff6 {others : List NetInterface} {t : IndexedTimedSet Bytes NetInterface}
    (h : Holds host env nifs others t) {own other : NetInterface} (hown : own ∈ nifs)
    (hother : other ∈ others) {x y : IPv6Info} :
    KeptIPv6 host.pton t own other x y ↔ x ∈ own.ipv6s ∧ y ∈ other.ipv6s ∧
      IPAddressManager.isSameSubnetIPv6 host.pton x y = .ok true := by
  unfold KeptIPv6
  rw [h other hother]
  refine ⟨fun hkept => ⟨hkept.1, hkept.2.1, hkept.2.2.1⟩, fun hsame => ?_⟩
  obtain ⟨hx, hy, hsame⟩ := hsame
  have hmatch : matchesIPv6 host nifs y = true :=
    (matchesIPv6_iff host).mpr ⟨own, hown, x, hx, hsame⟩
  have hany : isMatch host nifs other = true := by
    rw [isMatch, Bool.or_eq_true, List.any_eq_true, List.any_eq_true]
    exact Or.inr ⟨y, hy, hmatch⟩
  exact ⟨hx, hy, hsame, _, if_pos hany, List.mem_filter.mpr ⟨hy, hmatch⟩⟩

/-- There is an entry for some other interface exactly if two addresses match. -/
theorem Holds.entry_iff {others : List NetInterface} {t : IndexedTimedSet Bytes NetInterface}
    (h : Holds host env nifs others t) :
    (∃ other ∈ others, ∃ e, t.lookup other.mac = some e) ↔
      ∃ other ∈ others, ∃ own ∈ nifs,
        (∃ x ∈ own.ipv4s, ∃ y ∈ other.ipv4s,
          IPAddressManager.isSameSubnetIPv4 host.pton x y = true) ∨
        ∃ x ∈ own.ipv6s, ∃ y ∈ other.ipv6s,
          IPAddressManager.isSameSubnetIPv6 host.pton x y = .ok true := by
  refine exists_congr fun other => and_congr_right fun hother => ?_
  rw [h other hother]
  have hwritten : (∃ e, written host env nifs other = some e) ↔ isMatch host nifs other = true := by
    unfold written
    by_cases hmatch : isMatch host nifs other = true
    · rw [if_pos hmatch]
      exact ⟨fun _ => hmatch, fun _ => ⟨_, rfl⟩⟩
    · rw [if_neg hmatch]
      exact ⟨fun hex => absurd hex.choose_spec (by simp), fun hm => absurd hm hmatch⟩
  rw [hwritten, isMatch, Bool.or_eq_true, List.any_eq_true, List.any_eq_true]
  simp only [matchesIPv4_iff, matchesIPv6_iff]
  constructor
  · intro hmatch
    rcases hmatch with ⟨y, hy, own, hown, x, hx, hsame⟩ | ⟨y, hy, own, hown, x, hx, hsame⟩
    · exact ⟨own, hown, Or.inl ⟨x, hx, y, hy, hsame⟩⟩
    · exact ⟨own, hown, Or.inr ⟨x, hx, y, hy, hsame⟩⟩
  · intro hpair
    obtain ⟨own, hown, hsame⟩ := hpair
    rcases hsame with ⟨x, hx, y, hy, hsame⟩ | ⟨x, hx, y, hy, hsame⟩
    · exact Or.inl ⟨y, hy, own, hown, x, hx, hsame⟩
    · exact Or.inr ⟨y, hy, own, hown, x, hx, hsame⟩

end Hears

/-! ## The other host's announcement -/

section Announced

variable {sender receiver : Host} {env : Env} {maxBufferSize : UInt32}
  {nifs others : List NetInterface} {incoming : Incoming}
  {t : IndexedTimedSet Bytes NetInterface}

theorem announced_decodes (horder : sender.order = receiver.order)
    (hfit : Representable receiver.lim others)
    (hsize : (announcement sender others).length ≤ maxBufferSize.toNat)
    (hdelivered : incoming.data = announcement sender others) :
    Decodes receiver (IPMulticastReceiver.receive maxBufferSize (some incoming)).1 others := by
  have hmax := maxBufferSize.toNat_lt
  have hbuffer := length_receive maxBufferSize incoming
  refine (decodes_iff (by omega)).mpr ⟨?_, hfit⟩
  show _ <+: incoming.data.take maxBufferSize.toNat ++ _
  rw [announcement_order (Or.inl horder), hdelivered, List.take_of_length_le hsize]
  exact List.prefix_append _ _

/-- In the sender's byte order an announcement is heard as it was made. -/
theorem hearOnce_holds (hmacs : (others.map NetInterface.mac).Nodup)
    (hdecodes : Decodes receiver (IPMulticastReceiver.receive maxBufferSize (some incoming)).1
      others)
    (h : hearOnce receiver env maxBufferSize nifs incoming = .ok t) :
    Holds receiver env nifs others t := by
  intro other hother
  rw [lookup_hearOnce h, decodedNifs_of_decodes hdecodes, lastWithMac_eq hmacs hother]
  rfl

/-- In the other byte order nothing of an announcement is understood. -/
theorem hearOnce_deaf (horder : sender.order ≠ receiver.order)
    (hdelivered : incoming.data = announcement sender others)
    (h : hearOnce receiver env maxBufferSize nifs incoming = .ok t) (mac : Bytes) :
    t.lookup mac = none := by
  have hnone : decodedNifs receiver
      (IPMulticastReceiver.receive maxBufferSize (some incoming)).1 = [] := by
    by_contra hne
    rcases order_of_decodes hdelivered (decodes_decodedNifs hne) with hsame | hempty
    · exact horder hsame.1
    · exact hne hempty.2
  rw [lookup_hearOnce h, hnone]
  rfl

end Announced

/-! ## Both hosts -/

section Mutual

variable {hostA hostB : Host} {envA envB : Env} {nifsA nifsB : List NetInterface}
  {tA tB : IndexedTimedSet Bytes NetInterface}

theorem Holds.entry_symm (hpton : hostA.pton = hostB.pton) (hA : Holds hostA envA nifsA nifsB tA)
    (hB : Holds hostB envB nifsB nifsA tB) :
    (∃ b ∈ nifsB, ∃ e, tA.lookup b.mac = some e) ↔ ∃ a ∈ nifsA, ∃ e, tB.lookup a.mac = some e := by
  rw [hA.entry_iff, hB.entry_iff, hpton]
  constructor
  · intro hpair
    obtain ⟨b, hb, a, ha, hsame⟩ := hpair
    refine ⟨a, ha, b, hb, ?_⟩
    rcases hsame with ⟨x, hx, y, hy, hsame⟩ | ⟨x, hx, y, hy, hsame⟩
    · exact Or.inl ⟨y, hy, x, hx, (IPAddressManager.isSameSubnetIPv4_comm _ y x).trans hsame⟩
    · exact Or.inr ⟨y, hy, x, hx, (IPAddressManager.isSameSubnetIPv6_comm _ y x).trans hsame⟩
  · intro hpair
    obtain ⟨a, ha, b, hb, hsame⟩ := hpair
    refine ⟨b, hb, a, ha, ?_⟩
    rcases hsame with ⟨y, hy, x, hx, hsame⟩ | ⟨y, hy, x, hx, hsame⟩
    · exact Or.inl ⟨x, hx, y, hy, (IPAddressManager.isSameSubnetIPv4_comm _ x y).trans hsame⟩
    · exact Or.inr ⟨x, hx, y, hy, (IPAddressManager.isSameSubnetIPv6_comm _ x y).trans hsame⟩

theorem Holds.kept_symm4 (hpton : hostA.pton = hostB.pton) (hA : Holds hostA envA nifsA nifsB tA)
    (hB : Holds hostB envB nifsB nifsA tB) {a b : NetInterface} (ha : a ∈ nifsA) (hb : b ∈ nifsB)
    (x y : IPv4Info) : KeptIPv4 hostA.pton tA a b x y ↔ KeptIPv4 hostB.pton tB b a y x := by
  rw [hA.kept_iff4 ha hb, hB.kept_iff4 hb ha, hpton, IPAddressManager.isSameSubnetIPv4_comm]
  exact and_left_comm

theorem Holds.kept_symm6 (hpton : hostA.pton = hostB.pton) (hA : Holds hostA envA nifsA nifsB tA)
    (hB : Holds hostB envB nifsB nifsA tB) {a b : NetInterface} (ha : a ∈ nifsA) (hb : b ∈ nifsB)
    (x y : IPv6Info) : KeptIPv6 hostA.pton tA a b x y ↔ KeptIPv6 hostB.pton tB b a y x := by
  rw [hA.kept_iff6 ha hb, hB.kept_iff6 hb ha, hpton, IPAddressManager.isSameSubnetIPv6_comm]
  exact and_left_comm

/-- Either host hears the other's announcement.  In the same byte order both take it in;
in different ones both tables stay empty. -/
theorem discovery_symmetric {maxA maxB : UInt32} {toA toB : Incoming}
    (hpton : hostA.pton = hostB.pton)
    (hmacsA : (nifsA.map NetInterface.mac).Nodup) (hmacsB : (nifsB.map NetInterface.mac).Nodup)
    (hprefixA : ∀ nif ∈ nifsA, PrefixesFit nif) (hprefixB : ∀ nif ∈ nifsB, PrefixesFit nif)
    (hfitA : Representable hostA.lim nifsB) (hfitB : Representable hostB.lim nifsA)
    (hsizeA : (announcement hostB nifsB).length ≤ maxA.toNat)
    (hsizeB : (announcement hostA nifsA).length ≤ maxB.toNat)
    (htoA : toA.data = announcement hostB nifsB) (htoB : toB.data = announcement hostA nifsA) :
    (hostA.order = hostB.order → (∃ t, hearOnce hostA envA maxA nifsA toA = .ok t) ∧
      ∃ t, hearOnce hostB envB maxB nifsB toB = .ok t) ∧
    ∀ tA tB, hearOnce hostA envA maxA nifsA toA = .ok tA →
      hearOnce hostB envB maxB nifsB toB = .ok tB →
        ((∃ b ∈ nifsB, ∃ e, tA.lookup b.mac = some e) ↔
          ∃ a ∈ nifsA, ∃ e, tB.lookup a.mac = some e) ∧
        ∀ a ∈ nifsA, ∀ b ∈ nifsB,
          (∀ x y, KeptIPv4 hostA.pton tA a b x y ↔ KeptIPv4 hostB.pton tB b a y x) ∧
          ∀ x y, KeptIPv6 hostA.pton tA a b x y ↔ KeptIPv6 hostB.pton tB b a y x := by
  refine ⟨fun horder => ?_, fun tA tB hA hB => ?_⟩
  · exact ⟨hearOnce_returns hprefixA (announced_decodes horder.symm hfitA hsizeA htoA),
      hearOnce_returns hprefixB (announced_decodes horder hfitB hsizeB htoB)⟩
  · by_cases horder : hostA.order = hostB.order
    · have holdsA := hearOnce_holds hmacsB (announced_decodes horder.symm hfitA hsizeA htoA) hA
      have holdsB := hearOnce_holds hmacsA (announced_decodes horder hfitB hsizeB htoB) hB
      exact ⟨holdsA.entry_symm hpton holdsB, fun a ha b hb =>
        ⟨holdsA.kept_symm4 hpton holdsB ha hb, holdsA.kept_symm6 hpton holdsB ha hb⟩⟩
    · have hnoneA := hearOnce_deaf (fun h => horder h.symm) htoA hA
      have hnoneB := hearOnce_deaf horder htoB hB
      simp [KeptIPv4, KeptIPv6, hnoneA, hnoneB]

end Mutual

theorem Small.remote_fits : (announcement Small.host [Small.remote]).length ≤ 65535 := by decide

theorem Small.eth0_fits : (announcement Small.host [Small.eth0]).length ≤ 65535 := by decide

/-- The announcement of the other host's one interface, as `Small.eth0` hears it. -/
def Small.fromRemote : Incoming :=
  ⟨announcement Small.host [Small.remote], text "10.0.0.2", Small.remote_fits⟩

def Small.fromEth0 : Incoming :=
  ⟨announcement Small.host [Small.eth0], text "10.0.0.1", Small.eth0_fits⟩

theorem discovery_symmetric_small :
    (Small.host.order = Small.host.order →
      (∃ t, hearOnce Small.host Small.learns 256 [Small.eth0] Small.fromRemote = .ok t) ∧
      ∃ t, hearOnce Small.host Small.learns 256 [Small.remote] Small.fromEth0 = .ok t) ∧
    ∀ tA tB, hearOnce Small.host Small.learns 256 [Small.eth0] Small.fromRemote = .ok tA →
      hearOnce Small.host Small.learns 256 [Small.remote] Small.fromEth0 = .ok tB →
        ((∃ b ∈ [Small.remote], ∃ e, tA.lookup b.mac = some e) ↔
          ∃ a ∈ [Small.eth0], ∃ e, tB.lookup a.mac = some e) ∧
        ∀ a ∈ [Small.eth0], ∀ b ∈ [Small.remote],
          (∀ x y, KeptIPv4 Small.host.pton tA a b x y ↔ KeptIPv4 Small.host.pton tB b a y x) ∧
          ∀ x y, KeptIPv6 Small.host.pton tA a b x y ↔ KeptIPv6 Small.host.pton tB b a y x :=
  discovery_symmetric rfl (by decide) (by decide) (by simp [PrefixesFit, Small.eth0])
    (by simp [PrefixesFit, Small.remote]) (by decide) (by decide) (by decide) (by decide) rfl rfl

end NeighborDiscovery
