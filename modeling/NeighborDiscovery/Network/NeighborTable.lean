/-
What an iteration does to the neighbour table.

An interface of the table is a received one restricted to the addresses that
match a local address.  Under each MAC address the iteration writes the last
interface decoded with it, if that one matches; it keeps what was there
otherwise; and it then drops what is older than the activity period.
-/
import NeighborDiscovery.Network.NetInterfaceManager
import NeighborDiscovery.Network.ReceiveLoop

namespace NeighborDiscovery

open Fallible

variable (host : Host)

/-! ## Matching -/

def matchesIPv4 (nifs : List NetInterface) (ip : IPv4Info) : Bool :=
  nifs.any fun loc => loc.ipv4s.any fun lIPv4 =>
    IPAddressManager.isSameSubnetIPv4 host.pton lIPv4 ip

def matchesIPv6 (nifs : List NetInterface) (ip : IPv6Info) : Bool :=
  nifs.any fun loc => loc.ipv6s.any fun lIPv6 =>
    holds (IPAddressManager.isSameSubnetIPv6 host.pton lIPv6 ip)

def restrict (nifs : List NetInterface) (nif : NetInterface) : NetInterface :=
  { nif with
    ipv4s := nif.ipv4s.filter (matchesIPv4 host nifs)
    ipv6s := nif.ipv6s.filter (matchesIPv6 host nifs) }

/-- Some address of the interface matches. -/
def isMatch (nifs : List NetInterface) (nif : NetInterface) : Bool :=
  nif.ipv4s.any (matchesIPv4 host nifs) || nif.ipv6s.any (matchesIPv6 host nifs)

theorem matchesIPv4_iff {nifs : List NetInterface} {ip : IPv4Info} :
    matchesIPv4 host nifs ip = true ↔ ∃ loc ∈ nifs, ∃ lIPv4 ∈ loc.ipv4s,
      IPAddressManager.isSameSubnetIPv4 host.pton lIPv4 ip = true := by
  simp only [matchesIPv4, List.any_eq_true]

theorem matchesIPv6_iff {nifs : List NetInterface} {ip : IPv6Info} :
    matchesIPv6 host nifs ip = true ↔ ∃ loc ∈ nifs, ∃ lIPv6 ∈ loc.ipv6s,
      IPAddressManager.isSameSubnetIPv6 host.pton lIPv6 ip = .ok true := by
  simp only [matchesIPv6, List.any_eq_true, holds_eq_true]

theorem isMatch_nil (nif : NetInterface) : isMatch host [] nif = false := by
  have h4 : nif.ipv4s.any (matchesIPv4 host []) = false := by
    rw [List.any_eq_false]
    exact fun ip _ h => Bool.noConfusion h
  have h6 : nif.ipv6s.any (matchesIPv6 host []) = false := by
    rw [List.any_eq_false]
    exact fun ip _ h => Bool.noConfusion h
  rw [isMatch, h4, h6]
  rfl

theorem isEmpty_filter {α : Type} (p : α → Bool) (l : List α) :
    (!(l.filter p).isEmpty) = l.any p := by
  rw [Bool.eq_iff_iff, Bool.not_eq_true', List.isEmpty_eq_false_iff, List.any_eq_true]
  constructor
  · intro h
    obtain ⟨a, ha⟩ := List.exists_mem_of_ne_nil _ h
    exact ⟨a, List.mem_filter.mp ha⟩
  · intro h
    obtain ⟨a, ha⟩ := h
    exact List.ne_nil_of_mem (List.mem_filter.mpr ha)

theorem matchedIPv6_ok {nifs : List NetInterface} {received : NetInterface} {l : List IPv6Info}
    (h : matchedIPv6 host nifs received = .ok l) :
    l = received.ipv6s.filter (matchesIPv6 host nifs) := by
  refine filter_ok (fun rIPv6 b hb => ?_) h
  refine any_ok (fun loc b hloc => ?_) hb
  exact any_ok (fun lIPv6 b => eq_holds) hloc

/-! ## Writing -/

/-- What an iteration writes for a received interface, with the time. -/
def written (env : Env) (nifs : List NetInterface) (nif : NetInterface) :
    Option (NetInterface × Int) :=
  if isMatch host nifs nif then some (restrict host nifs nif, env.updateNow nif.mac) else none

theorem handleReceived_ok {env : Env} {nifs : List NetInterface}
    {t t' : IndexedTimedSet Bytes NetInterface} {received : NetInterface}
    (h : handleReceived host env nifs t received = .ok t') :
    t'.map = KeyedMap.put NetInterface.mac (written host env nifs) t.map received := by
  unfold handleReceived at h
  obtain ⟨l6, h6, h⟩ := Fallible.bind_eq_ok.mp h
  have hl6 := matchedIPv6_ok host h6
  subst hl6
  have hmatch : (!(matchedIPv4 host nifs received).isEmpty ||
      !(received.ipv6s.filter (matchesIPv6 host nifs)).isEmpty) = isMatch host nifs received :=
    congrArg₂ (· || ·) (isEmpty_filter _ _) (isEmpty_filter _ _)
  rw [hmatch] at h
  unfold KeyedMap.put written
  by_cases hm : isMatch host nifs received = true
  · rw [if_pos hm] at h ⊢
    cases h
    rfl
  · rw [if_neg hm] at h ⊢
    cases h
    rfl

theorem handleReceived_foldlM_ok {env : Env} {nifs l : List NetInterface}
    {t t' : IndexedTimedSet Bytes NetInterface}
    (h : l.foldlM (handleReceived host env nifs) t = .ok t') :
    t'.map = KeyedMap.putAll NetInterface.mac (written host env nifs) l t.map :=
  Fallible.foldlM_view (fun _ _ _ hone => handleReceived_ok host hone) h

def lastWithMac (mac : Bytes) (nifs : List NetInterface) : Option NetInterface :=
  nifs.reverse.find? fun nif => nif.mac = mac

theorem lastWithMac_some {mac : Bytes} {nifs : List NetInterface} {nif : NetInterface}
    (h : lastWithMac mac nifs = some nif) : nif ∈ nifs ∧ nif.mac = mac := by
  unfold lastWithMac at h
  have hmac := List.find?_some h
  exact ⟨List.mem_reverse.mp (List.mem_of_find?_eq_some h), of_decide_eq_true hmac⟩

theorem lastWithMac_none {mac : Bytes} {nifs : List NetInterface} :
    lastWithMac mac nifs = none ↔ ∀ nif ∈ nifs, nif.mac ≠ mac := by
  unfold lastWithMac
  rw [List.find?_eq_none]
  simp only [List.mem_reverse, decide_eq_true_iff, ne_eq]

theorem lastWithMac_eq {l : List NetInterface} (hmacs : (l.map NetInterface.mac).Nodup)
    {nif : NetInterface} (hnif : nif ∈ l) : lastWithMac nif.mac l = some nif := by
  cases hlast : lastWithMac nif.mac l with
  | none => exact absurd rfl (lastWithMac_none.mp hlast nif hnif)
  | some other =>
    obtain ⟨hother, hmac⟩ := lastWithMac_some hlast
    rw [List.inj_on_of_nodup_map hmacs hother hnif hmac]

theorem lookup_storeNifs (nifs : List NetInterface) (mac : Bytes) :
    (storeNifs ∅ nifs).lookup mac = lastWithMac mac nifs := by
  unfold storeNifs lastWithMac
  rw [KeyedMap.lookup_putAll, AList.lookup_empty, Option.or_none]
  generalize nifs.reverse = l
  induction l with
  | nil => rfl
  | cons nif rest ih =>
    rw [List.findSome?_cons, List.find?_cons]
    by_cases hmac : nif.mac = mac
    · rw [if_pos hmac, decide_eq_true hmac]
    · rw [if_neg hmac, decide_eq_false hmac]
      exact ih

theorem keyedBy_storeNifs (nifs : List NetInterface) :
    KeyedMap.KeyedBy NetInterface.mac (storeNifs ∅ nifs) :=
  KeyedMap.keyedBy_putAll (fun _ _ h => by cases h; rfl) (fun _ he => by cases he) nifs

def isFresh (settings : DiscoverySettings) (now : Int) (e : NetInterface × Int) : Bool :=
  now - e.2 ≤ seconds settings.neighborActivityPeriodS.toNat

/-- What the loop over the received interfaces leaves under a MAC address, in
whatever order it visits them. -/
theorem lookup_handled {env : Env} {nifs decoded : List NetInterface}
    {t t' : IndexedTimedSet Bytes NetInterface}
    (h : (env.receivedOrder.visit (KeyedMap.values (storeNifs ∅ decoded))).foldlM
      (handleReceived host env nifs) t = .ok t') (mac : Bytes) :
    t'.lookup mac =
      ((lastWithMac mac decoded).bind (written host env nifs)).or (t.lookup mac) := by
  have hmap := handleReceived_foldlM_ok host h
  have hperm := (List.reverse_perm _).trans (env.receivedOrder.perm
    (KeyedMap.values (storeNifs ∅ decoded)))
  rw [IndexedTimedSet.lookup, hmap, KeyedMap.lookup_putAll,
    KeyedMap.findSome?_values (keyedBy_storeNifs decoded) hperm, lookup_storeNifs]
  rfl

theorem lookup_updateNeighbors {env : Env} {nnd : NetworkNeighborDiscoverer}
    {nifs decoded : List NetInterface} {t : IndexedTimedSet Bytes NetInterface}
    (h : updateNeighbors host env nnd nifs (storeNifs ∅ decoded) = .ok t) (mac : Bytes) :
    t.lookup mac = (((lastWithMac mac decoded).bind (written host env nifs)).or
      (nnd.neighbors.lookup mac)).filter (isFresh nnd.settings env.removeNow) := by
  unfold updateNeighbors at h
  obtain ⟨t₁, hfold, h⟩ := Fallible.bind_eq_ok.mp h
  cases h
  rw [IndexedTimedSet.lookup_removeOlder, lookup_handled host hfold]
  rfl

theorem keyedBy_updateNeighbors {env : Env} {nnd : NetworkNeighborDiscoverer}
    {nifs : List NetInterface} {m : KeyedMap.Map Bytes NetInterface}
    {t : IndexedTimedSet Bytes NetInterface}
    (h : updateNeighbors host env nnd nifs m = .ok t)
    (hkeyed : nnd.neighbors.KeyedBy NetInterface.mac) : t.KeyedBy NetInterface.mac := by
  unfold updateNeighbors at h
  obtain ⟨t₁, hfold, h⟩ := Fallible.bind_eq_ok.mp h
  cases h
  refine IndexedTimedSet.keyedBy_removeOlder ?_ _ _
  unfold IndexedTimedSet.KeyedBy
  rw [handleReceived_foldlM_ok host hfold]
  refine KeyedMap.keyedBy_putAll (fun nif e he => ?_) hkeyed _
  unfold written at he
  split at he
  · cases he
    rfl
  · cases he

/-! ## When the update ends -/

section Ends

variable {host} {env : Env} {nifs : List NetInterface}

open NetInterfaceManager

theorem matchedIPv6_returns (hfit : ∀ nif ∈ nifs, PrefixesFit nif) (received : NetInterface) :
    ∃ l, matchedIPv6 host nifs received = .ok l :=
  filter_returns fun rIPv6 _ => any_returns fun loc hloc => any_returns fun lIPv6 hlIPv6 =>
    IPAddressManager.isSameSubnetIPv6_returns host.pton (hfit loc hloc lIPv6 hlIPv6) rIPv6

theorem handleReceived_returns (hfit : ∀ nif ∈ nifs, PrefixesFit nif)
    (t : IndexedTimedSet Bytes NetInterface) (received : NetInterface) :
    ∃ t', handleReceived host env nifs t received = .ok t' := by
  obtain ⟨l, hl⟩ := matchedIPv6_returns hfit received
  unfold handleReceived
  rw [hl, ok_bind]
  split
  · exact ⟨_, rfl⟩
  · exact ⟨_, rfl⟩

/-- Local prefixes that fit an address keep every comparison inside the addresses,
whatever was received. -/
theorem updateNeighbors_returns (hfit : ∀ nif ∈ nifs, PrefixesFit nif)
    (nnd : NetworkNeighborDiscoverer) (receivedNifs : KeyedMap.Map Bytes NetInterface) :
    ∃ t, updateNeighbors host env nnd nifs receivedNifs = .ok t := by
  obtain ⟨t, ht⟩ := foldlM_returns (fun received _ t => handleReceived_returns hfit t received)
    nnd.neighbors
  exact ⟨_, Fallible.bind_eq_ok.mpr ⟨t, ht, rfl⟩⟩

theorem handleReceived_fault {t : IndexedTimedSet Bytes NetInterface} {received : NetInterface}
    {e : Fault} (h : handleReceived host env nifs t received = .error e) : e.OfInput := by
  unfold handleReceived at h
  rcases Fallible.bind_eq_error.mp h with hmatched | ⟨matched, -, h⟩
  · refine filter_fault (fun rIPv6 _ e hany => ?_) hmatched
    refine any_fault (fun loc _ e hany => ?_) hany
    refine any_fault (fun lIPv6 _ e hsame => ?_) hany
    rw [IPAddressManager.isSameSubnetIPv6_fault _ hsame]
    trivial
  · split at h
    · cases h
    · cases h

theorem updateNeighbors_fault {nnd : NetworkNeighborDiscoverer}
    {receivedNifs : KeyedMap.Map Bytes NetInterface} {e : Fault}
    (h : updateNeighbors host env nnd nifs receivedNifs = .error e) : e.OfInput := by
  unfold updateNeighbors at h
  rcases Fallible.bind_eq_error.mp h with hfold | ⟨t, -, h⟩
  · exact foldlM_fault (fun _ _ _ => handleReceived_fault) hfold
  · cases h

end Ends

end NeighborDiscovery
