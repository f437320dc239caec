/-
The order and repetition of announcements.

Two iterations with the same local interfaces that start from the same table and
decode the same set of interfaces, however often and over whichever passes, hold
the same data under the same keys once the received interfaces are handled.  The
clock takes part only when old entries are removed.
-/
import NeighborDiscovery.Network.DaemonRun
import NeighborDiscovery.Network.Iteration

namespace NeighborDiscovery

/-- The data under a key, its time left aside. -/
def IndexedTimedSet.dataAt {TIndex TData : Type} [DecidableEq TIndex]
    (s : IndexedTimedSet TIndex TData) (index : TIndex) : Option TData :=
  (s.lookup index).map Prod.fst

/-- The loop over the received interfaces, before old entries are removed. -/
def handleAll (host : Host) (env : Env) (nnd : NetworkNeighborDiscoverer)
    (receivedNifs : KeyedMap.Map Bytes NetInterface) :
    Except Fault (IndexedTimedSet Bytes NetInterface) :=
  (env.receivedOrder.visit (KeyedMap.values receivedNifs)).foldlM
    (handleReceived host env env.nifs) nnd.neighbors

/-- What is under a MAC address is not removed at the end of the iteration.  An
iteration without interfaces removes nothing. -/
def survives (env : Env) (nnd : NetworkNeighborDiscoverer)
    (t : IndexedTimedSet Bytes NetInterface) (mac : Bytes) : Bool :=
  env.nifs.isEmpty || (t.lookup mac).any (isFresh nnd.settings env.removeNow)

/-! ## What is decoded -/

/-- With one interface for each MAC address, the last one is found whatever the
order. -/
theorem lastWithMac_congr {decoded₁ decoded₂ : List NetInterface}
    (hset : ∀ nif, nif ∈ decoded₁ ↔ nif ∈ decoded₂)
    (hmac : ∀ a ∈ decoded₁, ∀ b ∈ decoded₁, a.mac = b.mac → a = b) (mac : Bytes) :
    lastWithMac mac decoded₁ = lastWithMac mac decoded₂ := by
  cases h₁ : lastWithMac mac decoded₁ with
  | none =>
    have hnone : ∀ nif ∈ decoded₂, nif.mac ≠ mac := fun nif hnif =>
      lastWithMac_none.mp h₁ nif ((hset nif).mpr hnif)
    exact (lastWithMac_none.mpr hnone).symm
  | some a =>
    obtain ⟨ha, hamac⟩ := lastWithMac_some h₁
    cases h₂ : lastWithMac mac decoded₂ with
    | none => exact absurd hamac (lastWithMac_none.mp h₂ a ((hset a).mp ha))
    | some b =>
      obtain ⟨hb, hbmac⟩ := lastWithMac_some h₂
      rw [hmac a ha b ((hset b).mpr hb) (hamac.trans hbmac.symm)]

theorem mem_values_storeNifs {decoded : List NetInterface} {nif : NetInterface} :
    nif ∈ KeyedMap.values (storeNifs ∅ decoded) ↔ lastWithMac nif.mac decoded = some nif := by
  rw [KeyedMap.lookup_key (keyedBy_storeNifs decoded), lookup_storeNifs]

/-! ## Handling it -/

section Handled

variable {host : Host} {env env₁ env₂ : Env} {nnd : NetworkNeighborDiscoverer}

theorem handleReceived_returns_iff {nifs : List NetInterface}
    {t : IndexedTimedSet Bytes NetInterface} {received : NetInterface} :
    (∃ t', handleReceived host env nifs t received = .ok t') ↔
      ∃ l, matchedIPv6 host nifs received = .ok l := by
  unfold handleReceived
  constructor
  · intro h
    obtain ⟨t', ht'⟩ := h
    obtain ⟨l, hl, -⟩ := Fallible.bind_eq_ok.mp ht'
    exact ⟨l, hl⟩
  · intro h
    obtain ⟨l, hl⟩ := h
    rw [hl, Fallible.ok_bind]
    split
    · exact ⟨_, rfl⟩
    · exact ⟨_, rfl⟩

/-- Whether the loop ends depends on the interfaces it visits alone. -/
theorem handleAll_returns_iff {receivedNifs : KeyedMap.Map Bytes NetInterface} :
    (∃ t, handleAll host env nnd receivedNifs = .ok t) ↔
      ∀ received ∈ KeyedMap.values receivedNifs,
        ∃ l, matchedIPv6 host env.nifs received = .ok l := by
  have hperm := env.receivedOrder.perm (KeyedMap.values receivedNifs)
  constructor
  · intro h received hreceived
    obtain ⟨t, ht⟩ := h
    obtain ⟨t₁, t₂, hone⟩ := Fallible.foldlM_steps ht received (hperm.mem_iff.mpr hreceived)
    exact handleReceived_returns_iff.mp ⟨t₂, hone⟩
  · intro h
    refine Fallible.foldlM_returns (fun received hreceived t => ?_) nnd.neighbors
    exact handleReceived_returns_iff.mpr (h received (hperm.mem_iff.mp hreceived))

theorem written_data (hnifs : env₁.nifs = env₂.nifs) (nif : NetInterface) :
    (written host env₁ env₁.nifs nif).map Prod.fst =
      (written host env₂ env₂.nifs nif).map Prod.fst := by
  unfold written
  rw [hnifs]
  by_cases hm : isMatch host env₂.nifs nif = true
  · rw [if_pos hm, if_pos hm]
    rfl
  · rw [if_neg hm, if_neg hm]

theorem map_or_bind {α β γ : Type} (p : β → γ) (o : Option α) (f : α → Option β) (old : Option β) :
    ((o.bind f).or old).map p = (o.bind fun a => (f a).map p).or (old.map p) := by
  cases o with
  | none => rfl
  | some a =>
    show ((f a).or old).map p = ((f a).map p).or (old.map p)
    cases f a <;> rfl

theorem handleAll_data (hnifs : env₁.nifs = env₂.nifs) {decoded₁ decoded₂ : List NetInterface}
    (hlast : ∀ mac, lastWithMac mac decoded₁ = lastWithMac mac decoded₂)
    {t₁ t₂ : IndexedTimedSet Bytes NetInterface}
    (h₁ : handleAll host env₁ nnd (storeNifs ∅ decoded₁) = .ok t₁)
    (h₂ : handleAll host env₂ nnd (storeNifs ∅ decoded₂) = .ok t₂) (mac : Bytes) :
    t₁.dataAt mac = t₂.dataAt mac := by
  unfold IndexedTimedSet.dataAt
  rw [lookup_handled host h₁, lookup_handled host h₂, hlast mac, map_or_bind, map_or_bind]
  simp only [written_data hnifs]

/-- An iteration handles what it has decoded and then removes what does not survive. -/
theorem runIteration_handles {nnd' : NetworkNeighborDiscoverer} {out : Output}
    (h : runIteration host env nnd = .ok (nnd', out)) :
    ∃ t, handleAll host env nnd (storeNifs ∅ (out.decoded host)) = .ok t ∧
      ∀ mac, nnd'.neighbors.lookup mac = if survives env nnd t mac then t.lookup mac else none := by
  by_cases hnifs : env.nifs = []
  · obtain ⟨-, hneighbors, hout⟩ := runIteration_idle host h hnifs
    have hvisit : env.receivedOrder.visit (KeyedMap.values (storeNifs ∅ (out.decoded host))) =
        [] := by
      rw [hout]
      exact List.perm_nil.mp (env.receivedOrder.perm _)
    refine ⟨nnd.neighbors, ?_, fun mac => ?_⟩
    · unfold handleAll
      rw [hvisit]
      rfl
    · rw [hneighbors, if_pos (by simp [survives, hnifs])]
  · have hupdate := runIteration_updates host h hnifs
    unfold updateNeighbors at hupdate
    obtain ⟨t, hfold, hremove⟩ := Fallible.bind_eq_ok.mp hupdate
    refine ⟨t, hfold, fun mac => ?_⟩
    rw [← Except.ok.inj hremove, IndexedTimedSet.lookup_removeOlder]
    unfold survives
    rw [List.isEmpty_eq_false_iff.mpr hnifs, Bool.false_or]
    cases t.lookup mac with
    | none => exact (ite_self none).symm
    | some e => exact Option.filter_some

theorem survives_none {t : IndexedTimedSet Bytes NetInterface} {mac : Bytes}
    (h : t.lookup mac = none) : survives env nnd t mac = env.nifs.isEmpty := by
  unfold survives
  rw [h]
  exact Bool.or_false _

/-- Where the data were the same before, they are the same after the removal exactly
if both or neither of the entries survive. -/
theorem dataAt_removed_iff (hnifs : env₁.nifs = env₂.nifs)
    {t₁ t₂ s₁ s₂ : IndexedTimedSet Bytes NetInterface} {mac : Bytes}
    (hdata : t₁.dataAt mac = t₂.dataAt mac)
    (h₁ : s₁.lookup mac = if survives env₁ nnd t₁ mac then t₁.lookup mac else none)
    (h₂ : s₂.lookup mac = if survives env₂ nnd t₂ mac then t₂.lookup mac else none) :
    s₁.dataAt mac = s₂.dataAt mac ↔ survives env₁ nnd t₁ mac = survives env₂ nnd t₂ mac := by
  have hs₁ : s₁.dataAt mac = if survives env₁ nnd t₁ mac then t₁.dataAt mac else none := by
    rw [IndexedTimedSet.dataAt, h₁, apply_ite (Option.map Prod.fst)]
    rfl
  have hs₂ : s₂.dataAt mac = if survives env₂ nnd t₂ mac then t₁.dataAt mac else none := by
    rw [hdata, IndexedTimedSet.dataAt, h₂, apply_ite (Option.map Prod.fst)]
    rfl
  rw [hs₁, hs₂]
  cases hheld : t₁.dataAt mac with
  | none =>
    have hnone₁ : t₁.lookup mac = none := Option.map_eq_none_iff.mp hheld
    have hnone₂ : t₂.lookup mac = none := Option.map_eq_none_iff.mp (hdata.symm.trans hheld)
    rw [survives_none hnone₁, survives_none hnone₂, hnifs, ite_self]
    exact iff_of_true rfl rfl
  | some nif =>
    cases survives env₁ nnd t₁ mac <;> cases survives env₂ nnd t₂ mac <;> simp

end Handled

/-! ## Two iterations -/

section Two

variable {host : Host} {env₁ env₂ : Env} {nnd : NetworkNeighborDiscoverer}

theorem announcements_unordered (hnifs : env₁.nifs = env₂.nifs) {decoded₁ decoded₂ : List NetInterface}
    (hset : ∀ nif, nif ∈ decoded₁ ↔ nif ∈ decoded₂)
    (hmac : ∀ a ∈ decoded₁, ∀ b ∈ decoded₁, a.mac = b.mac → a = b) :
    ((∃ t, handleAll host env₁ nnd (storeNifs ∅ decoded₁) = .ok t) ↔
      ∃ t, handleAll host env₂ nnd (storeNifs ∅ decoded₂) = .ok t) ∧
    ∀ nnd₁ out₁ nnd₂ out₂, runIteration host env₁ nnd = .ok (nnd₁, out₁) →
      out₁.decoded host = decoded₁ → runIteration host env₂ nnd = .ok (nnd₂, out₂) →
      out₂.decoded host = decoded₂ →
      ∃ t₁ t₂, handleAll host env₁ nnd (storeNifs ∅ decoded₁) = .ok t₁ ∧
        handleAll host env₂ nnd (storeNifs ∅ decoded₂) = .ok t₂ ∧
        (∀ mac, t₁.dataAt mac = t₂.dataAt mac) ∧
        ∀ mac, (nnd₁.neighbors.dataAt mac = nnd₂.neighbors.dataAt mac ↔
          survives env₁ nnd t₁ mac = survives env₂ nnd t₂ mac) := by
  have hlast := lastWithMac_congr hset hmac
  constructor
  · rw [handleAll_returns_iff, handleAll_returns_iff, hnifs]
    simp only [mem_values_storeNifs, hlast]
  · intro nnd₁ out₁ nnd₂ out₂ hrun₁ hout₁ hrun₂ hout₂
    obtain ⟨t₁, ht₁, hafter₁⟩ := runIteration_handles hrun₁
    obtain ⟨t₂, ht₂, hafter₂⟩ := runIteration_handles hrun₂
    rw [hout₁] at ht₁
    rw [hout₂] at ht₂
    have hdata := handleAll_data hnifs hlast ht₁ ht₂
    exact ⟨t₁, t₂, ht₁, ht₂, hdata, fun mac =>
      dataAt_removed_iff hnifs (hdata mac) (hafter₁ mac) (hafter₂ mac)⟩

end Two

namespace Small

/-- A second interface in the subnet of `eth0`. -/
def other : NetInterface :=
  ⟨text "eth1", text "dd", [⟨text "10.0.0.2", text "255.255.255.0"⟩], []⟩

set_option maxRecDepth 2000 in
theorem both_fit : (announcement host [remote, other]).length ≤ 65535 := by decide

/-- Both interfaces arrive in one datagram.  The first of them to be handled is stored
at 0 s, the second at 20 s, and old entries are removed at 31 s. -/
def storesLast : Env :=
  { env [eth0] [hears [remote, other] both_fit] 31000000000 with
    updateNow := fun mac => if mac = text "dd" then 0 else 20000000000 }

def storesFirst : Env :=
  { env [eth0] [hears [remote, other] both_fit] 31000000000 with
    receivedOrder := ⟨List.reverse, List.reverse_perm⟩
    updateNow := fun mac => if mac = text "dd" then 20000000000 else 0 }

theorem other_fits : (announcement host [other]).length ≤ 65535 := by decide

/-- The second interface is announced by itself before, over the other family. -/
def hearsBothFamilies : Env :=
  env [eth0] [⟨some ⟨announcement host [other], text "fe80::2", other_fits⟩,
    some ⟨announcement host [remote, other], text "10.0.0.2", both_fit⟩, none, 30000000000⟩] 0

end Small

set_option maxRecDepth 10000 in
theorem announcements_unordered_small :
    ∃ nnd₁ out₁ nnd₂ out₂, runIteration Small.host Small.storesLast Small.init = .ok (nnd₁, out₁) ∧
      runIteration Small.host Small.hearsBothFamilies Small.init = .ok (nnd₂, out₂) ∧
      ∃ t₁ t₂, handleAll Small.host Small.storesLast Small.init
          (storeNifs ∅ [Small.remote, Small.other]) = .ok t₁ ∧
        handleAll Small.host Small.hearsBothFamilies Small.init
          (storeNifs ∅ [Small.other, Small.remote, Small.other]) = .ok t₂ ∧
        (∀ mac, t₁.dataAt mac = t₂.dataAt mac) ∧
        ∀ mac, (nnd₁.neighbors.dataAt mac = nnd₂.neighbors.dataAt mac ↔
          survives Small.storesLast Small.init t₁ mac = survives Small.hearsBothFamilies Small.init t₂ mac) :=
  ⟨_, _, _, _, rfl, rfl, (@announcements_unordered Small.host Small.storesLast Small.hearsBothFamilies Small.init
    rfl [Small.remote, Small.other] [Small.other, Small.remote, Small.other]
    (by simp [or_comm]) (by decide)).2 _ _ _ _ rfl rfl rfl rfl⟩

set_option maxRecDepth 10000 in
/-- One announcement, the same readings of the clock, and two orders of handling. -/
theorem announcements_unordered_clock :
    ∃ nnd₁ out₁ nnd₂ out₂, runIteration Small.host Small.storesLast Small.init = .ok (nnd₁, out₁) ∧
      runIteration Small.host Small.storesFirst Small.init = .ok (nnd₂, out₂) ∧
      out₁.decoded Small.host = [Small.remote, Small.other] ∧
      out₂.decoded Small.host = [Small.remote, Small.other] ∧
      nnd₁.neighbors.dataAt (text "cc") = some Small.remote ∧
      nnd₁.neighbors.dataAt (text "dd") = none ∧
      nnd₂.neighbors.dataAt (text "cc") = none ∧
      nnd₂.neighbors.dataAt (text "dd") = some Small.other :=
  ⟨_, _, _, _, rfl, rfl, rfl, rfl, rfl, rfl, rfl, rfl⟩

end NeighborDiscovery
