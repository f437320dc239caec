/-
What the tables of a link come to.

While no host changes its interfaces and no two hosts share a MAC address, an entry
under the MAC address of a host's interface can only come from that host, so one round
in which a host hears another settles its table: it lists an interface of the other,
the last one with its MAC address, exactly if it has an address in a subnet of its own
and both hosts have an IPv6 address.  The order in which the hosts begin and end, and
what they heard before, leave no trace.
-/
import NeighborDiscovery.Network.CliReply
import NeighborDiscovery.Network.DaemonNetwork
import NeighborDiscovery.Network.HandleSafety

namespace NeighborDiscovery

open Broadcast

/-! ## Matching and subnets -/

section Matching

variable {host : Host}

theorem isMatch_iff {r : NetInterface} {nifs : List NetInterface} :
    isMatch host nifs r = true ↔ SharesSubnet host r nifs := by
  refine ⟨fun h => ?_, isMatch_of_shares⟩
  unfold isMatch at h
  rw [Bool.or_eq_true, List.any_eq_true, List.any_eq_true] at h
  rcases h with ⟨ip, hip, hmatch⟩ | ⟨ip, hip, hmatch⟩
  · obtain ⟨loc, hloc, l, hl, hsame⟩ := (matchesIPv4_iff host).mp hmatch
    rw [IPAddressManager.isSameSubnetIPv4_comm] at hsame
    exact Or.inl ⟨ip, hip, loc, hloc, l, hl, hsame⟩
  · obtain ⟨loc, hloc, l, hl, hsame⟩ := (matchesIPv6_iff host).mp hmatch
    rw [IPAddressManager.isSameSubnetIPv6_comm] at hsame
    exact Or.inr ⟨ip, hip, loc, hloc, l, hl, hsame⟩

theorem SharesSubnet.swap {nifs : List NetInterface} {r : NetInterface} {others : List NetInterface}
    (hr : r ∈ others) (h : SharesSubnet host r nifs) :
    ∃ own ∈ nifs, SharesSubnet host own others := by
  rcases h with ⟨ip, hip, loc, hloc, l, hl, hsame⟩ | ⟨ip, hip, loc, hloc, l, hl, hsame⟩
  · rw [IPAddressManager.isSameSubnetIPv4_comm] at hsame
    exact ⟨loc, hloc, Or.inl ⟨l, hl, r, hr, ip, hip, hsame⟩⟩
  · rw [IPAddressManager.isSameSubnetIPv6_comm] at hsame
    exact ⟨loc, hloc, Or.inr ⟨l, hl, r, hr, ip, hip, hsame⟩⟩

end Matching

/-! ## Hosts that keep their interfaces -/

section Stable

variable {ν : Type} [DecidableEq ν] (site : ν → Site) (lists : ν → List NetInterface)
  (s : Link ν)

/-- Each host has had one interface list, and no two hosts share a MAC address. -/
structure Stable : Prop where
  kept : ∀ b ∈ s.begun, b.input.nifs = lists b.node
  macs : ∀ j k, ∀ r ∈ lists j, ∀ x ∈ lists k, x.mac = r.mac → k = j

/-- In its last iteration host `i` was offered the announcement of host `j`, and what
it took from it was fresh when the old entries were removed. -/
def Hears (i j : ν) : Prop :=
  ∃ h e, s.ended i = h ++ [e] ∧ Offered e (announcement (site j).host (lists j)) ∧
    ∀ r ∈ lists j, e.input.removeNow - e.input.updateNow r.mac ≤
      seconds (site i).settings.neighborActivityPeriodS.toNat

/-- Host `i` can use what host `j` sends: it has both senders, `j` has its byte order,
and the announcement of `j` fits its buffer. -/
structure Understands (i j : ν) : Prop where
  senders : ∀ T, ((s.node i).sender T).isSome = true
  order : (site j).host.order = (site i).host.order
  limits : (site i).host.lim.Ample 65535
  fits : (announcement (site j).host (lists j)).length ≤
    (site i).settings.maxBufferSize.toNat

variable {site lists s}

theorem Stable.nifs_of_ended (hstable : Stable lists s) (hs : Reachable (daemons site) s) {i : ν}
    {e : Iteration} (he : e ∈ s.ended i) : e.input.nifs = lists i :=
  hstable.kept _ (hs.ended_begun he)

/-- An entry under the MAC address of an interface comes from its host. -/
theorem Stable.entry_source (hstable : Stable lists s) (hs : Reachable (daemons site) s) {i j : ν}
    {r : NetInterface} (hr : lastWithMac r.mac (lists j) = some r) {entry : NetInterface × Int}
    (hentry : (s.node i).neighbors.lookup r.mac = some entry) :
    HasIPv6 (lists i) ∧ HasIPv6 (lists j) ∧ SharesSubnet (site i).host r (lists i) := by
  obtain ⟨e, x, hlatest, -⟩ := entry_latest hs hentry
  obtain ⟨hgate, b, hb, hsender, -, hlast⟩ := latest_announced hs hlatest
  obtain ⟨h₁, h₂, hsplit, hannounces, -⟩ := hlatest
  have hown : e.input.nifs = lists i := hstable.nifs_of_ended hs (by rw [hsplit]; simp)
  rw [hown] at hgate
  rw [hstable.kept b hb] at hsender hlast
  obtain ⟨hx, hmac⟩ := lastWithMac_some hlast
  have hnode := hstable.macs j b.node r (lastWithMac_some hr).1 x hx hmac
  rw [hnode] at hsender hlast
  obtain rfl := Option.some.inj (hr.symm.trans hlast)
  have hmatch := hannounces.2
  rw [hown] at hmatch
  exact ⟨hgate, hsender, isMatch_iff.mp hmatch⟩

/-- What an iteration was offered of an understood host, it has decoded. -/
theorem Understands.decodes {i j : ν} (h : Understands site lists s i j)
    (hs : Reachable (daemons site) s) {past : List Iteration} {e : Iteration}
    (hlast : s.ended i = past ++ [e]) (hgate : HasIPv6 e.input.nifs)
    (hoffered : Offered e (announcement (site j).host (lists j))) {r : NetInterface}
    (hr : r ∈ lists j) : r ∈ e.output.decoded (site i).host := by
  obtain ⟨init, ⟨logger, calls, hinit⟩, hrun⟩ := hs.run i
  have hlistening := (DaemonRun.listening_eq hrun).1
  rw [hlast] at hrun
  obtain ⟨hbefore, hstep, -⟩ := hrun.last
  have hsettings : e.before.settings = (site i).settings := by
    rw [DaemonRun.settings_eq hbefore, (construct_ok hinit).settings]
  have hsenders : ∀ T, ∃ x, e.before.sender T = some x := by
    intro T
    apply Option.isSome_iff_exists.mp
    have hsame : e.before.listening = (s.node i).listening :=
      (DaemonRun.listening_eq hbefore).1.trans hlistening.symm
    exact (congrArg (fun l => Listening.hasSender l T) hsame).trans (h.senders T)
  have hsame : announcement (site i).host (lists j) = announcement (site j).host (lists j) :=
    announcement_order (Or.inl h.order)
  have hfits := h.fits
  rw [← hsame] at hoffered hfits
  refine hoffered.decoded hstep hgate hsenders ?_ (by rw [hsettings]; exact hfits) hr
  refine @representable_of_length (site i).host _ _ _ ?_ h.limits
  obtain ⟨_, -, _, d, -, hdata⟩ := hoffered
  rw [← hdata]
  exact d.length_le

/-- What an iteration has decoded under the MAC address of an interface is that
interface. -/
theorem Stable.decoded_unique (hstable : Stable lists s) (hs : Reachable (daemons site) s) {i : ν}
    {past : List Iteration} {e : Iteration} (hlast : s.ended i = past ++ [e])
    (hnifs : e.input.nifs ≠ []) {j : ν} {r : NetInterface}
    (hr : lastWithMac r.mac (lists j) = some r)
    (hdecoded : r ∈ e.output.decoded (site i).host) :
    lastWithMac r.mac (e.output.decoded (site i).host) = some r := by
  have he : e ∈ s.ended i := by
    rw [hlast]
    simp
  obtain ⟨init, -, hrun⟩ := hs.run i
  obtain ⟨_, _, -, -, hstep⟩ := hrun.event he
  cases hfound : lastWithMac r.mac (e.output.decoded (site i).host) with
  | none => exact absurd rfl (lastWithMac_none.mp hfound r hdecoded)
  | some x =>
    obtain ⟨-, b, hb, -, -, hsource⟩ := decoded_announced hs he hstep hnifs hfound
    rw [hstable.kept b hb] at hsource
    obtain ⟨hx, hmac⟩ := lastWithMac_some hsource
    rw [hstable.macs j b.node r (lastWithMac_some hr).1 x hx hmac, hr] at hsource
    rw [Option.some.inj hsource]

/-- Where host `i` has heard host `j`, it lists exactly the interfaces of `j`, the last
of each MAC address, that share a subnet with its own, each filtered by its own,
provided both have an IPv6 address. -/
theorem Stable.lookup_heard (hstable : Stable lists s) (hs : Reachable (daemons site) s) {i j : ν}
    (hunderstands : Understands site lists s i j)
    (hhears : HasIPv6 (lists i) → HasIPv6 (lists j) → Hears site lists s i j)
    {r : NetInterface} (hr : lastWithMac r.mac (lists j) = some r) (x : NetInterface) :
    (∃ t, (s.node i).neighbors.lookup r.mac = some (x, t)) ↔
      (HasIPv6 (lists i) ∧ HasIPv6 (lists j) ∧ SharesSubnet (site i).host r (lists i)) ∧
        x = restrict (site i).host (lists i) r := by
  have hfound : HasIPv6 (lists i) → HasIPv6 (lists j) → SharesSubnet (site i).host r (lists i) →
      ∃ t, (s.node i).neighbors.lookup r.mac =
        some (restrict (site i).host (lists i) r, t) := by
    intro hi hj hshares
    obtain ⟨past, e, hlast, hoffered, hfresh⟩ := hhears hi hj
    have hown : e.input.nifs = lists i := hstable.nifs_of_ended hs (by rw [hlast]; simp)
    have hnifs : e.input.nifs ≠ [] := by
      intro hnil
      obtain ⟨n, hn, -⟩ := hi
      rw [← hown, hnil] at hn
      exact List.not_mem_nil hn
    have hmem := (lastWithMac_some hr).1
    have hdecoded := hunderstands.decodes hs hlast (by rw [hown]; exact hi) hoffered hmem
    have hunique := hstable.decoded_unique hs hlast hnifs hr hdecoded
    obtain ⟨init, ⟨logger, calls, hinit⟩, hrun⟩ := hs.run i
    rw [hlast] at hrun
    obtain ⟨hbefore, hstep, hafter⟩ := hrun.last
    have hwrites : writes (site i).host e r.mac =
        some (restrict (site i).host (lists i) r, e.input.updateNow r.mac) := by
      refine writes_eq_some.mpr ⟨r, ⟨hunique, ?_⟩, by rw [hown]⟩
      rw [hown]
      exact isMatch_of_shares hshares
    refine ⟨e.input.updateNow r.mac, ?_⟩
    have hkept : keeps e.before.settings e r.mac
        (restrict (site i).host (lists i) r, e.input.updateNow r.mac) = true := by
      rw [keeps_eq hnifs, DaemonRun.settings_eq hbefore, (construct_ok hinit).settings]
      exact decide_eq_true (hfresh r hmem)
    rw [hafter, lookup_step hstep]
    show ((writes (site i).host e r.mac).or _).filter (keeps e.before.settings e r.mac) = _
    rw [hwrites, Option.some_or, Option.filter_some, if_pos hkept]
  constructor
  · intro h
    obtain ⟨t, ht⟩ := h
    have hsource := hstable.entry_source hs hr ht
    obtain ⟨t', ht'⟩ := hfound hsource.1 hsource.2.1 hsource.2.2
    rw [ht] at ht'
    exact ⟨hsource, congrArg Prod.fst (Option.some.inj ht')⟩
  · intro h
    obtain ⟨⟨hi, hj, hshares⟩, rfl⟩ := h
    exact hfound hi hj hshares

end Stable

theorem sharesSubnet_pton {host₁ host₂ : Host} (hpton : host₁.pton = host₂.pton)
    {r : NetInterface} {nifs : List NetInterface} (h : SharesSubnet host₁ r nifs) :
    SharesSubnet host₂ r nifs := by
  unfold SharesSubnet at h ⊢
  rwa [hpton] at h

section Pair

variable {ν : Type} {site : ν → Site} {s : Link ν} {lists : ν → List NetInterface}

/-- What host `i` lists of host `j` once it has heard it. -/
def Settled (site : ν → Site) (lists : ν → List NetInterface) (s : Link ν) (i j : ν) : Prop :=
  ∀ r, lastWithMac r.mac (lists j) = some r → ∀ x,
    (∃ t, (s.node i).neighbors.lookup r.mac = some (x, t)) ↔
      (HasIPv6 (lists i) ∧ HasIPv6 (lists j) ∧ SharesSubnet (site i).host r (lists i)) ∧
        x = restrict (site i).host (lists i) r

/-- Host `i` lists some interface of host `j`. -/
def Lists (lists : ν → List NetInterface) (s : Link ν) (i j : ν) : Prop :=
  ∃ r ∈ lists j, ∃ e, (s.node i).neighbors.lookup r.mac = some e

theorem Settled.swap {i j : ν} (hij : Settled site lists s i j) (hji : Settled site lists s j i)
    (hpton : (site i).host.pton = (site j).host.pton)
    (hi : ((lists i).map NetInterface.mac).Nodup) (hj : ((lists j).map NetInterface.mac).Nodup)
    (h : Lists lists s i j) : Lists lists s j i := by
  obtain ⟨r, hr, ⟨x, t⟩, hentry⟩ := h
  obtain ⟨⟨hgate, hsender, hshares⟩, -⟩ := (hij r (lastWithMac_eq hj hr) x).mp ⟨t, hentry⟩
  obtain ⟨own, hown, hback⟩ := hshares.swap hr
  obtain ⟨t', hentry'⟩ := (hji own (lastWithMac_eq hi hown) _).mpr
    ⟨⟨hsender, hgate, sharesSubnet_pton hpton hback⟩, rfl⟩
  exact ⟨own, hown, _, hentry'⟩

end Pair

/-- Once two hosts of a link have heard each other, what each lists of the other is
settled by the interfaces alone, and where their own interfaces differ in their MAC
addresses, either both list the other or neither does. -/
theorem link_converges {ν : Type} [DecidableEq ν] {site : ν → Site} {s : Link ν}
    (hs : Reachable (daemons site) s) {lists : ν → List NetInterface} (hstable : Stable lists s)
    {i j : ν} (hpton : (site i).host.pton = (site j).host.pton)
    (hunderstands : Understands site lists s i j ∧ Understands site lists s j i)
    (hhears : HasIPv6 (lists i) → HasIPv6 (lists j) →
      Hears site lists s i j ∧ Hears site lists s j i) :
    (Settled site lists s i j ∧ Settled site lists s j i) ∧
      (((lists i).map NetInterface.mac).Nodup → ((lists j).map NetInterface.mac).Nodup →
        (Lists lists s i j ↔ Lists lists s j i)) := by
  have hij : Settled site lists s i j := fun r hr x =>
    hstable.lookup_heard hs hunderstands.1 (fun hi hj => (hhears hi hj).1) hr x
  have hji : Settled site lists s j i := fun r hr x =>
    hstable.lookup_heard hs hunderstands.2 (fun hj hi => (hhears hi hj).2) hr x
  exact ⟨⟨hij, hji⟩, fun hi hj =>
    ⟨hij.swap hji hpton hi hj, hji.swap hij hpton.symm hj hi⟩⟩

namespace Small

theorem linked_macs (j k : Bool) :
    ∀ r ∈ [linked j], ∀ x ∈ [linked k], x.mac = r.mac → k = j := by
  intro r hr x hx
  rw [List.mem_singleton] at hr hx
  subst hr hx
  cases j <;> cases k <;> decide

theorem linked_fits (j : Bool) :
    (announcement host [linked j]).length ≤ settings.maxBufferSize.toNat := by
  cases j
  · show (announcement host [eth0]).length ≤ 256
    decide
  · show (announcement host [remoteV6]).length ≤ 256
    decide

end Small

theorem link_converges_small : ∃ s : Link Bool, Reachable (daemons Small.site) s ∧
    (Settled Small.site (fun n => [Small.linked n]) s false true ∧
      Settled Small.site (fun n => [Small.linked n]) s true false) ∧
    (Lists (fun n => [Small.linked n]) s false true ↔
      Lists (fun n => [Small.linked n]) s true false) := by
  obtain ⟨s, hs, hbegun, hended⟩ := Small.met
  have hstable : Stable (fun n => [Small.linked n]) s := by
    refine ⟨fun b hb => ?_, Small.linked_macs⟩
    rw [hbegun] at hb
    rcases List.mem_pair.mp hb with rfl | rfl
    · rfl
    · rfl
  have hunderstands : ∀ i j, Understands Small.site (fun n => [Small.linked n]) s i j := by
    intro i j
    obtain ⟨_, -, -, -, -, -, hsenders, -⟩ := hended i
    exact ⟨hsenders, rfl, Limits.libstdcxx_ample (by decide), Small.linked_fits j⟩
  have hhears : ∀ i j, Hears Small.site (fun n => [Small.linked n]) s i j := by
    intro i j
    obtain ⟨e, hlast, -, -, hinput, hpasses, -⟩ := hended i
    refine ⟨[], e, hlast, ?_, fun r _ => ?_⟩
    · have hmem : Small.crossing ∈ passesMade e := by
        rw [hpasses]
        exact List.mem_singleton_self _
      cases j
      · exact ⟨_, hmem, .inet, _, rfl, rfl⟩
      · exact ⟨_, hmem, .inet6, _, rfl, rfl⟩
    · rw [hinput]
      show (0 : Int) - 0 ≤ seconds 30
      decide
  obtain ⟨hsettled, hboth⟩ := @link_converges Bool _ Small.site s hs (fun n => [Small.linked n])
    hstable false true rfl ⟨hunderstands false true, hunderstands true false⟩
    fun _ _ => ⟨hhears false true, hhears true false⟩
  exact ⟨s, hs, hsettled, hboth (by decide) (by decide)⟩

end NeighborDiscovery
