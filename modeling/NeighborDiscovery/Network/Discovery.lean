/-
Two hosts that share a subnet.

Host A announces in one iteration, and host B reads in its next one what A sent.
Both families are gated by the presence of an IPv6 address, on the sending host
and on the receiving one, so B learns of A exactly if both hosts have one.
-/
import NeighborDiscovery.Network.MulticastTargets

namespace NeighborDiscovery

open OffsetCodec

section TwoHosts

variable {host : Host}

/-! ## What a host announces -/

def HasIPv6 (nifs : List NetInterface) : Prop := ∃ n ∈ nifs, n.ipv6s ≠ []

theorem canUse_iff {T : Family} {nifs : List NetInterface} :
    canUse T nifs = true ↔ HasIPv6 nifs := by
  have hany : (nifs.any fun nif => decide (nif.ipv6s.length > 0)) = true ↔ HasIPv6 nifs := by
    rw [List.any_eq_true]
    simp only [decide_eq_true_iff, gt_iff_lt, List.length_pos_iff]
    rfl
  cases T
  · exact hany
  · exact hany

def sentData (e : Iteration) (T : Family) : List Bytes := (e.output.sent T).map Sent.data

/-- An announcement decodes to the list it was made from, also in front of padding. -/
theorem decodedNifs_announcement {nifs : List NetInterface} (hfit : Representable host.lim nifs)
    (post : Bytes) (hlen : (announcement host nifs ++ post).length < 2 ^ 63) :
    decodedNifs host (announcement host nifs ++ post) = nifs := by
  have hread := (netInterfaces_reads host.order host.lim).roundTrip
    ((netInterfacesFormat_fits host.order host.lim).mpr hfit) [] post
    (by
      rw [List.nil_append]
      rw [announcement, serializeNetInterfaces_nil] at hlen
      exact hlen)
  obtain ⟨r, hrun, hok, hdata⟩ := view_eq_some.mp hread
  have hdecode : decode host (announcement host nifs ++ post) = .ok r := by
    unfold decode announcement
    rw [serializeNetInterfaces_nil]
    show Prod.fst <$> (deserializeNetInterfaces _ _ _).run 0 = _
    rw [List.nil_append] at hrun
    rw [show (deserializeNetInterfaces host.order host.lim
      (netInterfacesBytes host.order nifs ++ post)).run 0 = _ from hrun]
    rfl
  unfold decodedNifs
  rw [hdecode]
  show r.toOption.getD [] = nifs
  rw [FunctionReturn.toOption_eq_some.mpr ⟨hok, hdata⟩]
  rfl

theorem announcement_ne_nil (nifs : List NetInterface) : announcement host nifs ≠ [] := by
  intro h
  have hlen := congrArg List.length h
  rw [announcement, serializeNetInterfaces_nil, netInterfacesBytes, Serializer.vectorBytes,
    List.length_append, Serializer.length_lengthField] at hlen
  exact Nat.noConfusion (hlen.symm.trans (Nat.add_comm _ _))

def Pass.incoming (pass : Pass) : Family → Option Incoming
  | .inet => pass.ipv4
  | .inet6 => pass.ipv6

def bufferOf (nnd : NetworkNeighborDiscoverer) (incoming : Incoming) : Bytes :=
  (IPMulticastReceiver.receive nnd.settings.maxBufferSize (some incoming)).1

/-- The passes an iteration made. -/
def passesMade (e : Iteration) : List Pass := e.input.passes.take e.output.passes.length

theorem filled_eq_some {maxBufferSize : UInt32} {used : Bool} {incoming : Option Incoming}
    {buff : Bytes} (h : filled maxBufferSize used incoming = some buff) :
    used = true ∧ ∃ d, incoming = some d ∧
      buff = (IPMulticastReceiver.receive maxBufferSize (some d)).1 := by
  cases incoming with
  | none =>
    rw [filled_none] at h
    cases h
  | some d =>
    unfold filled at h
    split at h
    · rename_i hboth
      cases h
      exact ⟨hboth.1, d, rfl, rfl⟩
    · cases h

theorem mem_passBuffers {nnd : NetworkNeighborDiscoverer} {nifs : List NetInterface} {pass : Pass}
    {buff : Bytes} (h : buff ∈ passBuffers nnd nifs pass) :
    HasIPv6 nifs ∧ ∃ T d, pass.incoming T = some d ∧ buff = bufferOf nnd d := by
  unfold passBuffers at h
  rcases List.mem_append.mp h with h | h
  · obtain ⟨hused, d, hd, hbuff⟩ := filled_eq_some (Option.mem_toList.mp h)
    exact ⟨(canUse_iff (T := .inet6)).mp (Bool.and_eq_true_iff.mp hused).1, .inet6, d, hd, hbuff⟩
  · obtain ⟨hused, d, hd, hbuff⟩ := filled_eq_some (Option.mem_toList.mp h)
    exact ⟨(canUse_iff (T := .inet)).mp (Bool.and_eq_true_iff.mp hused).1, .inet, d, hd, hbuff⟩

theorem bufferOf_fits {nnd : NetworkNeighborDiscoverer} {d : Incoming}
    (hfit : d.data.length ≤ nnd.settings.maxBufferSize.toNat) :
    bufferOf nnd d = d.data ++
      List.replicate (nnd.settings.maxBufferSize.toNat - d.data.length) 0 := by
  unfold bufferOf IPMulticastReceiver.receive
  dsimp only
  rw [List.take_of_length_le hfit]

theorem bufferOf_mem {nnd : NetworkNeighborDiscoverer} {nifs : List NetInterface} {pass : Pass}
    {T : Family} {d : Incoming} (hsenders : ∀ T, ∃ x, nnd.sender T = some x)
    (huse : HasIPv6 nifs) (hd : pass.incoming T = some d) (hpos : d.data ≠ [])
    (hfit : d.data.length ≤ nnd.settings.maxBufferSize.toNat) :
    bufferOf nnd d ∈ passBuffers nnd nifs pass := by
  obtain ⟨x, hx⟩ := hsenders T
  rw [bufferOf_fits hfit]
  unfold passBuffers
  cases T
  · have hused : (canUseIPv4 nifs && nnd.ipv4sender.isSome) = true :=
      Bool.and_eq_true_iff.mpr ⟨(canUse_iff (T := .inet)).mpr huse, by
        rw [show nnd.ipv4sender = some x from hx]; rfl⟩
    rw [hused, show pass.ipv4 = some d from hd, filled_some hpos hfit]
    exact List.mem_append_right _ (List.mem_singleton_self _)
  · have hused : (canUseIPv6 nifs && nnd.ipv6sender.isSome) = true :=
      Bool.and_eq_true_iff.mpr ⟨(canUse_iff (T := .inet6)).mpr huse, by
        rw [show nnd.ipv6sender = some x from hx]; rfl⟩
    rw [hused, show pass.ipv6 = some d from hd, filled_some hpos hfit]
    exact List.mem_append_left _ (List.mem_singleton_self _)

theorem received_eq {e : Iteration}
    (hstep : runIteration host e.input e.before = .ok (e.after, e.output))
    (hnifs : e.input.nifs ≠ []) :
    e.output.received = (passesMade e).flatMap (passBuffers e.before e.input.nifs) := by
  obtain ⟨consumed, rest, hpasses, -, hreceived⟩ :=
    (runIteration_discovers host hstep hnifs).passes
  have hlen : e.output.passes.length = consumed.length := by
    have := congrArg List.length hreceived
    rwa [List.length_map, List.length_map] at this
  unfold passesMade
  rw [hlen, hpasses, List.take_left]
  exact flatMap_received hreceived

/-! ## An encounter -/

/-- The datagrams of iteration `a` of one host are waiting when another host makes
its iteration `b`, together with others that say nothing about the first host. -/
structure Encounter (host : Host) (a b : Iteration) : Prop where
  macs : (a.input.nifs.map NetInterface.mac).Nodup
  representable : Representable host.lim a.input.nifs
  fits : (announcement host a.input.nifs).length ≤ b.before.settings.maxBufferSize.toNat
  senders : ∀ T, ∃ x, b.before.sender T = some x
  delivered : ∀ T, ∀ data ∈ sentData a T, ∃ pass ∈ passesMade b, ∃ d,
    pass.incoming T = some d ∧ d.data = data
  others : ∀ pass ∈ passesMade b, ∀ T d, pass.incoming T = some d → d.data ∈ sentData a T ∨
    ∀ x ∈ decodedNifs host (bufferOf b.before d), x.mac ∉ a.input.nifs.map NetInterface.mac

def SharesSubnet (host : Host) (r : NetInterface) (nifs : List NetInterface) : Prop :=
  (∃ ip ∈ r.ipv4s, ∃ loc ∈ nifs, ∃ l ∈ loc.ipv4s,
    IPAddressManager.isSameSubnetIPv4 host.pton ip l = true) ∨
  ∃ ip ∈ r.ipv6s, ∃ loc ∈ nifs, ∃ l ∈ loc.ipv6s,
    IPAddressManager.isSameSubnetIPv6 host.pton ip l = .ok true

/-- The subnet test does not mind the order of its arguments, so sharing a subnet is
matching. -/
theorem isMatch_of_shares {r : NetInterface} {nifs : List NetInterface}
    (h : SharesSubnet host r nifs) : isMatch host nifs r = true := by
  unfold isMatch
  rw [Bool.or_eq_true, List.any_eq_true, List.any_eq_true]
  rcases h with ⟨ip, hip, loc, hloc, l, hl, hsame⟩ | ⟨ip, hip, loc, hloc, l, hl, hsame⟩
  · rw [IPAddressManager.isSameSubnetIPv4_comm] at hsame
    exact Or.inl ⟨ip, hip, (matchesIPv4_iff host).mpr ⟨loc, hloc, l, hl, hsame⟩⟩
  · rw [IPAddressManager.isSameSubnetIPv6_comm] at hsame
    exact Or.inr ⟨ip, hip, (matchesIPv6_iff host).mpr ⟨loc, hloc, l, hl, hsame⟩⟩

variable {a b : Iteration}

theorem Encounter.decodes (hmeet : Encounter host a b) {d : Incoming}
    (hd : d.data = announcement host a.input.nifs) :
    decodedNifs host (bufferOf b.before d) = a.input.nifs := by
  have hfit := hmeet.fits
  have hmax := b.before.settings.maxBufferSize.toNat_lt
  rw [← hd] at hfit
  rw [bufferOf_fits hfit, hd]
  refine decodedNifs_announcement hmeet.representable _ ?_
  rw [List.length_append, List.length_replicate, ← hd]
  omega

end TwoHosts

/-! ## Two small hosts -/

namespace Small

def remoteV6 : NetInterface := { remote with ipv6s := [⟨text "fe80::2", 64⟩] }

end Small

/-! ## Discovery -/

end NeighborDiscovery
