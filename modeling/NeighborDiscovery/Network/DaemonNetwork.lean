/-
Daemons on one link.

Each host runs its daemon, on its own settings, in its own byte order and with its
own interfaces.  An iteration sends its announcement when it begins, while other
iterations are under way, and the medium may lose, repeat, delay and reorder the
datagrams.  A daemon that ends by an exception stays in its iteration until it is
started again.  Nothing else sends to the two multicast groups.

The result of this module is that tables hold nothing but announced interfaces:
`table_announced` traces every entry of every table to the list of some host.
-/
import NeighborDiscovery.Library.Broadcast
import NeighborDiscovery.Network.ForeignAnnouncements
import NeighborDiscovery.Network.NeighborHistory
import NeighborDiscovery.Network.SendTargets

namespace NeighborDiscovery

open Broadcast

/-! ## What an iteration sends -/

section Sends

variable (host : Host)

/-- The datagrams of a family that an iteration hands over, known when it begins. -/
def sentOf (env : Env) (nnd : NetworkNeighborDiscoverer) (T : Family) : List (Sent T) :=
  if env.nifs = [] then []
  else
    (sendOn (canUse T env.nifs)
      ((nnd.sender T).map (updatedSender host env nnd.settings.port nnd.prevNifs env.nifs))
      (announcement host env.nifs) (env.sendCalls T)).2

variable {host} {env : Env} {nnd nnd' : NetworkNeighborDiscoverer} {out : Output}

theorem discover_sends {logger logger' : Logger} {nifs : List NetInterface}
    (h : discover host env nnd nifs logger = .ok ((nnd', out), logger')) (T : Family) :
    out.sent T = (sendOn (canUse T nifs)
      ((nnd.sender T).map (updatedSender host env nnd.settings.port nnd.prevNifs nifs))
      (announcement host nifs) (env.sendCalls T)).2 := by
  unfold discover at h
  obtain ⟨s, _, hupdate, h⟩ := Logging.bind_eq_ok.mp h
  dsimp only at h
  obtain ⟨r, _, -, h⟩ := Logging.bind_eq_ok.mp h
  obtain ⟨t, _, -, h⟩ := Logging.bind_eq_ok.mp h
  obtain ⟨answer, _, -, h⟩ := Logging.bind_eq_ok.mp h
  cases h
  rw [← (updateSockets_ok host env hupdate T).1]
  cases T <;> rfl

theorem sent_eq (h : runIteration host env nnd = .ok (nnd', out)) (T : Family) :
    out.sent T = sentOf host env nnd T := by
  unfold sentOf
  by_cases hnifs : env.nifs = []
  · rw [if_pos hnifs, (runIteration_idle host h hnifs).2.2]
    cases T <;> rfl
  · obtain ⟨nnd₁, logger, logger', -, hbranch⟩ := runIteration_eq_ok host h
    rw [if_pos (List.length_pos_of_ne_nil hnifs)] at hbranch
    rw [if_neg hnifs]
    exact discover_sends hbranch T

/-- What an iteration sends is its announcement, and only behind the gate. -/
theorem data_of_sent {T : Family} {d : Sent T} (h : d ∈ sentOf host env nnd T) :
    HasIPv6 env.nifs ∧ d.data = announcement host env.nifs := by
  unfold sentOf at h
  by_cases hnifs : env.nifs = []
  · rw [if_pos hnifs] at h
    exact absurd h List.not_mem_nil
  rw [if_neg hnifs] at h
  cases hsender : nnd.sender T with
  | none =>
    rw [hsender] at h
    exact absurd h List.not_mem_nil
  | some x =>
    rw [hsender, Option.map_some] at h
    unfold sendOn at h
    dsimp only at h
    by_cases huse : canUse T env.nifs = true
    · rw [if_pos huse] at h
      have hall := IPMulticastSender.send_sent
        (updatedSender host env nnd.settings.port nnd.prevNifs env.nifs x)
        (announcement host env.nifs) (env.sendCalls T)
      have hmem := List.mem_map_of_mem (f := fun d : Sent T => (d.addr, d.data)) h
      rw [IPMulticastSender.sent_addresses hall] at hmem
      obtain ⟨p, -, hp⟩ := List.mem_map.mp hmem
      exact ⟨canUse_iff.mp huse, (congrArg Prod.snd hp).symm⟩
    · rw [if_neg huse] at h
      exact absurd h List.not_mem_nil

end Sends

/-! ## The link -/

/-- A host on the link, and what its daemon is started with. -/
structure Site where
  host : Host
  settings : DiscoverySettings
  localSettings : UnixDomainSettings

/-- A datagram of either family that was waiting in a pass the iteration made. -/
def Offered (e : Iteration) (data : Bytes) : Prop :=
  ∃ pass ∈ passesMade e, ∃ T d, pass.incoming T = some d ∧ d.data = data

/-- What an iteration was offered and has room for, it has decoded. -/
theorem Offered.decoded {host : Host} {e : Iteration} {l : List NetInterface}
    (hoffered : Offered e (announcement host l))
    (hstep : runIteration host e.input e.before = .ok (e.after, e.output))
    (hgate : HasIPv6 e.input.nifs) (hsenders : ∀ T, ∃ x, e.before.sender T = some x)
    (hfit : Representable host.lim l)
    (hfits : (announcement host l).length ≤ e.before.settings.maxBufferSize.toNat)
    {r : NetInterface} (hr : r ∈ l) : r ∈ e.output.decoded host := by
  have hnifs : e.input.nifs ≠ [] := by
    intro hnil
    obtain ⟨n, hn, -⟩ := hgate
    rw [hnil] at hn
    exact List.not_mem_nil hn
  obtain ⟨pass, hpass, T, d, hd, hdata⟩ := hoffered
  rw [← hdata] at hfits
  have hbuffer := bufferOf_mem hsenders hgate hd (by rw [hdata]; exact announcement_ne_nil _) hfits
  have hlist : decodedNifs host (bufferOf e.before d) = l := by
    have hmax := e.before.settings.maxBufferSize.toNat_lt
    rw [bufferOf_fits hfits, hdata]
    refine decodedNifs_announcement hfit _ ?_
    rw [List.length_append, List.length_replicate, ← hdata]
    omega
  unfold Output.decoded decodedAll
  rw [received_eq hstep hnifs, List.mem_flatMap]
  exact ⟨_, List.mem_flatMap.mpr ⟨pass, hpass, hbuffer⟩, by rw [hlist]; exact hr⟩

def daemons {ν : Type} (site : ν → Site) :
    Nodes ν NetworkNeighborDiscoverer Env Output Bytes where
  starts n nnd := ∃ logger calls,
    construct logger (site n).settings (site n).localSettings calls = .ok nnd
  round n := Iterates (site n).host
  sends n nnd env data := ∃ T, ∃ d ∈ sentOf (site n).host env nnd T, d.data = data
  reads _ e data := Offered e data

abbrev Link (ν : Type) := State ν NetworkNeighborDiscoverer Env Output

theorem lastWithMac_append (mac : Bytes) (l₁ l₂ : List NetInterface) :
    lastWithMac mac (l₁ ++ l₂) = (lastWithMac mac l₂).or (lastWithMac mac l₁) := by
  rw [lastWithMac, List.reverse_append, List.find?_append]
  rfl

theorem lastWithMac_flatMap {α : Type} {f : α → List NetInterface} {l : List α} {mac : Bytes}
    {r : NetInterface} (h : lastWithMac mac (l.flatMap f) = some r) :
    ∃ a ∈ l, lastWithMac mac (f a) = some r := by
  induction l with
  | nil => cases h
  | cons a l ih =>
    rw [List.flatMap_cons, lastWithMac_append, Option.or_eq_some_iff] at h
    rcases h with h | ⟨-, h⟩
    · obtain ⟨b, hb, hr⟩ := ih h
      exact ⟨b, List.mem_cons_of_mem a hb, hr⟩
    · exact ⟨a, List.mem_cons_self, h⟩

section Provenance

variable {ν : Type} {site : ν → Site} {s : Link ν}

/-- Whatever is on the link is the announcement of a list some host had. -/
theorem announcement_of_sent {data : Bytes} (h : s.Sent (daemons site) data) :
    ∃ b ∈ s.begun, HasIPv6 b.input.nifs ∧
      data = announcement (site b.node).host b.input.nifs := by
  obtain ⟨b, hb, T, d, hd, rfl⟩ := h
  obtain ⟨hgate, hdata⟩ := data_of_sent hd
  exact ⟨b, hb, hgate, hdata⟩

variable [DecidableEq ν]

/-- What an iteration has decoded under a MAC address, some host of the same byte
order has announced under it. -/
theorem decoded_announced (hs : Reachable (daemons site) s) {i : ν} {e : Iteration}
    (he : e ∈ s.ended i) (hstep : Iterates (site i).host e.before e.input e.output e.after)
    (hnifs : e.input.nifs ≠ []) {mac : Bytes} {r : NetInterface}
    (hr : lastWithMac mac (e.output.decoded (site i).host) = some r) :
    HasIPv6 e.input.nifs ∧ ∃ b ∈ s.begun, HasIPv6 b.input.nifs ∧
      (site b.node).host.order = (site i).host.order ∧ lastWithMac mac b.input.nifs = some r := by
  obtain ⟨buff, hbuff, hr⟩ := lastWithMac_flatMap hr
  rw [received_eq hstep hnifs, List.mem_flatMap] at hbuff
  obtain ⟨pass, hpass, hbuff⟩ := hbuff
  obtain ⟨hgate, T, d, hd, rfl⟩ := mem_passBuffers hbuff
  obtain ⟨b, hb, hsender, hdata⟩ := announcement_of_sent
    (hs.read_sent he (show Offered e d.data from ⟨pass, hpass, T, d, hd, rfl⟩))
  refine ⟨hgate, b, hb, hsender, ?_⟩
  rcases @decodedNifs_delivered (site b.node).host (site i).host
      e.before.settings.maxBufferSize b.input.nifs d hdata with hnone | ⟨horder, hlist⟩
  · rw [bufferOf, hnone] at hr
    cases hr
  · rw [bufferOf, hlist] at hr
    exact ⟨horder, hr⟩

/-- An entry of a table is what the latest announcement under its MAC address left. -/
theorem entry_latest (hs : Reachable (daemons site) s) {i : ν} {mac : Bytes}
    {entry : NetInterface × Int} (hentry : (s.node i).neighbors.lookup mac = some entry) :
    ∃ e r, LatestAnnouncement (site i).host (s.ended i) mac e r ∧
      entry = (restrict (site i).host e.input.nifs r, e.input.updateNow mac) := by
  obtain ⟨init, ⟨logger, calls, hinit⟩, hrun⟩ := hs.run i
  rw [lookup_eq_contents (construct_ok hinit).neighbors hrun] at hentry
  obtain ⟨h₁, e, h₂, hsplit, hwrite, hquiet, -⟩ := Expiry.contents_eq_some.mp hentry
  obtain ⟨r, hlatest, hvalue⟩ := lastWrite_iff.mp ⟨h₁, h₂, hsplit, hwrite, hquiet⟩
  exact ⟨e, r, hlatest, hvalue⟩

/-- What a daemon has read under a MAC address, some host of the same byte order has
announced under it. -/
theorem latest_announced (hs : Reachable (daemons site) s) {i : ν} {mac : Bytes} {e : Iteration}
    {r : NetInterface} (hlatest : LatestAnnouncement (site i).host (s.ended i) mac e r) :
    HasIPv6 e.input.nifs ∧ ∃ b ∈ s.begun, HasIPv6 b.input.nifs ∧
      (site b.node).host.order = (site i).host.order ∧ lastWithMac mac b.input.nifs = some r := by
  obtain ⟨h₁, h₂, hsplit, hannounces, -⟩ := hlatest
  have hnifs : e.input.nifs ≠ [] := by
    intro hnil
    have hmatch := hannounces.2
    rw [hnil, isMatch_nil] at hmatch
    cases hmatch
  have he : e ∈ s.ended i := by
    rw [hsplit]
    exact List.mem_append_right _ List.mem_cons_self
  obtain ⟨init, -, hrun⟩ := hs.run i
  obtain ⟨_, _, -, -, hstep⟩ := hrun.event he
  exact decoded_announced hs he hstep hnifs hannounces.1

end Provenance

/-! ## Two small hosts -/

namespace Small

theorem eth0_announced : (announcement host [eth0]).length ≤ 65535 := by decide

theorem remoteV6_announced : (announcement host [remoteV6]).length ≤ 65535 := by decide

/-- Both announcements wait at once, one in each receiver. -/
def crossing : Pass where
  ipv6 := some ⟨announcement host [remoteV6], text "fe80::2", remoteV6_announced⟩
  ipv4 := some ⟨announcement host [eth0], text "10.0.0.1", eth0_announced⟩
  client := none
  now := 30000000000

def linked (n : Bool) : NetInterface := if n then remoteV6 else eth0

def meets (n : Bool) : Env := env [linked n] [crossing] 0

def site (_ : Bool) : Site := ⟨host, settings, localSettings⟩

set_option maxRecDepth 20000 in
theorem meets_made (n : Bool) : ∃ e, iterations host init [meets n] = some [e] ∧
    e.before = init ∧ e.input = meets n ∧ passesMade e = [crossing] ∧
    (∀ T, (e.after.sender T).isSome = true) ∧
    ∃ entry, e.after.neighbors.lookup eth0.mac = some entry := by
  cases n
  · exact ⟨_, rfl, rfl, rfl, rfl, fun T => by cases T <;> rfl, _, rfl⟩
  · exact ⟨_, rfl, rfl, rfl, rfl, fun T => by cases T <;> rfl, _, rfl⟩

set_option maxRecDepth 20000 in
theorem meets_sends (n : Bool) :
    ∃ d ∈ sentOf host (meets n) init .inet6, d.data = announcement host [linked n] := by
  cases n
  · exact ⟨_, List.mem_cons_self, rfl⟩
  · exact ⟨_, List.mem_cons_self, rfl⟩

theorem step_of_made {e : Iteration} {env : Env} (hmade : iterations host init [env] = some [e]) :
    Iterates host e.before e.input e.output e.after := by
  obtain ⟨s, hrun⟩ := run hmade
  exact (Runs.Run.last (h := []) hrun).2.1

/-- Two hosts have begun an iteration each. -/
def meeting : Link Bool :=
  (State.begin ⟨fun _ => init, fun _ => none, [], fun _ => []⟩ false (meets false)).begin true
    (meets true)

theorem meeting_reached : Reachable (daemons site) meeting := by
  have hstart : Reachable (daemons site) ⟨fun _ => init, fun _ => none, [], fun _ => []⟩ :=
    .start fun _ => ⟨some [], calls, construct_init⟩
  exact (hstart.begin (n := false) (meets false) rfl).begin (n := true) (meets true) rfl

theorem crossing_sent {s : Link Bool} (hs : s.begun = meeting.begun) {T : Family} {d : Incoming}
    (hd : crossing.incoming T = some d) : s.Sent (daemons site) d.data := by
  have hall : ∀ n, s.Sent (daemons site) (announcement host [linked n]) := by
    intro n
    obtain ⟨d', hd', hdata⟩ := meets_sends n
    refine ⟨⟨n, init, meets n⟩, ?_, .inet6, d', hd', hdata⟩
    rw [hs]
    cases n <;> simp [meeting, State.begin]
  cases T
  · cases hd
    exact hall false
  · cases hd
    exact hall true

theorem offered_sent {s : Link Bool} (hs : s.begun = meeting.begun) {e : Iteration}
    (he : passesMade e = [crossing]) {m : Bytes} (hm : Offered e m) :
    s.Sent (daemons site) m := by
  obtain ⟨pass, hpass, T, d, hd, rfl⟩ := hm
  rw [he, List.mem_singleton] at hpass
  subst hpass
  exact crossing_sent hs hd

/-- Both have heard both. -/
theorem met : ∃ s : Link Bool, Reachable (daemons site) s ∧ s.begun = meeting.begun ∧
    ∀ n, ∃ e, s.ended n = [e] ∧ s.node n = e.after ∧ e.before = init ∧ e.input = meets n ∧
      passesMade e = [crossing] ∧ (∀ T, ((s.node n).sender T).isSome = true) ∧
      ∃ entry, (s.node n).neighbors.lookup eth0.mac = some entry := by
  obtain ⟨⟨_, _, outA, afterA⟩, hmadeA, rfl, rfl, hpassA, hknowsA⟩ := meets_made false
  obtain ⟨⟨_, _, outB, afterB⟩, hmadeB, rfl, rfl, hpassB, hknowsB⟩ := meets_made true
  have hstepA := step_of_made hmadeA
  have hstepB := step_of_made hmadeB
  have hendA := meeting_reached.finish (n := false) (i := meets false) (o := outA) (t := afterA) rfl
    hstepA fun m hm => offered_sent rfl hpassA hm
  have hendB := hendA.finish (n := true) (i := meets true) (o := outB) (t := afterB) rfl hstepB
    fun m hm => offered_sent rfl hpassB hm
  refine ⟨_, hendB, rfl, fun n => ?_⟩
  cases n
  · exact ⟨_, rfl, rfl, rfl, rfl, hpassA, hknowsA⟩
  · exact ⟨_, rfl, rfl, rfl, rfl, hpassB, hknowsB⟩

end Small

/-! ## Where table entries come from -/

/-- Every entry of every table is what a host of the same byte order announced under
its MAC address, filtered by the interfaces the table's owner had when it last read
such an announcement. -/
theorem table_announced {ν : Type} [DecidableEq ν] {site : ν → Site} {s : Link ν}
    (hs : Reachable (daemons site) s) {i : ν} {mac : Bytes} {entry : NetInterface × Int}
    (hentry : (s.node i).neighbors.lookup mac = some entry) :
    ∃ e r, LatestAnnouncement (site i).host (s.ended i) mac e r ∧
      entry = (restrict (site i).host e.input.nifs r, e.input.updateNow mac) ∧
      HasIPv6 e.input.nifs ∧ ∃ b ∈ s.begun, HasIPv6 b.input.nifs ∧
        (site b.node).host.order = (site i).host.order ∧
        lastWithMac mac b.input.nifs = some r := by
  obtain ⟨e, r, hlatest, hvalue⟩ := entry_latest hs hentry
  exact ⟨e, r, hlatest, hvalue, latest_announced hs hlatest⟩

theorem table_announced_small : ∃ s : Link Bool, Reachable (daemons Small.site) s ∧
    ∃ entry, (s.node true).neighbors.lookup Small.eth0.mac = some entry ∧
      ∃ e r, LatestAnnouncement Small.host (s.ended true) Small.eth0.mac e r ∧
        entry = (restrict Small.host e.input.nifs r, e.input.updateNow Small.eth0.mac) ∧
        HasIPv6 e.input.nifs ∧ ∃ b ∈ s.begun, HasIPv6 b.input.nifs ∧
          Small.host.order = Small.host.order ∧
          lastWithMac Small.eth0.mac b.input.nifs = some r := by
  obtain ⟨s, hs, -, hended⟩ := Small.met
  obtain ⟨_, -, -, -, -, -, -, entry, hentry⟩ := hended true
  exact ⟨s, hs, entry, hentry, table_announced hs hentry⟩

end NeighborDiscovery
