/-
What the command line program shows of a link.

On a link whose hosts keep their interfaces, a host that has heard all hosts, itself
included, lists of each MAC address of the link the last interface if it shares a subnet
with its own, and nothing else, whatever it has heard before.  A program that asks it
then prints this list.
-/
import NeighborDiscovery.Network.Convergence
import NeighborDiscovery.Processes.CliSession

namespace NeighborDiscovery.Processes

open Broadcast

section Link

variable {ν : Type} [DecidableEq ν] {site : ν → Site} {s : Link ν} {lists : ν → List NetInterface}
  {i : ν} {past : List Iteration} {e : Iteration} {answer : Reply}

/-- What a host lists of the link: the interfaces, the last of each MAC address, that
share a subnet with the host's own, as the host filters them. -/
def Shown (site : ν → Site) (lists : ν → List NetInterface) (i : ν) (x : NetInterface) : Prop :=
  ∃ j r, lastWithMac r.mac (lists j) = some r ∧
    (HasIPv6 (lists i) ∧ HasIPv6 (lists j) ∧ SharesSubnet (site i).host r (lists i)) ∧
      x = restrict (site i).host (lists i) r

/-- Every entry is under the MAC address of an interface of the link. -/
theorem entry_listed (hs : Reachable (daemons site) s) (hstable : Stable lists s) {mac : Bytes}
    {entry : NetInterface × Int} (hentry : (s.node i).neighbors.lookup mac = some entry) :
    ∃ j r, lastWithMac r.mac (lists j) = some r ∧ r.mac = mac := by
  obtain ⟨e, r, hlatest, -⟩ := entry_latest hs hentry
  obtain ⟨-, b, hb, -, -, hlast⟩ := latest_announced hs hlatest
  rw [hstable.kept b hb] at hlast
  have hmac := (lastWithMac_some hlast).2
  subst hmac
  exact ⟨b.node, r, hlast, rfl⟩

/-- The reply of the last iteration is the table at its end. -/
theorem reply_lookup (hs : Reachable (daemons site) s) (hlast : s.ended i = past ++ [e])
    (hreply : e.output.reply = some answer) :
    ∃ l, answer.clientSBuff = announcement (site i).host l ∧ (l.map NetInterface.mac).Nodup ∧
      ∀ x, x ∈ l ↔ ∃ t, (s.node i).neighbors.lookup x.mac = some (x, t) := by
  obtain ⟨init, ⟨logger, calls, hinit⟩, hrun⟩ := hs.run i
  have hempty := (construct_ok hinit).neighbors
  rw [hlast] at hrun
  obtain ⟨l, hbuff, hnodup, hmem⟩ := reply_data hempty hrun hreply
  refine ⟨l, hbuff, hnodup, fun x => ?_⟩
  rw [hmem, lookup_eq_contents hempty hrun]

/-- The program prints the interfaces of the link that share a subnet with the host's own,
wherever it prints a list. -/
theorem link_shown (hs : Reachable (daemons site) s) (hstable : Stable lists s)
    (hunderstands : ∀ j, Understands site lists s i j)
    (hhears : ∀ j, HasIPv6 (lists i) → HasIPv6 (lists j) → Hears site lists s i j)
    (hlast : s.ended i = past ++ [e]) (hreply : e.output.reply = some answer)
    (hlim : (site i).host.lim.Ample answer.clientSBuff.length) (hsent : answer.handed ≠ []) {calls : CliCalls}
    {arrival : Int} {rounds : List RoundAt} (hasking : Asking calls answer.handed arrival rounds)
    {nifs : List NetInterface} (hlocal : calls.interfaces = .ok (.ofCodeData .Ok nifs)) :
    ∃ l, (l.map NetInterface.mac).Nodup ∧ (∀ x, x ∈ l ↔ Shown site lists i x) ∧
      answer.clientSBuff = announcement (site i).host l ∧
      Prints (site i).host calls nifs l answer.handed (ends calls arrival rounds) := by
  obtain ⟨l, hbuff, hnodup, hmem⟩ := reply_lookup hs hlast hreply
  have hheard : ∀ j, Settled site lists s i j :=
    fun j r hr x => hstable.lookup_heard hs (hunderstands j) (hhears j) hr x
  refine ⟨l, hnodup, fun x => ?_, hbuff, ?_⟩
  · rw [hmem]
    constructor
    · rintro ⟨t, hentry⟩
      obtain ⟨j, r, hr, hmac⟩ := entry_listed hs hstable hentry
      rw [← hmac] at hentry
      exact ⟨j, r, hr, (hheard j r hr x).mp ⟨t, hentry⟩⟩
    · rintro ⟨j, r, hr, hshown, rfl⟩
      exact (hheard j r hr _).mpr ⟨hshown, rfl⟩
  · obtain ⟨init, -, hrun⟩ := hs.run i
    rw [hlast] at hrun
    exact reply_prints hrun.last.2.1 hreply hbuff hlim hsent hasking hlocal

end Link

namespace Small

open NeighborDiscovery.Small

/-- A client waits as both announcements do. -/
def asking : Pass := { crossing with client := some client }

def answers : Env := env [eth0] [asking] 0

set_option maxRecDepth 20000 in
theorem answers_made : ∃ e answer, iterations host init [answers] = some [e] ∧
    e.before = init ∧ e.input = answers ∧ passesMade e = [asking] ∧
    (∀ T, (e.after.sender T).isSome = true) ∧ e.output.reply = some answer ∧
    answer.handed = announcement host [remoteV6, eth0] ∧
    answer.clientSBuff = announcement host [remoteV6, eth0] :=
  ⟨_, _, rfl, rfl, rfl, rfl, fun T => by cases T <;> rfl, rfl, rfl, rfl⟩

set_option maxRecDepth 20000 in
theorem answer_fits : announcement host [remoteV6, eth0] ≠ [] ∧
    (announcement host [remoteV6, eth0]).length < 2 ^ 40 ∧
    (announcement host [remoteV6, eth0]).length ≤ SINGLE_MESSAGE_MAX_SIZE_BYTES := by
  decide

set_option maxRecDepth 20000 in
theorem answers_sends :
    ∃ d ∈ sentOf host answers init .inet6, d.data = announcement host [eth0] :=
  ⟨_, List.mem_cons_self, rfl⟩

def unmet : Link Bool := ⟨fun _ => init, fun _ => none, [], fun _ => []⟩

theorem unmet_reached : Reachable (daemons site) unmet :=
  .start fun _ => ⟨some [], calls, construct_init⟩

/-- Two hosts have begun an iteration each, and one of them is asked. -/
def answering : Link Bool := (unmet.begin false answers).begin true (meets true)

theorem answering_reached : Reachable (daemons site) answering :=
  (unmet_reached.begin (n := false) answers rfl).begin (n := true) (meets true) rfl

theorem asking_sent {e : Iteration} (he : passesMade e = [asking]) {m : Bytes}
    (hm : Offered e m) : answering.Sent (daemons site) m := by
  obtain ⟨pass, hpass, T, d, hd, rfl⟩ := hm
  rw [he, List.mem_singleton] at hpass
  subst hpass
  cases T
  · cases hd
    obtain ⟨d, hd, hdata⟩ := answers_sends
    exact ⟨⟨false, init, answers⟩, by simp [answering, unmet, State.begin], .inet6, d, hd, hdata⟩
  · cases hd
    obtain ⟨d, hd, hdata⟩ := meets_sends true
    exact ⟨⟨true, init, meets true⟩, by simp [answering, unmet, State.begin], .inet6, d, hd, hdata⟩

/-- The asked host has heard both and has answered. -/
theorem answered : ∃ (s : Link Bool) (e : Iteration) (answer : Reply),
    Reachable (daemons site) s ∧ s.begun = answering.begun ∧ s.ended false = [e] ∧
    s.node false = e.after ∧ e.input = answers ∧ passesMade e = [asking] ∧
    (∀ T, (e.after.sender T).isSome = true) ∧ e.output.reply = some answer ∧
    answer.handed = announcement host [remoteV6, eth0] ∧
    answer.clientSBuff = announcement host [remoteV6, eth0] := by
  obtain ⟨⟨_, _, out, after⟩, answer, hmade, rfl, rfl, hpasses, hanswer⟩ := answers_made
  have hstep := step_of_made hmade
  have hend := answering_reached.finish (n := false) (i := answers) (o := out) (t := after) rfl
    hstep fun m hm => asking_sent hpasses hm
  exact ⟨_, _, answer, hend, rfl, rfl, rfl, rfl, hpasses, hanswer⟩

end Small

theorem link_shown_small : ∃ (s : Link Bool) (answer : Reply) (l : List NetInterface),
    Reachable (daemons NeighborDiscovery.Small.site) s ∧
    (∀ x, x ∈ l ↔ Shown NeighborDiscovery.Small.site
      (fun n => [NeighborDiscovery.Small.linked n]) false x) ∧
    answer.clientSBuff = announcement NeighborDiscovery.Small.host l ∧
    main NeighborDiscovery.Small.host (Small.session 12000000000 (Small.late answer.handed)) =
      .ok ⟨0, listing [NeighborDiscovery.Small.eth0.mac] l⟩ := by
  obtain ⟨s, e, answer, hs, hbegun, hlast, hnode, hinput, hpasses, hsenders, hreply, hhanded,
    hbuff⟩ := Small.answered
  have hstable : Stable (fun n => [NeighborDiscovery.Small.linked n]) s := by
    refine ⟨fun b hb => ?_, NeighborDiscovery.Small.linked_macs⟩
    rw [hbegun] at hb
    rcases List.mem_pair.mp hb with rfl | rfl
    · rfl
    · rfl
  have hunderstands : ∀ j, Understands NeighborDiscovery.Small.site
      (fun n => [NeighborDiscovery.Small.linked n]) s false j := by
    intro j
    refine ⟨fun T => ?_, rfl, Limits.libstdcxx_ample (by decide), NeighborDiscovery.Small.linked_fits j⟩
    rw [hnode]
    exact hsenders T
  have hhears : ∀ j, Hears NeighborDiscovery.Small.site
      (fun n => [NeighborDiscovery.Small.linked n]) s false j := by
    intro j
    refine ⟨[], e, hlast, ?_, fun r _ => ?_⟩
    · have hmem : Small.asking ∈ passesMade e := by
        rw [hpasses]
        exact List.mem_singleton_self _
      cases j
      · exact ⟨_, hmem, .inet, _, rfl, rfl⟩
      · exact ⟨_, hmem, .inet6, _, rfl, rfl⟩
    · rw [hinput]
      show (0 : Int) - 0 ≤ seconds 30
      decide
  have hwhole : answer.handed = answer.clientSBuff := hhanded.trans hbuff.symm
  have hsent : answer.handed ≠ [] ∧ answer.clientSBuff.length < 2 ^ 40 ∧
      answer.handed.length ≤ SINGLE_MESSAGE_MAX_SIZE_BYTES := by
    rw [hhanded, hbuff]
    exact Small.answer_fits
  obtain ⟨l, -, hshown, hdata, hprints⟩ := @link_shown Bool _ NeighborDiscovery.Small.site s
    (fun n => [NeighborDiscovery.Small.linked n]) false [] e answer hs hstable hunderstands
    (fun j _ _ => hhears j) hlast hreply (Limits.libstdcxx_ample hsent.2.1) hsent.1 _ _ _
    (Small.asking_late answer.handed) _ rfl
  refine ⟨s, answer, l, hs, hshown, hdata, ?_⟩
  have hends : ends (Small.session 12000000000 (Small.late answer.handed)) 16000000005
    (Small.late answer.handed) = .arrived := rfl
  rw [hends] at hprints
  unfold Prints at hprints
  rw [if_pos ⟨hwhole.trans hdata, hsent.2.2⟩] at hprints
  exact hprints

end NeighborDiscovery.Processes
