/-
The IPv4 membership over runs.

The receiver joins and leaves by the difference between the list of the previous
iteration and the present one.  All IPv4 calls are about one membership, that of the
group on any interface, so leaving it for one interface leaves it for all.
-/
import NeighborDiscovery.Network.DaemonRun

namespace NeighborDiscovery

variable {host : Host} {logger : Logger} {settings : DiscoverySettings}
  {localSettings : UnixDomainSettings} {calls : SetupCalls}
  {init s : NetworkNeighborDiscoverer} {h : List Iteration}

def IPv4Member (group : InAddr .inet) (nnd : NetworkNeighborDiscoverer) : Prop :=
  ∃ r, nnd.ipv4receiver = some r ∧ ⟨group, 0⟩ ∈ r.groups

def SomeDeparted (e : Iteration) : Prop := ∃ p ∈ e.before.prevNifs, p ∉ e.input.nifs

def SomeArrived (e : Iteration) : Prop := ∃ n ∈ e.input.nifs, n ∉ e.before.prevNifs

/-- After an iteration the receiver is a member if an interface arrived, or if it was
one before and no interface departed. -/
theorem ipv4Member_step {e : Iteration} {group : InAddr .inet}
    (hgroup : host.group? .inet = some group) (hnifs : e.input.nifs ≠ [])
    (hgrants : e.input.Grants .inet)
    (hstep : runIteration host e.input e.before = .ok (e.after, e.output))
    (hreceiver : ∃ r, e.before.ipv4receiver = some r) :
    IPv4Member group e.after ↔
      (IPv4Member group e.before ∧ ¬ SomeDeparted e) ∨ SomeArrived e := by
  obtain ⟨r, hr⟩ := hreceiver
  have hafter : e.after.ipv4receiver =
      some (updatedReceiver host e.input e.before.prevNifs e.input.nifs r) := by
    have hupdate := (runIteration_discovers host hstep hnifs).receiver .inet
    rw [show e.before.receiver .inet = some r from hr] at hupdate
    exact hupdate
  have hmem : IPv4Member group e.after ↔ ⟨group, 0⟩ ∈ ListSync.sync
      (membershipOf e.input group) e.before.prevNifs e.input.nifs r.groups := by
    rw [← groups_updated e.input hgroup hgrants]
    refine ⟨fun hm => ?_, fun hm => ⟨_, hafter, hm⟩⟩
    obtain ⟨r', hr', hm⟩ := hm
    rw [hafter] at hr'
    cases hr'
    exact hm
  have hbefore : IPv4Member group e.before ↔ ⟨group, 0⟩ ∈ r.groups := by
    refine ⟨fun hm => ?_, fun hm => ⟨r, hr, hm⟩⟩
    obtain ⟨r', hr', hm⟩ := hm
    rw [hr] at hr'
    cases hr'
    exact hm
  rw [hmem, ListSync.mem_sync, hbefore]
  refine or_congr (and_congr_right fun _ => ?_) ?_
  · constructor
    · intro hkept hdeparted
      obtain ⟨p, hp, hpn⟩ := hdeparted
      exact hkept p hp hpn rfl
    · intro hnone p hp hpn
      exact absurd ⟨p, hp, hpn⟩ hnone
  · constructor
    · intro harrived
      obtain ⟨n, hn, hnp, -⟩ := harrived
      exact ⟨n, hn, hnp⟩
    · intro harrived
      obtain ⟨n, hn, hnp⟩ := harrived
      exact ⟨n, hn, hnp, rfl⟩

theorem ipv4Member_iff (hinit : construct logger settings localSettings calls = .ok init)
    (hreceiver : ∃ r, init.ipv4receiver = some r) {group : InAddr .inet}
    (hgroup : host.group? .inet = some group) (hrun : DaemonRun host init h s)
    (hnifs : ∀ e ∈ h, e.input.nifs ≠ []) (hgrants : ∀ e ∈ h, e.input.Grants .inet) :
    (∀ e ∈ h, IPv4Member group e.after) ↔ ∀ e ∈ h, SomeDeparted e → SomeArrived e := by
  have hinitial := construct_ok hinit
  have hmembers : (∀ e ∈ h, e.after.prevNifs ≠ [] → IPv4Member group e.after) ↔
      ∀ e ∈ h, SomeDeparted e → SomeArrived e := by
    refine hrun.forall_after_iff (fun nnd => ∃ r, nnd.ipv4receiver = some r)
      (fun nnd => nnd.prevNifs ≠ [] → IPv4Member group nnd)
      (fun e => e.input.nifs ≠ [] ∧ e.input.Grants .inet) _
      hreceiver (fun hne => absurd hinitial.prevNifs hne) (fun e hQ hstep hr => ?_)
      (fun e hQ hstep hr hbefore => ?_) fun e he => ⟨hnifs e he, hgrants e he⟩
    · obtain ⟨r, hr⟩ := hr
      have hupdate := (runIteration_discovers host hstep hQ.1).receiver .inet
      rw [show e.before.receiver .inet = some r from hr] at hupdate
      exact ⟨_, hupdate⟩
    · have hprev : e.after.prevNifs ≠ [] := by
        rw [(runIteration_config host hstep).1]
        exact hQ.1
      have hmember := ipv4Member_step hgroup hQ.1 hQ.2 hstep hr
      refine ⟨fun hafter hdeparted => ?_, fun hcond _ => hmember.mpr ?_⟩
      · rcases hmember.mp (hafter hprev) with hkept | harrived
        · exact absurd hdeparted hkept.2
        · exact harrived
      · by_cases hdeparted : SomeDeparted e
        · exact Or.inr (hcond hdeparted)
        · -- Nothing departed, so either there was no list before or it is still served.
          by_cases hnone : e.before.prevNifs = []
          · obtain ⟨n, hn⟩ := List.exists_mem_of_ne_nil _ hQ.1
            exact Or.inr ⟨n, hn, by rw [hnone]; exact List.not_mem_nil⟩
          · exact Or.inl ⟨hbefore hnone, hdeparted⟩
  rw [← hmembers]
  refine ⟨fun hall e he _ => hall e he, fun hall e he => hall e he ?_⟩
  obtain ⟨h₁, h₂, -, -, hstep⟩ := hrun.event he
  rw [(runIteration_config host hstep).1]
  exact hnifs e he

theorem ipv4Member_iff_small : ∃ h,
    iterations Small.host Small.init [Small.quiet [Small.eth0], Small.quiet [Small.eth1]] = some h ∧
      ∀ e ∈ h, IPv4Member #v[239, 1, 1, 1] e.after := by
  have hmade : ∃ e₁ e₂, iterations Small.host Small.init
        [Small.quiet [Small.eth0], Small.quiet [Small.eth1]] = some [e₁, e₂] ∧
      e₁.before.prevNifs = [] ∧ e₂.before.prevNifs = [Small.eth0] ∧
      e₂.input.nifs = [Small.eth1] := ⟨_, _, rfl, rfl, rfl, rfl⟩
  obtain ⟨e₁, e₂, hmade, hprev₁, hprev₂, hnifs₂⟩ := hmade
  obtain ⟨s, hrun⟩ := Small.run hmade
  refine ⟨_, hmade, (ipv4Member_iff Small.construct_init ⟨_, rfl⟩ rfl hrun ?_ ?_).mpr ?_⟩
  · refine forall_input (fun env => env.nifs ≠ []) hmade fun env henv => ?_
    rcases List.mem_pair.mp henv with rfl | rfl
    · exact List.cons_ne_nil _ _
    · exact List.cons_ne_nil _ _
  · refine forall_input (fun env => env.Grants .inet) hmade fun env henv => ?_
    rcases List.mem_pair.mp henv with rfl | rfl
    · exact fun _ _ => rfl
    · exact fun _ _ => rfl
  · intro e he hdeparted
    rcases List.mem_pair.mp he with rfl | rfl
    · obtain ⟨p, hp, -⟩ := hdeparted
      rw [hprev₁] at hp
      exact absurd hp List.not_mem_nil
    · refine ⟨Small.eth1, ?_, ?_⟩
      · rw [hnifs₂]
        exact List.mem_singleton_self _
      · rw [hprev₂]
        decide

/-- The membership is lost when one of two interfaces goes. -/
theorem ipv4Member_lost : ∃ e₁ e₂,
    iterations Small.host Small.init
        [Small.quiet [Small.eth0, Small.eth1], Small.quiet [Small.eth0]] = some [e₁, e₂] ∧
      e₁.input.Grants .inet ∧ e₂.input.Grants .inet ∧
      IPv4Member #v[239, 1, 1, 1] e₁.after ∧ ¬ IPv4Member #v[239, 1, 1, 1] e₂.after := by
  refine ⟨_, _, rfl, fun _ _ => rfl, fun _ _ => rfl, ⟨_, rfl, List.mem_singleton_self _⟩,
    fun hmember => ?_⟩
  obtain ⟨r, hr, hmem⟩ := hmember
  cases hr
  exact List.not_mem_nil hmem

end NeighborDiscovery
