/-
What the interface list has to do with targets and memberships over runs.

Where a name has one index throughout, no target or membership of an interface
that stays is removed with those of the interfaces that go, so every interface of
the present list is served.  And what departs and arrives is decided by membership
alone, so the order of a list leaves no trace in the targets.
-/
import NeighborDiscovery.Network.HandleSafety

namespace NeighborDiscovery

/-! ## Every interface is served -/

section Served

variable {host : Host} {logger : Logger} {settings : DiscoverySettings}
  {localSettings : UnixDomainSettings} {calls : SetupCalls}
  {init s : NetworkNeighborDiscoverer} {h : List Iteration}

def membershipFor (group : InAddr .inet6) (idx : Bytes → UInt32) (nif : NetInterface) :
    Membership .inet6 := ⟨group, idx nif.name⟩

theorem membershipOf_eq {env : Env} {group : InAddr .inet6} {idx : Bytes → UInt32}
    {nif : NetInterface} (h : env.index nif = idx nif.name) :
    membershipOf env group nif = membershipFor group idx nif := by
  show (⟨group, env.index nif⟩ : Membership .inet6) = ⟨group, idx nif.name⟩
  rw [h]

/-- Whatever key the interfaces are known by, if only interfaces of one index share
a key, an iteration keeps the keys of all it lists. -/
theorem keys_served {κ : Type} [DecidableEq κ] {idx : Bytes → UInt32} {e : Iteration}
    {made key : NetInterface → κ} {keys : List κ} (hmade : ∀ n ∈ named e, made n = key n)
    (hkey : ∀ a b, key a = key b → idx a.name = idx b.name)
    (hinj : Set.InjOn idx (namesOf [e]))
    (hprev : (e.before.prevNifs.map NetInterface.name).Nodup)
    (hserved : ∀ p ∈ e.before.prevNifs, key p ∈ keys) :
    ∀ n ∈ e.input.nifs, key n ∈ ListSync.sync made e.before.prevNifs e.input.nifs keys := by
  refine ListSync.served hserved (fun n hn => hmade n (List.mem_append_right _ hn))
    fun a ha hna b hb hnb heq => ?_
  have hanamed : a ∈ named e := List.mem_append_left _ ha
  have hbnamed : b ∈ named e := List.mem_append_left _ hb
  rw [hmade a hanamed] at heq
  have hname : a.name = b.name :=
    hinj ⟨e, by simp, a, hanamed, rfl⟩ ⟨e, by simp, b, hbnamed, rfl⟩ (hkey a b heq)
  rw [eq_of_name_eq hprev ha hb hname] at hna
  exact hna hnb

/-- Every interface of the last list has its target in each sender and its
membership in the IPv6 receiver. -/
structure AllServed (settings : DiscoverySettings) (group : (T : Family) → InAddr T)
    (idx : Bytes → UInt32) (nnd : NetworkNeighborDiscoverer) : Prop where
  unique : (nnd.prevNifs.map NetInterface.name).Nodup
  config : nnd.settings = settings
  targets : ∀ T x, nnd.sender T = some x →
    Served settings (group T) idx nnd.prevNifs x.targets
  groups : ∀ r, nnd.ipv6receiver = some r →
    ∀ n ∈ nnd.prevNifs, membershipFor (group .inet6) idx n ∈ r.groups

theorem allServed_init (hinit : construct logger settings localSettings calls = .ok init)
    (group : (T : Family) → InAddr T) (idx : Bytes → UInt32) :
    AllServed settings group idx init := by
  have hinitial := construct_ok hinit
  refine ⟨?_, hinitial.settings, fun T x _ => ?_, fun r _ => ?_⟩
  · rw [hinitial.prevNifs]
    exact List.nodup_nil
  · rw [hinitial.prevNifs]
    exact fun n hn => absurd hn List.not_mem_nil
  · rw [hinitial.prevNifs]
    exact fun n hn => absurd hn List.not_mem_nil

theorem allServed_step {group : (T : Family) → InAddr T}
    (hgroup : ∀ T, host.group? T = some (group T)) {idx : Bytes → UInt32} {e : Iteration}
    (hidx : FixedIndex idx [e]) (hgrants : e.input.Grants .inet6)
    (hstep : runIteration host e.input e.before = .ok (e.after, e.output))
    (hbefore : AllServed settings group idx e.before) : AllServed settings group idx e.after := by
  obtain ⟨hprev, hconfig, -, -⟩ := runIteration_config host hstep
  have hindex : ∀ n ∈ named e, e.input.index n = idx n.name := hidx.index e (by simp)
  refine ⟨?_, hconfig.trans hbefore.config, fun T x hx => ?_, fun r hr => ?_⟩
  · rw [hprev]
    exact hidx.unique e (by simp)
  · obtain ⟨x₀, hx₀, htargets⟩ := sender_before hstep (hgroup T) hx
    rw [hprev, htargets]
    by_cases hnifs : e.input.nifs = []
    · rw [hnifs]
      exact fun n hn => absurd hn List.not_mem_nil
    · rw [if_neg hnifs, hbefore.config]
      exact keys_served (fun n hn => targetOf_eq (hindex n hn)) (fun _ _ => targetFor_inj.mp)
        hidx.injective hbefore.unique (hbefore.targets T x₀ hx₀)
  · rw [hprev]
    by_cases hnifs : e.input.nifs = []
    · rw [hnifs]
      exact fun n hn => absurd hn List.not_mem_nil
    · have hupdate := (runIteration_discovers host hstep hnifs).receiver .inet6
      rw [show e.after.receiver .inet6 = some r from hr] at hupdate
      obtain ⟨r₀, hr₀, rfl⟩ := Option.map_eq_some_iff.mp hupdate.symm
      intro n hn
      rw [groups_updated e.input (hgroup .inet6) hgrants]
      exact keys_served (fun n hn => membershipOf_eq (hindex n hn))
        (fun _ _ => congrArg Membership.ifindex) hidx.injective hbefore.unique
        (hbefore.groups r₀ hr₀) n hn

theorem interfaces_served (hinit : construct logger settings localSettings calls = .ok init)
    {group : (T : Family) → InAddr T} (hgroup : ∀ T, host.group? T = some (group T))
    (hrun : DaemonRun host init h s) {idx : Bytes → UInt32} (hidx : FixedIndex idx h)
    (hgrants : ∀ e ∈ h, e.input.Grants .inet6) :
    ∀ e ∈ h,
      (∀ T, (e.after.sender T).isSome = (init.sender T).isSome ∧
        (e.after.receiver T).isSome = (init.receiver T).isSome) ∧
      ∀ n ∈ e.input.nifs,
        (∀ T x, e.after.sender T = some x → ∃ t ∈ x.targets, t.ifindex = idx n.name) ∧
        ∀ r, e.after.ipv6receiver = some r → ⟨group .inet6, idx n.name⟩ ∈ r.groups := by
  have hone : ∀ e ∈ h, FixedIndex idx [e] := fun e he =>
    hidx.mono fun k hk => by rwa [List.mem_singleton.mp hk]
  have hkept : ∀ e ∈ h, e.after.listening = init.listening := by
    intro e he
    obtain ⟨h₁, h₂, -, hbefore, hstep⟩ := hrun.event he
    exact (runIteration_listening hstep).1.trans (DaemonRun.listening_eq hbefore).1
  have hafter : ∀ e ∈ h, AllServed settings group idx e.after :=
    hrun.forall_after (AllServed settings group idx)
      (fun e => FixedIndex idx [e] ∧ e.input.Grants .inet6) (allServed_init hinit group idx)
      (fun _ hQ hstep => allServed_step hgroup hQ.1 hQ.2 hstep)
      fun e he => ⟨hone e he, hgrants e he⟩
  refine fun e he => ⟨fun T => ⟨congrFun (congrArg Listening.hasSender (hkept e he)) T,
    congrFun (congrArg Listening.hasReceiver (hkept e he)) T⟩, fun n hn => ?_⟩
  obtain ⟨h₁, h₂, -, -, hstep⟩ := hrun.event he
  rw [← (runIteration_config host hstep).1] at hn
  exact ⟨fun T x hx => ⟨_, (hafter e he).targets T x hx n hn, rfl⟩,
    fun r hr => (hafter e he).groups r hr n hn⟩

end Served

theorem interfaces_served_small : ∃ h,
    iterations Small.host Small.init
        [Small.quiet [Small.eth0, Small.eth1], Small.quiet [Small.eth1], Small.quiet [],
          Small.quiet [Small.eth1, Small.eth0]] = some h ∧
      ∀ e ∈ h,
        (∀ T, (e.after.sender T).isSome = (Small.init.sender T).isSome ∧
          (e.after.receiver T).isSome = (Small.init.receiver T).isSome) ∧
        ∀ n ∈ e.input.nifs,
          (∀ T x, e.after.sender T = some x → ∃ t ∈ x.targets, t.ifindex = Small.index n.name) ∧
          ∀ r, e.after.ipv6receiver = some r →
            ⟨Small.group .inet6, Small.index n.name⟩ ∈ r.groups := by
  have hmade : ∃ e₁ e₂ e₃ e₄, iterations Small.host Small.init
        [Small.quiet [Small.eth0, Small.eth1], Small.quiet [Small.eth1], Small.quiet [],
          Small.quiet [Small.eth1, Small.eth0]] = some [e₁, e₂, e₃, e₄] ∧
      named e₁ = [Small.eth0, Small.eth1] ∧
      named e₂ = [Small.eth0, Small.eth1, Small.eth1] ∧ named e₃ = [Small.eth1] ∧
      named e₄ = [Small.eth1, Small.eth0] := ⟨_, _, _, _, rfl, rfl, rfl, rfl, rfl⟩
  obtain ⟨e₁, e₂, e₃, e₄, hmade, hnamed₁, hnamed₂, hnamed₃, hnamed₄⟩ := hmade
  obtain ⟨s, hrun⟩ := Small.run hmade
  have hnames : ∀ e ∈ [e₁, e₂, e₃, e₄], ∀ n ∈ named e, n ∈ [Small.eth0, Small.eth1] := by
    simp [hnamed₁, hnamed₂, hnamed₃, hnamed₄]
  have hidx : FixedIndex Small.index [e₁, e₂, e₃, e₄] :=
    Small.fixedIndex (forall_input (fun env => env.ifNametoindex = Small.index) hmade
      (by simp [Small.quiet, Small.env])) hnames
      (forall_input (fun env => (env.nifs.map NetInterface.name).Nodup) hmade (by decide))
  have hgrants : ∀ e ∈ [e₁, e₂, e₃, e₄], e.input.Grants .inet6 :=
    forall_input (fun env => env.Grants .inet6) hmade (by simp [Small.quiet, Small.env, Env.Grants])
  exact ⟨_, hmade, interfaces_served Small.construct_init Small.group_eq hrun hidx hgrants⟩

/-! ## The order of a list -/

section Order

variable {host : Host} {settings : DiscoverySettings}

/-- Two daemons whose last lists and whose targets differ in order only. -/
structure SameTargets (settings : DiscoverySettings) (a b : NetworkNeighborDiscoverer) :
    Prop where
  prevNifs : a.prevNifs.Perm b.prevNifs
  configs : a.settings = settings ∧ b.settings = settings
  targets : ∀ T x y, a.sender T = some x → b.sender T = some y → x.targets.Perm y.targets

theorem sameTargets_step {group : (T : Family) → InAddr T}
    (hgroup : ∀ T, host.group? T = some (group T)) {idx : Bytes → UInt32} {a b : Iteration}
    (hidxA : ∀ n ∈ named a, a.input.index n = idx n.name)
    (hidxB : ∀ n ∈ named b, b.input.index n = idx n.name)
    (hnifs : a.input.nifs.Perm b.input.nifs)
    (hstepA : runIteration host a.input a.before = .ok (a.after, a.output))
    (hstepB : runIteration host b.input b.before = .ok (b.after, b.output))
    (hbefore : SameTargets settings a.before b.before) :
    SameTargets settings a.after b.after := by
  obtain ⟨hprevA, hconfigA, -, -⟩ := runIteration_config host hstepA
  obtain ⟨hprevB, hconfigB, -, -⟩ := runIteration_config host hstepB
  refine ⟨?_, ⟨hconfigA.trans hbefore.configs.1, hconfigB.trans hbefore.configs.2⟩,
    fun T x y hx hy => ?_⟩
  · rw [hprevA, hprevB]
    exact hnifs
  · obtain ⟨x₀, hx₀, hxt⟩ := sender_before hstepA (hgroup T) hx
    obtain ⟨y₀, hy₀, hyt⟩ := sender_before hstepB (hgroup T) hy
    have hold : x₀.targets.Perm y₀.targets := hbefore.targets T x₀ y₀ hx₀ hy₀
    rw [hxt, hyt]
    by_cases hempty : a.input.nifs = []
    · have hemptyB : b.input.nifs = [] := by
        rw [hempty] at hnifs
        exact hnifs.nil_eq.symm
      rw [if_pos hempty, if_pos hemptyB]
      exact hold
    · have hemptyB : b.input.nifs ≠ [] := fun hnil => by
        rw [hnil] at hnifs
        exact hempty hnifs.eq_nil
      rw [if_neg hempty, if_neg hemptyB, hbefore.configs.1, hbefore.configs.2,
        ListSync.sync_congr fun n hn => targetOf_eq (hidxA n hn),
        ListSync.sync_congr fun n hn => targetOf_eq (hidxB n hn)]
      exact ListSync.sync_perm hbefore.prevNifs hnifs hold

theorem targets_perm {loggerA loggerB : Logger} {localA localB : UnixDomainSettings}
    {callsA callsB : SetupCalls} {initA initB sA sB : NetworkNeighborDiscoverer}
    (hinitA : construct loggerA settings localA callsA = .ok initA)
    (hinitB : construct loggerB settings localB callsB = .ok initB)
    {group : (T : Family) → InAddr T} (hgroup : ∀ T, host.group? T = some (group T))
    {hA hB : List Iteration} (hrunA : DaemonRun host initA hA sA)
    (hrunB : DaemonRun host initB hB sB) {idx : Bytes → UInt32} (hidxA : FixedIndex idx hA)
    (hidxB : FixedIndex idx hB)
    (hlists : List.Forall₂ (fun a b => a.input.nifs.Perm b.input.nifs) hA hB) :
    List.Forall₂ (fun a b => ∀ T x y, a.after.sender T = some x → b.after.sender T = some y →
        x.targets.Perm y.targets) hA hB ∧
      ∀ h₁ p e h₂, hA = h₁ ++ p :: e :: h₂ → p.input.nifs.Perm e.input.nifs →
        nifsToDisable e.before.prevNifs e.input.nifs = [] ∧
          nifsToEnable e.before.prevNifs e.input.nifs = [] := by
  have hinitialA := construct_ok hinitA
  have hinitialB := construct_ok hinitB
  constructor
  · have hinitial : SameTargets settings initA initB := by
      refine ⟨?_, ⟨hinitialA.settings, hinitialB.settings⟩, fun T x y hx hy => ?_⟩
      · rw [hinitialA.prevNifs, hinitialB.prevNifs]
      · rw [hinitialA.targets T x hx, hinitialB.targets T y hy]
    have hafter := Runs.Run.forall₂_after (SameTargets settings) _ hinitial hrunA hrunB
      (fun a ha b hb => sameTargets_step hgroup (hidxA.index a ha) (hidxB.index b hb)) hlists
    exact hafter.imp fun a b hab => hab.targets
  · intro h₁ p e h₂ hsplit hperm
    have hpast : DaemonRun host initA (h₁ ++ [p]) e.before := by
      rw [hsplit, List.append_cons] at hrunA
      exact hrunA.split.1
    obtain ⟨-, hstep, hbefore⟩ := hpast.last
    rw [hbefore, (runIteration_config host hstep).1]
    exact ⟨ListSync.departed_of_perm hperm, ListSync.arrived_of_perm hperm⟩

end Order

theorem targets_perm_small : ∃ hA hB,
    iterations Small.host Small.init
        [Small.quiet [Small.eth0, Small.eth1], Small.quiet [Small.eth1, Small.eth0]] = some hA ∧
      iterations Small.host Small.init
        [Small.quiet [Small.eth1, Small.eth0], Small.quiet [Small.eth0, Small.eth1]] = some hB ∧
      List.Forall₂ (fun a b => ∀ T x y, a.after.sender T = some x → b.after.sender T = some y →
        x.targets.Perm y.targets) hA hB ∧
      ∀ h₁ p e h₂, hA = h₁ ++ p :: e :: h₂ → p.input.nifs.Perm e.input.nifs →
        nifsToDisable e.before.prevNifs e.input.nifs = [] ∧
          nifsToEnable e.before.prevNifs e.input.nifs = [] := by
  have hmadeA : ∃ a₁ a₂, iterations Small.host Small.init
        [Small.quiet [Small.eth0, Small.eth1], Small.quiet [Small.eth1, Small.eth0]] =
          some [a₁, a₂] ∧
      named a₁ = [Small.eth0, Small.eth1] ∧
      named a₂ = [Small.eth0, Small.eth1, Small.eth1, Small.eth0] ∧
      a₁.input.nifs = [Small.eth0, Small.eth1] ∧ a₂.input.nifs = [Small.eth1, Small.eth0] :=
    ⟨_, _, rfl, rfl, rfl, rfl, rfl⟩
  have hmadeB : ∃ b₁ b₂, iterations Small.host Small.init
        [Small.quiet [Small.eth1, Small.eth0], Small.quiet [Small.eth0, Small.eth1]] =
          some [b₁, b₂] ∧
      named b₁ = [Small.eth1, Small.eth0] ∧
      named b₂ = [Small.eth1, Small.eth0, Small.eth0, Small.eth1] ∧
      b₁.input.nifs = [Small.eth1, Small.eth0] ∧ b₂.input.nifs = [Small.eth0, Small.eth1] :=
    ⟨_, _, rfl, rfl, rfl, rfl, rfl⟩
  obtain ⟨a₁, a₂, hmadeA, hnamedA₁, hnamedA₂, hnifsA₁, hnifsA₂⟩ := hmadeA
  obtain ⟨b₁, b₂, hmadeB, hnamedB₁, hnamedB₂, hnifsB₁, hnifsB₂⟩ := hmadeB
  obtain ⟨sA, hrunA⟩ := Small.run hmadeA
  obtain ⟨sB, hrunB⟩ := Small.run hmadeB
  have hidxA : FixedIndex Small.index [a₁, a₂] :=
    Small.fixedIndex (forall_input (fun env => env.ifNametoindex = Small.index) hmadeA
      (by simp [Small.quiet, Small.env])) (by simp [hnamedA₁, hnamedA₂])
      (forall_input (fun env => (env.nifs.map NetInterface.name).Nodup) hmadeA (by decide))
  have hidxB : FixedIndex Small.index [b₁, b₂] :=
    Small.fixedIndex (forall_input (fun env => env.ifNametoindex = Small.index) hmadeB
      (by simp [Small.quiet, Small.env])) (by simp [hnamedB₁, hnamedB₂])
      (forall_input (fun env => (env.nifs.map NetInterface.name).Nodup) hmadeB (by decide))
  have hlists : List.Forall₂ (fun a b : Iteration => a.input.nifs.Perm b.input.nifs)
      [a₁, a₂] [b₁, b₂] := by
    refine .cons ?_ (.cons ?_ .nil)
    · rw [hnifsA₁, hnifsB₁]
      exact .swap _ _ _
    · rw [hnifsA₂, hnifsB₂]
      exact .swap _ _ _
  exact ⟨_, _, hmadeA, hmadeB, targets_perm Small.construct_init Small.construct_init
    Small.group_eq hrunA hrunB hidxA hidxB hlists⟩

end NeighborDiscovery
