/-
Targets over runs.

The daemon changes its targets by the difference between the list of the previous
iteration and the present one, resolving names anew each time.  Two things go wrong
with that, and each result here says exactly when.  An iteration without interfaces
forgets the previous list but not its targets.  And a name that is gone no longer
resolves to the index its target has.
-/
import Mathlib.Data.Set.Function
import NeighborDiscovery.Network.DaemonRun

namespace NeighborDiscovery

variable {host : Host} {logger : Logger} {settings : DiscoverySettings}
  {localSettings : UnixDomainSettings} {calls : SetupCalls}
  {init s : NetworkNeighborDiscoverer} {h : List Iteration}

/-! ## Targets by index -/

def targetFor (settings : DiscoverySettings) {T : Family} (group : InAddr T)
    (idx : Bytes → UInt32) (nif : NetInterface) : Target T :=
  ⟨⟨settings.port, group⟩, idx nif.name⟩

theorem targetOf_eq {env : Env} {T : Family} {group : InAddr T} {idx : Bytes → UInt32}
    {nif : NetInterface} (h : env.index nif = idx nif.name) :
    targetOf env settings.port group nif = targetFor settings group idx nif := by
  unfold targetOf targetFor
  rw [h]

theorem targetFor_inj {T : Family} {group : InAddr T} {idx : Bytes → UInt32}
    {a b : NetInterface} :
    targetFor settings group idx a = targetFor settings group idx b ↔
      idx a.name = idx b.name := by
  refine ⟨fun h => congrArg Target.ifindex h, fun h => ?_⟩
  unfold targetFor
  rw [h]

/-- The interfaces an iteration names: those of the previous list and its own. -/
def named (e : Iteration) : List NetInterface := e.before.prevNifs ++ e.input.nifs

theorem eq_of_name_eq {l : List NetInterface} (h : (l.map NetInterface.name).Nodup)
    {a b : NetInterface} (ha : a ∈ l) (hb : b ∈ l) (hname : a.name = b.name) : a = b :=
  List.inj_on_of_nodup_map h ha hb hname

/-! ## Announcing once -/

def namesOf (h : List Iteration) : Set Bytes := {name | ∃ e ∈ h, ∃ n ∈ named e, n.name = name}

/-- No interface of the list before an iteration without interfaces is named in the
list of `later`. -/
def NoReturn (e later : Iteration) : Prop :=
  e.input.nifs = [] → ∀ p ∈ e.before.prevNifs, ∀ n ∈ later.input.nifs, n.name ≠ p.name

/-- What is asked of the lists and of `if_nametoindex` in a run. -/
structure FixedIndex (idx : Bytes → UInt32) (h : List Iteration) : Prop where
  index : ∀ e ∈ h, ∀ n ∈ named e, e.input.index n = idx n.name
  injective : Set.InjOn idx (namesOf h)
  unique : ∀ e ∈ h, (e.input.nifs.map NetInterface.name).Nodup

theorem FixedIndex.mono {idx : Bytes → UInt32} {h' : List Iteration} (hidx : FixedIndex idx h)
    (hsub : ∀ k ∈ h', k ∈ h) : FixedIndex idx h' := by
  refine ⟨fun k hk => hidx.index k (hsub k hk), hidx.injective.mono ?_,
    fun k hk => hidx.unique k (hsub k hk)⟩
  intro name hname
  obtain ⟨k, hk, hn⟩ := hname
  exact ⟨k, hsub k hk, hn⟩

theorem Small.fixedIndex {h : List Iteration}
    (hcalls : ∀ e ∈ h, e.input.ifNametoindex = Small.index)
    (hnames : ∀ e ∈ h, ∀ n ∈ named e, n ∈ [Small.eth0, Small.eth1])
    (hunique : ∀ e ∈ h, (e.input.nifs.map NetInterface.name).Nodup) :
    FixedIndex Small.index h := by
  refine ⟨fun e he n hn => Small.index_eq (hcalls e he) (hnames e he n hn), ?_, hunique⟩
  intro a ha b hb hab
  obtain ⟨j, hj, n, hn, rfl⟩ := ha
  obtain ⟨k, hk, m, hm, rfl⟩ := hb
  exact Small.index_inj (hnames j hj n hn) (hnames k hk m hm) hab

/-- No target is held twice, and each is that of an interface of the previous list or
of one that was forgotten. -/
structure HeldOnce (settings : DiscoverySettings) {T : Family} (group : InAddr T)
    (idx : Bytes → UInt32) (h : List Iteration) (prevNifs : List NetInterface)
    (targets : List (Target T)) : Prop where
  nodup : targets.Nodup
  source : ∀ t ∈ targets, (∃ p ∈ prevNifs, targetFor settings group idx p = t) ∨
    ∃ e ∈ h, e.input.nifs = [] ∧ ∃ p ∈ e.before.prevNifs, targetFor settings group idx p = t

theorem HeldOnce.forget {T : Family} {group : InAddr T} {idx : Bytes → UInt32} {e : Iteration}
    {targets : List (Target T)} (hheld : HeldOnce settings group idx h e.before.prevNifs targets)
    (hnifs : e.input.nifs = []) : HeldOnce settings group idx (h ++ [e]) [] targets := by
  refine ⟨hheld.nodup, fun t ht => Or.inr ?_⟩
  rcases hheld.source t ht with ⟨p, hp, hpt⟩ | ⟨k, hk, hknifs, hkp⟩
  · exact ⟨e, by simp, hnifs, p, hp, hpt⟩
  · exact ⟨k, List.mem_append_left [e] hk, hknifs, hkp⟩

/-- An iteration with interfaces keeps every target single, unless a forgotten
interface returns. -/
theorem HeldOnce.follow {T : Family} {group : InAddr T} {idx : Bytes → UInt32} {e : Iteration}
    {targets : List (Target T)} (hheld : HeldOnce settings group idx h e.before.prevNifs targets)
    (hidx : FixedIndex idx (h ++ [e])) (hreturn : ∀ k ∈ h, NoReturn k e) :
    HeldOnce settings group idx (h ++ [e]) e.input.nifs
      (ListSync.sync (targetFor settings group idx) e.before.prevNifs e.input.nifs targets) := by
  have hunique := hidx.unique e (by simp)
  have hsame : ∀ k ∈ h ++ [e], ∀ p ∈ named k, ∀ n ∈ e.input.nifs,
      targetFor settings group idx p = targetFor settings group idx n → p.name = n.name :=
    fun k hk p hp n hn heq => hidx.injective ⟨k, hk, p, hp, rfl⟩
      ⟨e, by simp, n, List.mem_append_right _ hn, rfl⟩ (targetFor_inj.mp heq)
  refine ⟨ListSync.nodup hheld.nodup ?_ fun n hn hnp hkey => ?_, fun t ht => ?_⟩
  · refine hunique.of_map _ |>.map_on fun a ha b hb heq => ?_
    exact eq_of_name_eq hunique ha hb
      (hsame e (by simp) a (List.mem_append_right _ ha) b hb heq)
  · rcases hheld.source _ hkey with ⟨p, hp, heq⟩ | ⟨k, hk, hknifs, p, hp, heq⟩
    · have hname := hsame e (by simp) p (List.mem_append_left _ hp) n hn heq
      refine ⟨p, hp, fun hpnew => hnp ?_, heq⟩
      rw [← eq_of_name_eq hunique hpnew hn hname]
      exact hp
    · have hname := hsame k (List.mem_append_left _ hk) p (List.mem_append_left _ hp) n hn heq
      exact absurd hname.symm (hreturn k hk hknifs p hp n hn)
  · have hsource := ListSync.within hheld.source (fun _ _ => rfl) (fun _ _ _ => rfl) t ht
    refine hsource.imp_right fun hforgotten => ?_
    obtain ⟨k, hk, hkp⟩ := hforgotten
    exact ⟨k, List.mem_append_left [e] hk, hkp⟩

theorem heldOnce_run (hinit : construct logger settings localSettings calls = .ok init)
    {T : Family} {group : InAddr T} (hgroup : host.group? T = some group)
    (hrun : DaemonRun host init h s) {idx : Bytes → UInt32} (hidx : FixedIndex idx h)
    (hreturn : h.Pairwise NoReturn) {x : IPMulticastSender T} (hx : s.sender T = some x) :
    HeldOnce settings group idx h s.prevNifs x.targets := by
  have hinitial := construct_ok hinit
  induction hrun generalizing x with
  | nil =>
    rw [hinitial.targets T x hx]
    exact ⟨List.nodup_nil, fun t ht => absurd ht List.not_mem_nil⟩
  | @snoc h s env out s' hrun hstep ih =>
    obtain ⟨hpast, -, hlast⟩ := List.pairwise_append.mp hreturn
    obtain ⟨x₀, hx₀, htargets⟩ := sender_before hstep hgroup hx
    have hheld := ih (hidx.mono fun k hk => List.mem_append_left _ hk) hpast hx₀
    rw [(runIteration_config host hstep).1, htargets]
    by_cases hnifs : env.nifs = []
    · rw [if_pos hnifs, hnifs]
      exact HeldOnce.forget (e := ⟨s, env, out, s'⟩) hheld hnifs
    · rw [if_neg hnifs, DaemonRun.settings_eq hrun, hinitial.settings]
      rw [ListSync.sync_congr fun n hn =>
        targetOf_eq (hidx.index ⟨s, env, out, s'⟩ (by simp) n hn)]
      exact hheld.follow hidx fun k hk => hlast k hk _ (List.mem_singleton_self _)

theorem targets_once (hinit : construct logger settings localSettings calls = .ok init)
    {T : Family} {group : InAddr T} (hgroup : host.group? T = some group)
    (hrun : DaemonRun host init h s) {idx : Bytes → UInt32} (hidx : FixedIndex idx h)
    (hreturn : h.Pairwise NoReturn) :
    ∀ e ∈ h, ∀ x, e.after.sender T = some x → (x.targets.map Target.ifindex).Nodup := by
  intro e he x hx
  obtain ⟨h₁, h₂, rfl, hbefore, hstep⟩ := hrun.event he
  have hprefix : (h₁ ++ [e]).Sublist (h₁ ++ e :: h₂) :=
    (List.Sublist.refl h₁).append (List.singleton_sublist.mpr (List.mem_cons_self ..))
  have hheld := heldOnce_run hinit hgroup (hbefore.snoc hstep)
    (hidx.mono fun k hk => hprefix.subset hk) (hreturn.sublist hprefix) hx
  have haddr : ∀ t ∈ x.targets, t.addr = ⟨settings.port, group⟩ := by
    intro t ht
    rcases hheld.source t ht with ⟨p, -, rfl⟩ | ⟨k, -, -, p, -, rfl⟩
    · rfl
    · rfl
  refine hheld.nodup.map_on fun a ha b hb hindex => ?_
  cases a
  cases b
  have hsame := (haddr _ ha).trans (haddr _ hb).symm
  cases hsame
  cases hindex
  rfl

theorem targets_once_small : ∃ h,
    iterations Small.host Small.init
        [Small.quiet [Small.eth0], Small.quiet [], Small.quiet [Small.eth1]] = some h ∧
      ∀ e ∈ h, ∀ x, e.after.sender .inet6 = some x → (x.targets.map Target.ifindex).Nodup := by
  have hmade : ∃ e₁ e₂ e₃, iterations Small.host Small.init
        [Small.quiet [Small.eth0], Small.quiet [], Small.quiet [Small.eth1]] =
          some [e₁, e₂, e₃] ∧
      named e₁ = [Small.eth0] ∧ named e₂ = [Small.eth0] ∧ named e₃ = [Small.eth1] ∧
      e₁.input.nifs = [Small.eth0] ∧ e₂.before.prevNifs = [Small.eth0] ∧
      e₃.input.nifs = [Small.eth1] := ⟨_, _, _, rfl, rfl, rfl, rfl, rfl, rfl, rfl⟩
  obtain ⟨e₁, e₂, e₃, hmade, hnamed₁, hnamed₂, hnamed₃, hnifs₁, hprev₂, hnifs₃⟩ := hmade
  obtain ⟨s, hrun⟩ := Small.run hmade
  have hnames : ∀ e ∈ [e₁, e₂, e₃], ∀ n ∈ named e, n ∈ [Small.eth0, Small.eth1] := by
    simp [hnamed₁, hnamed₂, hnamed₃]
  have hidx : FixedIndex Small.index [e₁, e₂, e₃] :=
    Small.fixedIndex (forall_input (fun env => env.ifNametoindex = Small.index) hmade
      (by simp [Small.quiet, Small.env])) hnames
      (forall_input (fun env => (env.nifs.map NetInterface.name).Nodup) hmade (by decide))
  have hreturn : [e₁, e₂, e₃].Pairwise NoReturn := by
    have hfirst : ∀ k, NoReturn e₁ k := fun k hnil => by
      rw [hnifs₁] at hnil
      cases hnil
    have hsecond : NoReturn e₂ e₃ := fun _ => by
      rw [hprev₂, hnifs₃]
      decide
    simp [hfirst, hsecond]
  exact ⟨_, hmade, targets_once Small.construct_init rfl hrun hidx hreturn⟩

/-- An interface that returns after a list without interfaces gets a second target. -/
theorem target_twice : ∃ h e,
    iterations Small.host Small.init
        [Small.quiet [Small.eth0], Small.quiet [], Small.quiet [Small.eth0]] = some (h ++ [e]) ∧
      (∃ x, e.after.sender .inet6 = some x ∧ x.targets.map Target.ifindex = [2, 2]) ∧
      ∃ x, e.after.sender .inet = some x ∧ x.targets.map Target.ifindex = [2, 2] := by
  have hmade : ∃ e₁ e₂ e₃, iterations Small.host Small.init
        [Small.quiet [Small.eth0], Small.quiet [], Small.quiet [Small.eth0]] =
          some ([e₁, e₂] ++ [e₃]) ∧
      (∃ x, e₃.after.sender .inet6 = some x ∧ x.targets.map Target.ifindex = [2, 2]) ∧
      ∃ x, e₃.after.sender .inet = some x ∧ x.targets.map Target.ifindex = [2, 2] :=
    ⟨_, _, _, rfl, ⟨_, rfl, rfl⟩, ⟨_, rfl, rfl⟩⟩
  obtain ⟨e₁, e₂, e₃, hmade⟩ := hmade
  exact ⟨[e₁, e₂], e₃, hmade⟩

/-! ## Announcing to present interfaces only -/

def Served (settings : DiscoverySettings) {T : Family} (group : InAddr T) (idx : Bytes → UInt32)
    (nifs : List NetInterface) (targets : List (Target T)) : Prop :=
  ∀ n ∈ nifs, targetFor settings group idx n ∈ targets

/-- An interface that is new or changed in an iteration has the index there. -/
def NewAt (i : UInt32) (e : Iteration) : Prop :=
  ∃ n ∈ e.input.nifs, n ∉ e.before.prevNifs ∧ e.input.index n = i

/-- The name of an interface that left or changed resolves to the index. -/
def GoneAt (i : UInt32) (e : Iteration) : Prop :=
  ∃ p ∈ e.before.prevNifs, p ∉ e.input.nifs ∧ e.input.index p = i

/-- An interface arrived with the index, and none that departed since resolved to it. -/
def Entered (i : UInt32) (h : List Iteration) : Prop := Runs.Since (NewAt i) (GoneAt i) h

theorem entered_snoc {i : UInt32} {e : Iteration} :
    Entered i (h ++ [e]) ↔ (Entered i h ∧ ¬ GoneAt i e) ∨ NewAt i e := Runs.since_snoc

/-- Every index that was entered is in the iteration that of a listed interface, or of one
that departs. -/
def Accounted (h : List Iteration) (e : Iteration) : Prop :=
  ∀ i, Entered i h → GoneAt i e ∨ ∃ n ∈ e.input.nifs, e.input.index n = i

/-- The targets are those of the indices that were entered. -/
structure Enters (settings : DiscoverySettings) {T : Family} (group : InAddr T)
    (h : List Iteration) (nnd : NetworkNeighborDiscoverer) : Prop where
  sender : ∃ x, nnd.sender T = some x ∧
    ∀ t, t ∈ x.targets ↔ t.addr = ⟨settings.port, group⟩ ∧ Entered t.ifindex h
  config : nnd.settings = settings

theorem targetOf_eq_iff {env : Env} {T : Family} {group : InAddr T} {n : NetInterface}
    {t : Target T} : targetOf env settings.port group n = t ↔
      t.addr = ⟨settings.port, group⟩ ∧ env.index n = t.ifindex := by
  cases t
  simp [targetOf, eq_comm]

/-- Which targets are held after an iteration. -/
theorem mem_sync_targets {T : Family} {group : InAddr T} {e : Iteration}
    {targets : List (Target T)} {t : Target T} :
    t ∈ ListSync.sync (targetOf e.input settings.port group) e.before.prevNifs e.input.nifs
        targets ↔
      (t ∈ targets ∧ ¬ (t.addr = ⟨settings.port, group⟩ ∧ GoneAt t.ifindex e)) ∨
        t.addr = ⟨settings.port, group⟩ ∧ NewAt t.ifindex e := by
  rw [ListSync.mem_sync]
  simp only [targetOf_eq_iff, GoneAt, NewAt, Ne]
  refine or_congr (and_congr_right fun _ => ?_) ?_
  · constructor
    · intro hnone hdeparts
      obtain ⟨haddr, p, hp, hnew, hindex⟩ := hdeparts
      exact hnone p hp hnew ⟨haddr, hindex⟩
    · intro hnone p hp hnew hboth
      exact hnone ⟨hboth.1, p, hp, hnew, hboth.2⟩
  · constructor
    · intro harrives
      obtain ⟨n, hn, hold, haddr, hindex⟩ := harrives
      exact ⟨haddr, n, hn, hold, hindex⟩
    · intro harrives
      obtain ⟨haddr, n, hn, hold, hindex⟩ := harrives
      exact ⟨n, hn, hold, haddr, hindex⟩

theorem enters_step {T : Family} {group : InAddr T} (hgroup : host.group? T = some group)
    {e : Iteration} (hnifs : e.input.nifs ≠ [])
    (hstep : runIteration host e.input e.before = .ok (e.after, e.output))
    (hin : Enters settings group h e.before) : Enters settings group (h ++ [e]) e.after := by
  obtain ⟨x, hx, htargets⟩ := hin.sender
  obtain ⟨-, hconfig, -, -⟩ := runIteration_config host hstep
  obtain ⟨x', hx', hsync⟩ := sender_after hstep hnifs hgroup hx
  refine ⟨⟨x', hx', fun t => ?_⟩, hconfig.trans hin.config⟩
  rw [hsync, hin.config, mem_sync_targets, htargets, entered_snoc, and_or_left]
  refine or_congr_left ?_
  constructor
  · intro hkept
    obtain ⟨⟨haddr, hentered⟩, hdeparts⟩ := hkept
    exact ⟨haddr, hentered, fun h => hdeparts ⟨haddr, h⟩⟩
  · intro hkept
    obtain ⟨haddr, hentered, hdeparts⟩ := hkept
    exact ⟨⟨haddr, hentered⟩, fun h => hdeparts h.2⟩

theorem enters_run (hinit : construct logger settings localSettings calls = .ok init)
    {T : Family} (hsender : ∃ x, init.sender T = some x) {group : InAddr T}
    (hgroup : host.group? T = some group) (hrun : DaemonRun host init h s)
    (hnifs : ∀ e ∈ h, e.input.nifs ≠ []) : Enters settings group h s := by
  induction hrun with
  | nil =>
    have hinitial := construct_ok hinit
    obtain ⟨x, hx⟩ := hsender
    refine ⟨⟨x, hx, fun t => ?_⟩, hinitial.settings⟩
    rw [hinitial.targets T x hx]
    exact iff_of_false List.not_mem_nil fun hentered => Runs.not_since_nil hentered.2
  | @snoc h s env out s' hrun hstep ih =>
    exact enters_step (e := ⟨s, env, out, s'⟩) hgroup (hnifs _ (by simp)) hstep
      (ih fun e he => hnifs e (List.mem_append_left _ he))

/-- An iteration leaves only targets of listed interfaces exactly if it accounts for every
index that was entered before it. -/
theorem Enters.present_iff {T : Family} {group : InAddr T} {e : Iteration}
    (hafter : Enters settings group (h ++ [e]) e.after) :
    (∃ x, e.after.sender T = some x ∧
      ∀ t ∈ x.targets, ∃ n ∈ e.input.nifs, t.ifindex = e.input.index n) ↔ Accounted h e := by
  obtain ⟨x, hx, htargets⟩ := hafter.sender
  constructor
  · intro hpresent i hentered
    obtain ⟨y, hy, hpresent⟩ := hpresent
    cases hx.symm.trans hy
    refine or_iff_not_imp_left.mpr fun hstays => ?_
    have hheld := (htargets ⟨⟨settings.port, group⟩, i⟩).mpr
      ⟨rfl, entered_snoc.mpr (Or.inl ⟨hentered, hstays⟩)⟩
    obtain ⟨n, hn, hindex⟩ := hpresent _ hheld
    exact ⟨n, hn, hindex.symm⟩
  · intro haccounted
    refine ⟨x, hx, fun t ht => ?_⟩
    rcases entered_snoc.mp ((htargets t).mp ht).2 with ⟨hentered, hstays⟩ | ⟨n, hn, -, hindex⟩
    · obtain ⟨n, hn, hindex⟩ := (haccounted _ hentered).resolve_left hstays
      exact ⟨n, hn, hindex.symm⟩
    · exact ⟨n, hn, hindex.symm⟩

/-- Whatever index a name has from one iteration to the next. -/
theorem targets_present_iff (hinit : construct logger settings localSettings calls = .ok init)
    {T : Family} (hsender : ∃ x, init.sender T = some x) {group : InAddr T}
    (hgroup : host.group? T = some group) (hrun : DaemonRun host init h s)
    (hnifs : ∀ e ∈ h, e.input.nifs ≠ []) :
    (∀ e ∈ h, ∃ x, e.after.sender T = some x ∧
      ∀ t ∈ x.targets, ∃ n ∈ e.input.nifs, t.ifindex = e.input.index n) ↔
      ∀ before e after, h = before ++ e :: after → Accounted before e := by
  have hone : ∀ before e after, h = before ++ e :: after →
      Enters settings group (before ++ [e]) e.after := by
    intro before e after hsplit
    subst hsplit
    obtain ⟨hbefore, hstep⟩ := hrun.split
    exact enters_step hgroup (hnifs e (by simp)) hstep
      (enters_run hinit hsender hgroup hbefore fun k hk => hnifs k (by simp [hk]))
  constructor
  · intro hpresent before e after hsplit
    exact (hone before e after hsplit).present_iff.mp (hpresent e (by simp [hsplit]))
  · intro haccounted e he
    obtain ⟨before, after, hsplit⟩ := List.append_of_mem he
    exact (hone before e after hsplit).present_iff.mpr (haccounted before e after hsplit)

/-- A second `eth1`, with an index of its own. -/
def Small.recreated : Env :=
  { Small.quiet [Small.eth1] with
    ifNametoindex := fun name => if name = text "eth1" then 5 else Small.index name }

theorem targets_present_iff_small : ∃ h,
    iterations Small.host Small.init [Small.quiet [Small.eth0, Small.eth1],
        Small.quiet [Small.eth0], Small.recreated] = some h ∧
      ∀ e ∈ h, ∃ x, e.after.sender .inet6 = some x ∧
        ∀ t ∈ x.targets, ∃ n ∈ e.input.nifs, t.ifindex = e.input.index n := by
  have hmade : ∃ e₁ e₂ e₃, iterations Small.host Small.init [Small.quiet [Small.eth0, Small.eth1],
        Small.quiet [Small.eth0], Small.recreated] = some [e₁, e₂, e₃] ∧
      e₁.input = Small.quiet [Small.eth0, Small.eth1] ∧ e₂.input = Small.quiet [Small.eth0] ∧
      e₂.before.prevNifs = [Small.eth0, Small.eth1] ∧ e₃.input = Small.recreated ∧
      e₃.before.prevNifs = [Small.eth0] := ⟨_, _, _, rfl, rfl, rfl, rfl, rfl, rfl⟩
  obtain ⟨e₁, e₂, e₃, hmade, h₁, h₂, hprev₂, h₃, hprev₃⟩ := hmade
  obtain ⟨s, hrun⟩ := Small.run hmade
  have hnifs : ∀ e ∈ [e₁, e₂, e₃], e.input.nifs ≠ [] :=
    forall_input (fun env => env.nifs ≠ []) hmade (by decide)
  have hfirst : ∀ i, Entered i [e₁] → i = 2 ∨ i = 3 := by
    intro i hentered
    rcases (entered_snoc (h := [])).mp hentered with ⟨hnone, -⟩ | ⟨n, hn, -, rfl⟩
    · exact absurd hnone Runs.not_since_nil
    · rw [h₁] at hn ⊢
      rcases List.mem_pair.mp hn with rfl | rfl
      · exact Or.inl rfl
      · exact Or.inr rfl
  have hgone : GoneAt 3 e₂ := by
    refine ⟨Small.eth1, ?_, ?_, ?_⟩
    · rw [hprev₂]
      simp
    · rw [h₂]
      decide
    · rw [h₂]
      rfl
  have hsecond : ∀ i, Entered i [e₁, e₂] → i = 2 := by
    intro i hentered
    rcases (entered_snoc (h := [e₁])).mp hentered with ⟨hentered, hstays⟩ | ⟨n, hn, hnew, -⟩
    · refine (hfirst i hentered).resolve_right ?_
      rintro rfl
      exact hstays hgone
    · rw [h₂] at hn
      rw [hprev₂] at hnew
      exact absurd (List.mem_append_left [Small.eth1] hn) hnew
  refine ⟨_, hmade, (targets_present_iff Small.construct_init (Small.sender_init .inet6)
    (Small.group_eq .inet6) hrun hnifs).mpr fun before e after hsplit => ?_⟩
  obtain _ | ⟨_, _ | ⟨_, _ | ⟨_, before⟩⟩⟩ := before
  · exact fun i hentered => absurd hentered Runs.not_since_nil
  · obtain ⟨rfl, rfl, -⟩ : e₁ = _ ∧ e₂ = e ∧ _ := by simpa using hsplit
    intro i hentered
    rcases hfirst i hentered with rfl | rfl
    · refine Or.inr ⟨Small.eth0, ?_, ?_⟩ <;> rw [h₂]
      · exact List.mem_singleton_self _
      · rfl
    · exact Or.inl hgone
  · obtain ⟨rfl, rfl, rfl, -⟩ : e₁ = _ ∧ e₂ = _ ∧ e₃ = e ∧ _ := by simpa using hsplit
    intro i hentered
    rw [hsecond i hentered]
    refine Or.inl ⟨Small.eth0, ?_, ?_, ?_⟩
    · rw [hprev₃]
      exact List.mem_singleton_self _
    · rw [h₃]
      decide
    · rw [h₃]
      rfl
  · simp at hsplit

def Small.without : Env :=
  { Small.quiet [Small.eth0] with
    ifNametoindex := fun name => if name = text "eth1" then 0 else Small.index name }

/-- The target of an interface that is gone stays. -/
theorem target_left : ∃ e₁ e₂ x,
    iterations Small.host Small.init
        [Small.quiet [Small.eth0, Small.eth1], Small.without] = some [e₁, e₂] ∧
      e₂.after.sender .inet6 = some x ∧ x.targets.map Target.ifindex = [2, 3] ∧
      e₂.input.nifs.map e₂.input.index = [2] := ⟨_, _, _, rfl, rfl, rfl, rfl⟩

end NeighborDiscovery
