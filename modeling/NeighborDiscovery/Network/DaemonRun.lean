/-
Runs of the daemon.

A run starts in a state the constructor leaves and makes one iteration after the
other, each in an environment of its own.  Every iteration of a run is the last
one of a shorter run, so a statement about the last iteration of every run is one
about all iterations.
-/
import NeighborDiscovery.Network.Iteration
import NeighborDiscovery.Network.WireFormat

namespace NeighborDiscovery

/-- An iteration of a run: the state before it, its environment, what others see
of it, and the state after it. -/
abbrev Iteration := Runs.Event NetworkNeighborDiscoverer Env Output

def Iterates (host : Host) (nnd : NetworkNeighborDiscoverer) (env : Env) (out : Output)
    (nnd' : NetworkNeighborDiscoverer) : Prop := runIteration host env nnd = .ok (nnd', out)

abbrev DaemonRun (host : Host) (init : NetworkNeighborDiscoverer) (h : List Iteration)
    (s : NetworkNeighborDiscoverer) : Prop := Runs.Run (Iterates host) init h s

/-- The iterations made in a list of environments, if all of them end. -/
def iterations (host : Host) (nnd : NetworkNeighborDiscoverer) : List Env → Option (List Iteration)
  | [] => some []
  | env :: envs =>
    match runIteration host env nnd with
    | .error _ => none
    | .ok (nnd', out) => (iterations host nnd' envs).map (⟨nnd, env, out, nnd'⟩ :: ·)

theorem iterations_cons {host : Host} {nnd : NetworkNeighborDiscoverer} {env : Env}
    {envs : List Env} {h : List Iteration} (hmade : iterations host nnd (env :: envs) = some h) :
    ∃ nnd' out rest, runIteration host env nnd = .ok (nnd', out) ∧
      iterations host nnd' envs = some rest ∧ h = ⟨nnd, env, out, nnd'⟩ :: rest := by
  unfold iterations at hmade
  split at hmade
  · cases hmade
  · rename_i nnd' out hstep
    obtain ⟨rest, hrest, rfl⟩ := Option.map_eq_some_iff.mp hmade
    exact ⟨nnd', out, rest, hstep, hrest, rfl⟩

theorem iterations_run {host : Host} {init nnd : NetworkNeighborDiscoverer} {envs : List Env}
    {h h' : List Iteration} (hrun : DaemonRun host init h nnd)
    (hmade : iterations host nnd envs = some h') : ∃ s, DaemonRun host init (h ++ h') s := by
  induction envs generalizing nnd h h' with
  | nil =>
    cases hmade
    rw [List.append_nil]
    exact ⟨nnd, hrun⟩
  | cons env envs ih =>
    obtain ⟨nnd', out, rest, hstep, hrest, rfl⟩ := iterations_cons hmade
    rw [List.append_cons]
    exact ih (hrun.snoc hstep) hrest

theorem forall_input (P : Env → Prop) {host : Host} {nnd : NetworkNeighborDiscoverer}
    {envs : List Env} {h : List Iteration} (hmade : iterations host nnd envs = some h)
    (hall : ∀ env ∈ envs, P env) : ∀ e ∈ h, P e.input := by
  induction envs generalizing nnd h with
  | nil =>
    cases hmade
    exact fun e he => absurd he List.not_mem_nil
  | cons env envs ih =>
    obtain ⟨henv, hrest⟩ := List.forall_mem_cons.mp hall
    obtain ⟨nnd', out, rest, -, hothers, rfl⟩ := iterations_cons hmade
    exact List.forall_mem_cons.mpr ⟨henv, ih hothers hrest⟩

/-! ## The state the constructor leaves -/

structure Initial (settings : DiscoverySettings) (localSettings : UnixDomainSettings)
    (nnd : NetworkNeighborDiscoverer) : Prop where
  settings : nnd.settings = settings
  localSettings : nnd.localSettings = localSettings
  neighbors : nnd.neighbors = .empty
  prevNifs : nnd.prevNifs = []
  targets : ∀ T s, nnd.sender T = some s → s.targets = []
  groups : ∀ T r, nnd.receiver T = some r → r.groups = []

theorem setupSocket_ok {S : Type} {funcReturn : FunctionReturn S} {failure : Bytes}
    {socket : Option S} {logger logger' : Logger}
    (h : setupSocket funcReturn failure logger = .ok (socket, logger')) :
    ∀ s, socket = some s → funcReturn.data = some s := by
  intro s hs
  subst hs
  unfold setupSocket at h
  by_cases hok : funcReturn.isOk = true
  · rw [if_pos hok] at h
    obtain ⟨s', _, hvalue, h⟩ := Logging.bind_eq_ok.mp h
    cases h
    exact value_eq_ok.mp (Logging.lift_eq_ok.mp hvalue).1
  · rw [if_neg hok] at h
    obtain ⟨_, _, _, h⟩ := Logging.bind_eq_ok.mp h
    cases h

theorem senderFactory_targets {T : Family} {fd : Option Nat} {s : IPMulticastSender T}
    (h : (IPMulticastSender.factory T fd).data = some s) : s.targets = [] := by
  cases fd with
  | none => cases h
  | some fd =>
    cases h
    rfl

theorem receiverFactory_groups {T : Family} {port : UInt16} {calls : ReceiverCalls}
    {r : IPMulticastReceiver T} (h : (IPMulticastReceiver.factory T port calls).data = some r) :
    r.groups = [] := by
  unfold IPMulticastReceiver.factory at h
  split at h
  · cases h
  · split at h
    · cases h
    · split at h
      · cases h
      · cases h
        rfl

theorem construct_ok {logger : Logger} {settings : DiscoverySettings}
    {localSettings : UnixDomainSettings} {calls : SetupCalls} {nnd : NetworkNeighborDiscoverer}
    (h : construct logger settings localSettings calls = .ok nnd) :
    Initial settings localSettings nnd := by
  unfold construct at h
  obtain ⟨⟨⟨ipv4sender, ipv4receiver⟩, logger₁⟩, h4, h⟩ := Fallible.bind_eq_ok.mp h
  obtain ⟨⟨⟨ipv6sender, ipv6receiver⟩, logger₂⟩, h6, h⟩ := Fallible.bind_eq_ok.mp h
  obtain ⟨⟨unixDomainServer, logger₃⟩, hunix, h⟩ := Fallible.bind_eq_ok.mp h
  cases h
  obtain ⟨s4, _, hs4, h4⟩ := Logging.bind_eq_ok.mp h4
  obtain ⟨r4, _, hr4, h4⟩ := Logging.bind_eq_ok.mp h4
  cases h4
  obtain ⟨s6, _, hs6, h6⟩ := Logging.bind_eq_ok.mp h6
  obtain ⟨r6, _, hr6, h6⟩ := Logging.bind_eq_ok.mp h6
  cases h6
  refine ⟨rfl, rfl, rfl, rfl, fun T s hs => ?_, fun T r hr => ?_⟩
  · cases T
    · exact senderFactory_targets (setupSocket_ok hs4 s hs)
    · exact senderFactory_targets (setupSocket_ok hs6 s hs)
  · cases T
    · exact receiverFactory_groups (setupSocket_ok hr4 r hr)
    · exact receiverFactory_groups (setupSocket_ok hr6 r hr)

/-! ## What no iteration changes -/

section Kept

variable {host : Host} {init s : NetworkNeighborDiscoverer} {h : List Iteration}

theorem DaemonRun.settings_eq (hrun : DaemonRun host init h s) : s.settings = init.settings :=
  hrun.invariant (fun _ s => s.settings = init.settings) rfl
    fun _ _ _ _ _ _ hstep ih => (runIteration_config host hstep).2.1.trans ih

theorem sender_before {env : Env} {nnd nnd' : NetworkNeighborDiscoverer} {out : Output}
    (hstep : runIteration host env nnd = .ok (nnd', out)) {T : Family} {group : InAddr T}
    (hgroup : host.group? T = some group) {s' : IPMulticastSender T}
    (hs' : nnd'.sender T = some s') :
    ∃ s, nnd.sender T = some s ∧ s'.targets =
      if env.nifs = [] then s.targets
      else ListSync.sync (targetOf env nnd.settings.port group) nnd.prevNifs env.nifs s.targets := by
  by_cases hnifs : env.nifs = []
  · have hsame := (runIteration_idle host hstep hnifs).1
    rw [hsame] at hs'
    exact ⟨s', hs', by rw [if_pos hnifs]⟩
  · have htargets := (runIteration_discovers host hstep hnifs).targets T group hgroup
    rw [hs', Option.map_some] at htargets
    obtain ⟨s, hs, heq⟩ := Option.map_eq_some_iff.mp htargets.symm
    exact ⟨s, hs, by rw [if_neg hnifs, heq]⟩

theorem sender_after {env : Env} {nnd nnd' : NetworkNeighborDiscoverer} {out : Output}
    (hstep : runIteration host env nnd = .ok (nnd', out)) (hnifs : env.nifs ≠ []) {T : Family}
    {group : InAddr T} (hgroup : host.group? T = some group) {s : IPMulticastSender T}
    (hs : nnd.sender T = some s) :
    ∃ s', nnd'.sender T = some s' ∧ s'.targets =
      ListSync.sync (targetOf env nnd.settings.port group) nnd.prevNifs env.nifs s.targets := by
  have htargets := (runIteration_discovers host hstep hnifs).targets T group hgroup
  rw [hs, Option.map_some] at htargets
  exact Option.map_eq_some_iff.mp htargets

end Kept

/-! ## A small host -/

namespace Small

def pton : InetPton
  | .inet, s =>
    if s = text "239.1.1.1" then .parsed #v[239, 1, 1, 1]
    else if s = text "10.0.0.1" then .parsed #v[10, 0, 0, 1]
    else if s = text "10.0.0.2" then .parsed #v[10, 0, 0, 2]
    else if s = text "10.0.7.2" then .parsed #v[10, 0, 7, 2]
    else if s = text "255.255.255.0" then .parsed #v[255, 255, 255, 0]
    else .malformed
  | .inet6, s =>
    if s = text "ff02::100" then .parsed #v[255, 2, 0, 0, 0, 0, 0, 0, 0, 0, 0, 0, 0, 0, 1, 0]
    else if s = text "fe80::1" then .parsed #v[254, 128, 0, 0, 0, 0, 0, 0, 0, 0, 0, 0, 0, 0, 0, 1]
    else if s = text "fe80::2" then .parsed #v[254, 128, 0, 0, 0, 0, 0, 0, 0, 0, 0, 0, 0, 0, 0, 2]
    else .malformed

def host : Host := ⟨.little, .libstdcxx, pton⟩

def group : (T : Family) → InAddr T
  | .inet => #v[239, 1, 1, 1]
  | .inet6 => #v[255, 2, 0, 0, 0, 0, 0, 0, 0, 0, 0, 0, 0, 0, 1, 0]

theorem group_eq : ∀ T, host.group? T = some (group T)
  | .inet => rfl
  | .inet6 => rfl

def settings : DiscoverySettings := ⟨5320, 30, 30, 256⟩

def localSettings : UnixDomainSettings :=
  ⟨text "request", text "/tmp/cppneigbhordiscovery.sock"⟩

def calls : SetupCalls where
  senderSocket
    | .inet => some 3
    | .inet6 => some 5
  receiver
    | .inet => ⟨some 4, true, true⟩
    | .inet6 => ⟨some 6, true, true⟩
  unixDomain := ⟨some 7, true, true⟩

def init : NetworkNeighborDiscoverer where
  ipv6sender := some ⟨5, [], none⟩
  ipv4sender := some ⟨3, [], none⟩
  ipv6receiver := some ⟨5320, 6, []⟩
  ipv4receiver := some ⟨5320, 4, []⟩
  settings := settings
  localSettings := localSettings
  logger := some []
  neighbors := .empty
  prevNifs := []
  unixDomainServer := some ⟨7, text "/tmp/cppneigbhordiscovery.sock", true⟩

theorem construct_init : construct (some []) settings localSettings calls = .ok init := rfl

theorem sender_init (T : Family) : ∃ x, init.sender T = some x := by
  cases T
  · exact ⟨_, rfl⟩
  · exact ⟨_, rfl⟩

/-- A name's index, while all interfaces exist. -/
def index (name : Bytes) : UInt32 :=
  if name = text "eth0" then 2 else if name = text "eth1" then 3 else 0

def noTraffic : Pass := ⟨none, none, none, 1⟩

def env (nifs : List NetInterface) (passes : List Pass) (removeNow : Int) : Env where
  interfaces := .ofCodeData .Ok nifs
  ifNametoindex := index
  refused _ _ _ := false
  sendCalls _ _ := ⟨true, true⟩
  receiveStart := 0
  passes := passes
  receivedOrder := .kept _
  updateNow _ := 0
  removeNow := removeNow
  dataOrder := .kept _
  writes := [.wrote 1024]

def client : Client := ⟨8, [.read (text "request")]⟩

def request : Pass := ⟨none, none, some client, 1⟩

/-- A pass that finds an announcement in the IPv6 receiver and is the last one the
sending period allows. -/
def hears (nifs : List NetInterface) (h : (announcement host nifs).length ≤ 65535) : Pass :=
  ⟨some ⟨announcement host nifs, text "fe80::2", h⟩, none, none, 30000000000⟩

def eth0 : NetInterface :=
  ⟨text "eth0", text "aa", [⟨text "10.0.0.1", text "255.255.255.0"⟩], [⟨text "fe80::1", 64⟩]⟩

def eth1 : NetInterface := ⟨text "eth1", text "bb", [], [⟨text "fe80::1", 64⟩]⟩

/-- An interface of another host, in the IPv4 subnet of `eth0`. -/
def remote : NetInterface :=
  ⟨text "eth0", text "cc", [⟨text "10.0.0.2", text "255.255.255.0"⟩], []⟩

def learns : Env := env [eth0] [hears [remote] (by decide)] 0

def asks : Env := env [eth0] [request] 0

def quiet (nifs : List NetInterface) : Env := env nifs [noTraffic] 0

theorem index_eq {env : Env} (henv : env.ifNametoindex = index) {nif : NetInterface}
    (hnif : nif ∈ [eth0, eth1]) : env.index nif = index nif.name := by
  show env.ifNametoindex (cStr nif.name) = index nif.name
  rw [henv]
  rcases List.mem_pair.mp hnif with rfl | rfl
  · rfl
  · rfl

theorem index_inj {a b : NetInterface} (ha : a ∈ [eth0, eth1]) (hb : b ∈ [eth0, eth1])
    (h : index a.name = index b.name) : a.name = b.name := by
  rcases List.mem_pair.mp ha with rfl | rfl <;> rcases List.mem_pair.mp hb with rfl | rfl
  · rfl
  · exact absurd h (by decide)
  · exact absurd h (by decide)
  · rfl

theorem run {envs : List Env} {h : List Iteration} (hmade : iterations host init envs = some h) :
    ∃ s, DaemonRun host init h s := iterations_run .nil hmade

end Small

end NeighborDiscovery
