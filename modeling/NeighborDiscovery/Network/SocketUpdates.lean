/-
What an iteration does to the senders and receivers.

Each of the four sockets is changed on its own, by one call for each interface
that departed and one for each that arrived.  The targets of a sender and the
memberships of a receiver follow the interface list in the sense of `ListSync`,
the key of an interface being its target or its membership.
-/
import NeighborDiscovery.Network.NetworkNeighborDiscoverer

namespace NeighborDiscovery

/-! ## Sockets by family -/

def MulticastSockets.sender (s : MulticastSockets) : (T : Family) → Option (IPMulticastSender T)
  | .inet => s.ipv4sender
  | .inet6 => s.ipv6sender

def MulticastSockets.receiver (s : MulticastSockets) :
    (T : Family) → Option (IPMulticastReceiver T)
  | .inet => s.ipv4receiver
  | .inet6 => s.ipv6receiver

/-- The index an iteration resolves an interface to. -/
def Env.index (env : Env) (nif : NetInterface) : UInt32 := env.ifNametoindex (cStr nif.name)

variable (host : Host) (env : Env) (port : UInt16)

/-- The multicast address of a family, as the calls of the daemon write it. -/
def Host.group? (T : Family) : Option (InAddr T) :=
  (host.pton T (cStr (customMulticast T))).written

def targetOf {T : Family} (group : InAddr T) (nif : NetInterface) : Target T :=
  ⟨⟨port, group⟩, env.index nif⟩

def membershipOf {T : Family} (group : InAddr T) (nif : NetInterface) : Membership T :=
  ⟨group, IPMulticastReceiver.requested T (env.index nif)⟩

/-! ## One interface -/

def removeTarget {T : Family} (s : IPMulticastSender T) (nif : NetInterface) :
    IPMulticastSender T :=
  (s.removeMulticastAddress host.pton (customMulticast T) port (env.index nif)).2

def addTarget {T : Family} (s : IPMulticastSender T) (nif : NetInterface) :
    IPMulticastSender T :=
  (s.addMulticastAddress host.pton (customMulticast T) port (env.index nif)).2

def leaveGroup {T : Family} (r : IPMulticastReceiver T) (nif : NetInterface) :
    IPMulticastReceiver T :=
  (r.disableMulticastGroup host.pton (env.refused T .disable nif.name) (customMulticast T)
    (env.index nif)).2

def joinGroup {T : Family} (r : IPMulticastReceiver T) (nif : NetInterface) :
    IPMulticastReceiver T :=
  (r.enableMulticastGroup host.pton (env.refused T .enable nif.name) (customMulticast T)
    (env.index nif)).2

theorem onSocket_ok {S : Type} {socket socket' : Option S} {call : S → FunctionReturnVoid × S}
    {failure : Bytes} {logger logger' : Logger}
    (h : onSocket socket call failure logger = .ok (socket', logger')) :
    socket' = socket.map fun s => (call s).2 := by
  unfold onSocket at h
  cases socket with
  | none =>
    cases h
    rfl
  | some s =>
    dsimp only at h
    by_cases hok : (call s).1.isOk = true
    · rw [if_pos hok] at h
      cases h
      rfl
    · rw [if_neg hok] at h
      obtain ⟨_, _, _, h⟩ := Logging.bind_eq_ok.mp h
      cases h
      rfl

theorem disableNif_ok {s s' : MulticastSockets} {nif : NetInterface} {logger logger' : Logger}
    (h : disableNif host env port s nif logger = .ok (s', logger')) (T : Family) :
    s'.sender T = (s.sender T).map (removeTarget host env port · nif) ∧
      s'.receiver T = (s.receiver T).map (leaveGroup host env · nif) := by
  unfold disableNif at h
  obtain ⟨ipv6receiver, _, h1, h⟩ := Logging.bind_eq_ok.mp h
  obtain ⟨ipv6sender, _, h2, h⟩ := Logging.bind_eq_ok.mp h
  obtain ⟨ipv4receiver, _, h3, h⟩ := Logging.bind_eq_ok.mp h
  obtain ⟨ipv4sender, _, h4, h⟩ := Logging.bind_eq_ok.mp h
  cases h
  cases T
  · exact ⟨onSocket_ok h4, onSocket_ok h3⟩
  · exact ⟨onSocket_ok h2, onSocket_ok h1⟩

theorem enableNif_ok {s s' : MulticastSockets} {nif : NetInterface} {logger logger' : Logger}
    (h : enableNif host env port s nif logger = .ok (s', logger')) (T : Family) :
    s'.sender T = (s.sender T).map (addTarget host env port · nif) ∧
      s'.receiver T = (s.receiver T).map (joinGroup host env · nif) := by
  unfold enableNif at h
  obtain ⟨ipv6receiver, _, h1, h⟩ := Logging.bind_eq_ok.mp h
  obtain ⟨ipv6sender, _, h2, h⟩ := Logging.bind_eq_ok.mp h
  obtain ⟨ipv4receiver, _, h3, h⟩ := Logging.bind_eq_ok.mp h
  obtain ⟨ipv4sender, _, h4, h⟩ := Logging.bind_eq_ok.mp h
  cases h
  cases T
  · exact ⟨onSocket_ok h4, onSocket_ok h3⟩
  · exact ⟨onSocket_ok h2, onSocket_ok h1⟩

/-! ## All interfaces -/

/-- A loop over interfaces that changes every socket on its own. -/
theorem foldlM_sockets {body : MulticastSockets → NetInterface → Logging MulticastSockets}
    {send : (T : Family) → IPMulticastSender T → NetInterface → IPMulticastSender T}
    {receive : (T : Family) → IPMulticastReceiver T → NetInterface → IPMulticastReceiver T}
    (hbody : ∀ s nif logger s' logger', body s nif logger = .ok (s', logger') →
      ∀ T, s'.sender T = (s.sender T).map (send T · nif) ∧
        s'.receiver T = (s.receiver T).map (receive T · nif))
    {nifs : List NetInterface} {s s' : MulticastSockets} {logger logger' : Logger}
    (h : (nifs.foldlM body s) logger = .ok (s', logger')) (T : Family) :
    s'.sender T = (s.sender T).map (nifs.foldl (send T)) ∧
      s'.receiver T = (s.receiver T).map (nifs.foldl (receive T)) := by
  induction nifs generalizing s logger with
  | nil =>
    cases h
    exact ⟨Option.map_id_apply.symm, Option.map_id_apply.symm⟩
  | cons nif rest ih =>
    rw [List.foldlM_cons, Logging.bind_eq_ok] at h
    obtain ⟨s₁, logger₁, h₁, h₂⟩ := h
    have hone := hbody s nif logger s₁ logger₁ h₁ T
    have hrest := ih h₂
    rw [hrest.1, hrest.2, hone.1, hone.2, Option.map_map, Option.map_map]
    exact ⟨rfl, rfl⟩

def updatedSender (prevNifs nifs : List NetInterface) {T : Family} (s : IPMulticastSender T) :
    IPMulticastSender T :=
  (nifsToEnable prevNifs nifs).foldl (addTarget host env port)
    ((nifsToDisable prevNifs nifs).foldl (removeTarget host env port) s)

def updatedReceiver (prevNifs nifs : List NetInterface) {T : Family}
    (r : IPMulticastReceiver T) : IPMulticastReceiver T :=
  (nifsToEnable prevNifs nifs).foldl (joinGroup host env)
    ((nifsToDisable prevNifs nifs).foldl (leaveGroup host env) r)

theorem updateSockets_ok {nnd : NetworkNeighborDiscoverer} {nifs : List NetInterface}
    {s' : MulticastSockets} {logger logger' : Logger}
    (h : updateSockets host env nnd nifs logger = .ok (s', logger')) (T : Family) :
    s'.sender T = (nnd.sender T).map (updatedSender host env nnd.settings.port nnd.prevNifs nifs) ∧
      s'.receiver T = (nnd.receiver T).map (updatedReceiver host env nnd.prevNifs nifs) := by
  unfold updateSockets at h
  by_cases hsame : nnd.prevNifs = nifs
  · rw [if_pos hsame] at h
    cases h
    have hdisable : nifsToDisable nnd.prevNifs nifs = [] := by
      rw [hsame]
      exact ListSync.departed_self nifs
    have henable : nifsToEnable nnd.prevNifs nifs = [] := by
      rw [hsame]
      exact ListSync.arrived_self nifs
    unfold updatedSender updatedReceiver
    rw [hdisable, henable]
    exact ⟨Option.map_id_apply.symm, Option.map_id_apply.symm⟩
  · rw [if_neg hsame] at h
    obtain ⟨-, _, -, h⟩ := Logging.bind_eq_ok.mp h
    obtain ⟨s, _, h1, h2⟩ := Logging.bind_eq_ok.mp h
    have hdisabled := foldlM_sockets (fun _ _ _ _ _ hone => disableNif_ok host env _ hone) h1 T
    have henabled := foldlM_sockets (fun _ _ _ _ _ hone => enableNif_ok host env _ hone) h2 T
    rw [henabled.1, henabled.2, hdisabled.1, hdisabled.2, Option.map_map, Option.map_map]
    exact ⟨rfl, rfl⟩

/-! ## Targets -/

variable {host}

theorem targets_foldl_remove {T : Family} {group : InAddr T} (hgroup : host.group? T = some group)
    (nifs : List NetInterface) (s : IPMulticastSender T) :
    (nifs.foldl (removeTarget host env port) s).targets =
      s.targets.filter fun t => t ∉ nifs.map (targetOf env port group) := by
  induction nifs generalizing s with
  | nil => exact (List.filter_eq_self.mpr fun _ _ => decide_eq_true List.not_mem_nil).symm
  | cons nif rest ih =>
    have hone : (removeTarget host env port s nif).targets =
        s.targets.filter (· ≠ targetOf env port group nif) :=
      IPMulticastSender.targets_remove host.pton s _ port _ hgroup
    rw [List.foldl_cons, ih, hone, List.filter_filter, List.map_cons]
    refine List.filter_congr fun t _ => ?_
    rw [← Bool.decide_and, decide_eq_decide, List.mem_cons, not_or, and_comm]

theorem targets_foldl_add {T : Family} {group : InAddr T} (hgroup : host.group? T = some group)
    (nifs : List NetInterface) (s : IPMulticastSender T) :
    (nifs.foldl (addTarget host env port) s).targets =
      s.targets ++ nifs.map (targetOf env port group) := by
  induction nifs generalizing s with
  | nil => exact (List.append_nil _).symm
  | cons nif rest ih =>
    have hone : (addTarget host env port s nif).targets =
        s.targets ++ [targetOf env port group nif] :=
      IPMulticastSender.targets_add host.pton s _ port _ hgroup
    rw [List.foldl_cons, ih, hone, List.map_cons, List.append_assoc, List.singleton_append]

theorem targets_updated {T : Family} {group : InAddr T} (hgroup : host.group? T = some group)
    (prevNifs nifs : List NetInterface) (s : IPMulticastSender T) :
    (updatedSender host env port prevNifs nifs s).targets =
      ListSync.sync (targetOf env port group) prevNifs nifs s.targets := by
  unfold updatedSender
  rw [targets_foldl_add env port hgroup, targets_foldl_remove env port hgroup]
  rfl

/-! ## Memberships -/

/-- Besides what its memberships require, the kernel refuses nothing. -/
def Env.Grants (env : Env) (T : Family) : Prop := ∀ call name, env.refused T call name = false

theorem groups_foldl_leave {T : Family} {group : InAddr T} (hgroup : host.group? T = some group)
    (hgrants : env.Grants T) (nifs : List NetInterface) (r : IPMulticastReceiver T)
    (m : Membership T) :
    m ∈ (nifs.foldl (leaveGroup host env) r).groups ↔
      m ∈ r.groups ∧ m ∉ nifs.map (membershipOf env group) := by
  induction nifs generalizing r with
  | nil => exact ⟨fun h => ⟨h, List.not_mem_nil⟩, fun h => h.1⟩
  | cons nif rest ih =>
    have hone : m ∈ (leaveGroup host env r nif).groups ↔
        m ∈ r.groups ∧ m ≠ membershipOf env group nif := by
      unfold leaveGroup
      rw [hgrants]
      exact IPMulticastReceiver.groups_disable host.pton r _ _ hgroup m
    rw [List.foldl_cons, ih, hone, List.map_cons, List.mem_cons, not_or, and_assoc]

theorem groups_foldl_join {T : Family} {group : InAddr T} (hgroup : host.group? T = some group)
    (hgrants : env.Grants T) (nifs : List NetInterface) (r : IPMulticastReceiver T)
    (m : Membership T) :
    m ∈ (nifs.foldl (joinGroup host env) r).groups ↔
      m ∈ r.groups ∨ m ∈ nifs.map (membershipOf env group) := by
  induction nifs generalizing r with
  | nil => exact ⟨fun h => Or.inl h, fun h => h.resolve_right List.not_mem_nil⟩
  | cons nif rest ih =>
    have hone : m ∈ (joinGroup host env r nif).groups ↔
        m ∈ r.groups ∨ m = membershipOf env group nif := by
      unfold joinGroup
      rw [hgrants]
      exact IPMulticastReceiver.groups_enable host.pton r _ _ hgroup m
    rw [List.foldl_cons, ih, hone, List.map_cons, List.mem_cons, or_assoc]

theorem groups_updated {T : Family} {group : InAddr T} (hgroup : host.group? T = some group)
    (hgrants : env.Grants T) (prevNifs nifs : List NetInterface) (r : IPMulticastReceiver T)
    (m : Membership T) :
    m ∈ (updatedReceiver host env prevNifs nifs r).groups ↔
      m ∈ ListSync.sync (membershipOf env group) prevNifs nifs r.groups := by
  unfold updatedReceiver
  rw [groups_foldl_join env hgroup hgrants, groups_foldl_leave env hgroup hgrants,
    ListSync.sync, List.mem_append, List.mem_filter, decide_eq_true_iff]
  rfl

/-! ## Sending -/

theorem targets_sendOn {T : Family} (canUse : Bool) (sender : Option (IPMulticastSender T))
    (sbuff : Bytes) (calls : Nat → SendCall) :
    (sendOn canUse sender sbuff calls).1.map IPMulticastSender.targets =
      sender.map IPMulticastSender.targets := by
  cases sender with
  | none => rfl
  | some s => cases canUse <;> rfl

/-- Where no call fails, the datagrams carry the buffer to every target if the
family is used, and there are none otherwise. -/
theorem sent_sendOn {T : Family} (canUse : Bool) (s : IPMulticastSender T) (sbuff : Bytes)
    {calls : Nat → SendCall} (hcalls : ∀ i, calls i = ⟨true, true⟩) :
    (sendOn canUse (some s) sbuff calls).2.map (fun d => (d.addr, d.data)) =
      if canUse then s.targets.map (fun t => (t.addr, sbuff)) else [] := by
  cases canUse with
  | false => rfl
  | true => exact IPMulticastSender.sendTargets_all s.sockFd sbuff hcalls s.targets 0 s.outgoing

end NeighborDiscovery
