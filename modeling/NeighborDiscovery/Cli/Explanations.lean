/-
Failures and their messages.

A caller that reports a failure evaluates the message of its result.  Every failure
has one, except two: that of the query for the interfaces, whose result is built with
an empty list instead, and that of a read from a client, whose text is taken for data.
-/
import NeighborDiscovery.Cli.ReplyStream
import NeighborDiscovery.Network.HandleSafety

namespace NeighborDiscovery

open NetInterfaceManager

section Explanations

variable {host : Host} {ntop : InetNtop} {order : Traversal NetInterface}
  {ifaddr : Option (List IfAddrs)}

theorem requestNeighbors_explained (calls : CliCalls) :
    (requestNeighbors host calls).run ≠ .error .badOptionalAccess := by
  intro h
  have hfaults : (requestNeighbors host calls).FaultsIn (· ≠ .badOptionalAccess) :=
    requestNeighbors_faultsIn (by decide) fun _ _ _ e he => (decode_fault he).not_optional
  exact hfaults _ h rfl

/-- The program reports a failed query by a message that is not there. -/
theorem printNeighbors_unread_iff {calls : CliCalls}
    (hquery : calls.interfaces = getInterfaces ntop order ifaddr) (neighbors : List NetInterface) :
    printNeighbors calls neighbors = .error .badOptionalAccess ↔ ifaddr = none := by
  unfold printNeighbors
  rw [hquery]
  cases hresult : getInterfaces ntop order ifaddr with
  | error e =>
    have he : e = .outOfRange := getInterfaces_fault ntop hresult
    subst he
    constructor
    · intro h
      cases h
    · intro h
      rw [h] at hresult
      cases hresult
  | ok r =>
    rcases getInterfaces_ok ntop hresult with ⟨hnone, rfl⟩ | ⟨nifs, hsome, rfl, -⟩
    · exact ⟨fun _ => hnone, fun _ => rfl⟩
    · constructor
      · intro h
        cases h
      · intro h
        rw [h] at hsome
        cases hsome

theorem main_unread_iff {calls : CliCalls}
    (hquery : calls.interfaces = getInterfaces ntop order ifaddr) :
    main host calls = .error .badOptionalAccess ↔
      ifaddr = none ∧ ∃ neighbors, Obtains host calls neighbors := by
  simp only [← requestNeighbors_ok_iff]
  unfold main
  rw [Fallible.bind_eq_error, or_iff_right (requestNeighbors_explained calls)]
  constructor
  · intro h
    obtain ⟨result, hrequest, h⟩ := h
    cases result with
    | error line => cases h
    | ok neighbors =>
      rcases Fallible.bind_eq_error.mp h with hprint | ⟨out, -, h⟩
      · exact ⟨(printNeighbors_unread_iff hquery neighbors).mp hprint, neighbors, hrequest⟩
      · cases h
  · intro h
    obtain ⟨hnone, neighbors, hrequest⟩ := h
    refine ⟨.ok neighbors, hrequest, ?_⟩
    exact Fallible.bind_eq_error.mpr (Or.inl ((printNeighbors_unread_iff hquery neighbors).mpr hnone))

/-- Which failures the three callers can report: the constructor all of its own; an
iteration those without a logger, and otherwise all but a failed query and a failed read
that it gets to; the program all but a failed query after a reply that decodes. -/
theorem failures_explained_iff {order' : Traversal NetInterface} {ifaddr' : Option (List IfAddrs)}
    {env : Env} {calls : CliCalls} (logger : Logger) (settings : DiscoverySettings)
    (localSettings : UnixDomainSettings) (setup : SetupCalls) (nnd : NetworkNeighborDiscoverer)
    (hdaemon : getInterfaces ntop order ifaddr = .ok env.interfaces)
    (hprogram : calls.interfaces = getInterfaces ntop order' ifaddr') :
    construct logger settings localSettings setup ≠ .error .badOptionalAccess ∧
    (runIteration host env nnd ≠ .error .badOptionalAccess ↔ nnd.logger = none ∨
      (ifaddr.isSome = true ∧ (env.nifs ≠ [] → ∀ before pass,
        Reaches host env nnd.listening true before pass →
          ¬ nnd.listening.Unexplained env.nifs host pass
            (nnd.listening.receivedAll env.nifs 0 before) true))) ∧
    (main host calls ≠ .error .badOptionalAccess ↔ ifaddr'.isSome = true ∨
      ∀ neighbors, ¬ Obtains host calls neighbors) := by
  refine ⟨?_, ?_, ?_⟩
  · obtain ⟨nnd, hmade, -⟩ := construct_returns logger settings localSettings setup
    rw [hmade]
    intro h
    cases h
  · have hquery : (env.interfaces.isOk = false ∧ env.interfaces.msg = none) ↔
        ¬ ifaddr.isSome = true := by
      rcases getInterfaces_ok ntop hdaemon with ⟨rfl, hfailed⟩ | ⟨nifs, hsome, hgot, -⟩
      · rw [hfailed]
        exact ⟨fun _ h => (by cases h), fun _ => ⟨rfl, rfl⟩⟩
      · rw [hgot, hsome]
        exact ⟨fun h => (by cases h.1), fun h => absurd rfl h⟩
    have hlogger : nnd.logger = none ↔ ¬ nnd.logger.isSome = true := by
      cases nnd.logger <;> simp
    rw [ne_eq, runIteration_unread_iff]
    constructor
    · intro hnot
      by_cases hsome : nnd.logger.isSome = true
      · refine Or.inr ⟨?_, fun hnifs before pass hreaches hread =>
          hnot ⟨hsome, Or.inr ⟨hnifs, before, pass, hreaches, hread⟩⟩⟩
        by_contra hnone
        exact hnot ⟨hsome, Or.inl (hquery.mpr hnone)⟩
      · exact Or.inl (hlogger.mpr hsome)
    · intro hcondition hfault
      obtain ⟨hsome, hfailed | ⟨hnifs, before, pass, hreaches, hread⟩⟩ := hfault
      · rcases hcondition with hnone | ⟨hgot, -⟩
        · exact hlogger.mp hnone hsome
        · exact hquery.mp hfailed hgot
      · rcases hcondition with hnone | ⟨-, hall⟩
        · exact hlogger.mp hnone hsome
        · exact hall hnifs before pass hreaches hread
  · rw [ne_eq, main_unread_iff hprogram, not_and_or, not_exists]
    refine or_congr_left ?_
    cases ifaddr' <;> simp

end Explanations

namespace Small

def ntop : InetNtop
  | .inet, addr =>
    if addr.toList = [10, 0, 0, 1] then some (text "10.0.0.1") else some (text "255.255.255.0")
  | .inet6, _ => some (text "fe80::1")

/-- An address of the kernel, as many bytes as are listed. -/
def octets (bytes : Bytes) : Vector UInt8 bytes.length := ⟨bytes.toArray, bytes.size_toArray⟩

/-- The entries `getifaddrs` makes for `eth0`. -/
def ifaddrs : List IfAddrs :=
  [⟨text "eth0", some (.packet 1 (octets [170, 0, 0, 0, 0, 0, 0, 0])), false, true⟩,
    ⟨text "eth0", some (.inet (octets [10, 0, 0, 1]) (some (octets [255, 255, 255, 0]))),
      false, true⟩,
    ⟨text "eth0", some (.inet6 (octets [254, 128, 0, 0, 0, 0, 0, 0, 0, 0, 0, 0, 0, 0, 0, 1])
      (some (octets [255, 255, 255, 255, 255, 255, 255, 255, 0, 0, 0, 0, 0, 0, 0, 0]))),
      false, true⟩]

def cliQuerying (ifaddr : Option (List IfAddrs)) : CliCalls :=
  { cliCalls [reply] with interfaces := getInterfaces ntop (.kept _) ifaddr }

/-- A client whose read fails. -/
def brokenClient : Env := env [eth0] [⟨none, none, some ⟨8, [.failed]⟩, 1⟩] 0

end Small

set_option maxRecDepth 10000 in
theorem failures_explained_iff_small :
    construct none Small.settings Small.localSettings Small.unbound ≠
      .error .badOptionalAccess ∧
    (runIteration Small.host Small.asks Small.init ≠ .error .badOptionalAccess ↔
      Small.init.logger = none ∨ ((some Small.ifaddrs).isSome = true ∧ (Small.asks.nifs ≠ [] →
        ∀ before pass, Reaches Small.host Small.asks Small.init.listening true before pass →
          ¬ Small.init.listening.Unexplained Small.asks.nifs Small.host pass
            (Small.init.listening.receivedAll Small.asks.nifs 0 before) true))) ∧
    (main Small.host (Small.cliQuerying (some Small.ifaddrs)) ≠ .error .badOptionalAccess ↔
      (some Small.ifaddrs).isSome = true ∨ ∀ neighbors,
        ¬ Obtains Small.host (Small.cliQuerying (some Small.ifaddrs)) neighbors) := by
  have hquery : getInterfaces Small.ntop (.kept _) (some Small.ifaddrs) =
      .ok Small.asks.interfaces := rfl
  exact failures_explained_iff none Small.settings Small.localSettings Small.unbound Small.init
    hquery rfl

set_option maxRecDepth 10000 in
/-- The failed query brings down the daemon and the program, a failed read the daemon. -/
theorem failures_unexplained :
    runIteration Small.host { Small.asks with interfaces := .ofCodeData .Error [] } Small.init =
        .error .badOptionalAccess ∧
      getInterfaces Small.ntop (.kept _) none = .ok (.ofCodeData .Error []) ∧
      runIteration Small.host Small.brokenClient Small.init = .error .badOptionalAccess ∧
      main Small.host (Small.cliQuerying none) = .error .badOptionalAccess :=
  ⟨rfl, rfl, rfl, rfl⟩

end NeighborDiscovery
