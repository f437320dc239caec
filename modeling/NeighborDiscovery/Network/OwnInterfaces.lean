/-
A daemon that hears itself.

The senders leave the loopback of multicast as it is, so that a host is offered what it
sends.  `isSameSubnet` relates an address to itself exactly if its texts are read: of each
of its own interfaces a daemon lists the addresses that are, and all of them, and these are
the entries that the command line program marks as local.
-/
import NeighborDiscovery.Cli.CppCliNeighborRequestor
import NeighborDiscovery.Network.DaemonNetwork
import NeighborDiscovery.Network.SubnetRelation

namespace NeighborDiscovery

open IPAddressManager PartialKernel

/-! ## An interface among those it belongs to -/

section Own

variable (host : Host)

def readsIPv4 (ip : IPv4Info) : Bool :=
  (host.pton .inet (cStr ip.address)).addr?.isSome &&
    (host.pton .inet (cStr ip.netmask)).addr?.isSome

def readsIPv6 (ip : IPv6Info) : Bool := (host.pton .inet6 (cStr ip.address)).addr?.isSome

/-- The interface with those of its addresses that are read. -/
def readable (nif : NetInterface) : NetInterface :=
  { nif with
    ipv4s := nif.ipv4s.filter (readsIPv4 host)
    ipv6s := nif.ipv6s.filter (readsIPv6 host) }

variable {host} {nifs : List NetInterface} {nif : NetInterface}

theorem matchesIPv4_own (hnif : nif ∈ nifs) {ip : IPv4Info} (hip : ip ∈ nif.ipv4s) :
    matchesIPv4 host nifs ip = readsIPv4 host ip := by
  have hreads : readsIPv4 host ip = true ↔ (subnetIPv4 host.pton ip).isSome := by
    rw [← isSome_subnetIPv4, readsIPv4, Bool.and_eq_true]
  rw [Bool.eq_iff_iff, matchesIPv4_iff, hreads, Option.isSome_iff_exists]
  constructor
  · rintro ⟨loc, -, lIPv4, -, hsame⟩
    obtain ⟨subnet, -, hsubnet⟩ := (isSameSubnetIPv4_iff lIPv4 ip).mp hsame
    exact ⟨subnet, hsubnet⟩
  · rintro ⟨subnet, hsubnet⟩
    exact ⟨nif, hnif, ip, hip, (isSameSubnetIPv4_iff ip ip).mpr ⟨subnet, hsubnet, hsubnet⟩⟩

theorem matchesIPv6_own (hfit : ∀ n ∈ nifs, NetInterfaceManager.PrefixesFit n) (hnif : nif ∈ nifs)
    {ip : IPv6Info} (hip : ip ∈ nif.ipv6s) : matchesIPv6 host nifs ip = readsIPv6 host ip := by
  rw [Bool.eq_iff_iff, matchesIPv6_iff, readsIPv6, isSome_subnetIPv6, Option.isSome_iff_exists]
  constructor
  · rintro ⟨loc, hloc, lIPv6, hl, hsame⟩
    obtain ⟨subnet, -, hsubnet⟩ := (isSameSubnetIPv6_iff lIPv6 ip (hfit loc hloc lIPv6 hl)).mp hsame
    exact ⟨subnet, hsubnet⟩
  · rintro ⟨subnet, hsubnet⟩
    exact ⟨nif, hnif, ip, hip,
      (isSameSubnetIPv6_iff ip ip (hfit nif hnif ip hip)).mpr ⟨subnet, hsubnet, hsubnet⟩⟩

theorem restrict_own (hfit : ∀ n ∈ nifs, NetInterfaceManager.PrefixesFit n) (hnif : nif ∈ nifs) :
    restrict host nifs nif = readable host nif := by
  unfold restrict readable
  rw [List.filter_congr fun ip hip => matchesIPv4_own hnif hip,
    List.filter_congr fun ip hip => matchesIPv6_own hfit hnif hip]

/-- An own interface matches if one of its addresses is read. -/
theorem isMatch_own (hfit : ∀ n ∈ nifs, NetInterfaceManager.PrefixesFit n) (hnif : nif ∈ nifs) :
    isMatch host nifs nif = true ↔
      (readable host nif).ipv4s ≠ [] ∨ (readable host nif).ipv6s ≠ [] := by
  rw [← restrict_own hfit hnif, isMatch, ← isEmpty_filter, ← isEmpty_filter, Bool.or_eq_true,
    Bool.not_eq_true', Bool.not_eq_true', List.isEmpty_eq_false_iff, List.isEmpty_eq_false_iff]
  rfl

end Own

/-! ## An iteration that hears itself -/

/-- The iteration is offered its own announcement, which fits its buffer, and nothing else
that it reads has one of its own MAC addresses. -/
structure HearsItself (host : Host) (e : Iteration) : Prop where
  prefixes : ∀ n ∈ e.input.nifs, NetInterfaceManager.PrefixesFit n
  hasIPv6 : HasIPv6 e.input.nifs
  senders : ∀ T, ∃ x, e.before.sender T = some x
  representable : Representable host.lim e.input.nifs
  fits : (announcement host e.input.nifs).length ≤ e.before.settings.maxBufferSize.toNat
  offered : Offered e (announcement host e.input.nifs)
  macs : ∀ buff ∈ e.output.received, ∀ x ∈ decodedNifs host buff, ∀ n ∈ e.input.nifs,
    x.mac = n.mac → decodedNifs host buff = e.input.nifs
  fresh : ∀ n ∈ e.input.nifs, e.input.removeNow - e.input.updateNow n.mac ≤
    seconds e.before.settings.neighborActivityPeriodS.toNat

section Listed

variable {host : Host}

/-- What the table holds after it of the last own interface with a MAC address. -/
theorem HearsItself.lookup {e : Iteration} (h : HearsItself host e)
    (hstep : runIteration host e.input e.before = .ok (e.after, e.output)) {n : NetInterface}
    (hlastOwn : lastWithMac n.mac e.input.nifs = some n)
    (hreadable : (readable host n).ipv4s ≠ [] ∨ (readable host n).ipv6s ≠ []) :
    e.after.neighbors.lookup n.mac = some (readable host n, e.input.updateNow n.mac) := by
  have hn := (lastWithMac_some hlastOwn).1
  have hdecoded := h.offered.decoded hstep h.hasIPv6 h.senders h.representable h.fits hn
  have hlast : lastWithMac n.mac (e.output.decoded host) = some n := by
    cases hfound : lastWithMac n.mac (e.output.decoded host) with
    | none => exact absurd rfl (lastWithMac_none.mp hfound n hdecoded)
    | some x =>
      obtain ⟨buff, hbuff, hx⟩ := lastWithMac_flatMap hfound
      obtain ⟨hmem, hmac⟩ := lastWithMac_some hx
      rw [h.macs buff hbuff x hmem n hn hmac, hlastOwn] at hx
      rw [Option.some.inj hx]
  have htable := (runIteration_discovers host hstep (List.ne_nil_of_mem hn)).table n.mac
  rw [hlast, Option.bind_some, written, if_pos ((isMatch_own h.prefixes hn).mpr hreadable),
    Option.some_or, restrict_own h.prefixes hn] at htable
  rw [htable]
  exact Option.filter_eq_some_iff.mpr ⟨rfl, decide_eq_true (h.fresh n hn)⟩

/-! ## What is printed of it -/

/-- The lines of an own interface, without the number in front. -/
def localLines (nif : NetInterface) : Bytes :=
  text ") LOCAL " ++ nif.mac ++ text "\n" ++ text "\tSame subnet IPv4s: \n" ++
    nif.ipv4s.flatMap ipv4Line ++ text "\tSame subnet IPv6s: \n" ++ nif.ipv6s.flatMap ipv6Line

theorem neighborLines_local {localMacs : List Bytes} {nif : NetInterface} (h : nif.mac ∈ localMacs)
    (i : Nat) : neighborLines localMacs i nif = text (toString (i + 1)) ++ localLines nif := by
  have hmark : text ") LOCAL " = text ") " ++ text "LOCAL " := by decide
  unfold neighborLines localLines
  rw [if_pos h, hmark]
  simp only [List.append_assoc]

theorem localLines_infix {localMacs : List Bytes} {nif : NetInterface} (h : nif.mac ∈ localMacs)
    {l : List NetInterface} (hnif : nif ∈ l) : localLines nif <:+: listing localMacs l := by
  obtain ⟨i, hi, rfl⟩ := List.getElem_of_mem hnif
  have hline : neighborLines localMacs i l[i] ∈ l.mapIdx (neighborLines localMacs) :=
    List.mem_mapIdx.mpr ⟨i, hi, rfl⟩
  rw [neighborLines_local h] at hline
  obtain ⟨before, after, hsplit⟩ := List.append_of_mem hline
  refine ⟨text "Current neighbors: \n" ++ before.flatten ++ text (toString (i + 1)),
    after.flatten ++ text "\n", ?_⟩
  unfold listing
  rw [hsplit, List.flatten_append, List.flatten_cons]
  simp only [List.append_assoc]

theorem printNeighbors_local {calls : CliCalls} {nifs l : List NetInterface}
    (hlocal : calls.interfaces = .ok (.ofCodeData .Ok nifs)) :
    printNeighbors calls l = .ok (listing (nifs.map NetInterface.mac) l) := by
  unfold printNeighbors
  rw [hlocal]
  rfl

/-- A client that is answered while the daemon hears itself is sent, of each own MAC address,
the last interface once if it has a readable address, with exactly its readable addresses,
and shows it as local. -/
theorem own_interfaces_listed {logger : Logger} {settings : DiscoverySettings}
    {localSettings : UnixDomainSettings} {calls : SetupCalls} {init s : NetworkNeighborDiscoverer}
    {h : List Iteration} {e : Iteration}
    (hinit : construct logger settings localSettings calls = .ok init)
    (hrun : DaemonRun host init (h ++ [e]) s) (hself : HearsItself host e) {answer : Reply}
    (hreply : e.output.reply = some answer) :
    ∃ l, answer.clientSBuff = announcement host l ∧ (l.map NetInterface.mac).Nodup ∧
      ∀ n, lastWithMac n.mac e.input.nifs = some n →
        (readable host n).ipv4s ≠ [] ∨ (readable host n).ipv6s ≠ [] →
        (∀ x, x ∈ l ∧ x.mac = n.mac ↔ x = readable host n) ∧
        ∀ (cli : CliCalls) nifs, cli.interfaces = .ok (.ofCodeData .Ok nifs) →
          n.mac ∈ nifs.map NetInterface.mac →
            ∃ out, printNeighbors cli l = .ok out ∧ localLines (readable host n) <:+: out := by
  have hempty := (construct_ok hinit).neighbors
  obtain ⟨l, hbuff, hnodup, hmem⟩ := reply_data hempty hrun hreply
  obtain ⟨-, hstep, hafter⟩ := hrun.last
  refine ⟨l, hbuff, hnodup, fun n hn hreadable => ?_⟩
  have hlookup := hself.lookup hstep hn hreadable
  rw [← hafter, lookup_eq_contents hempty hrun] at hlookup
  have hlisted : readable host n ∈ l := (hmem _).mpr ⟨_, hlookup⟩
  refine ⟨fun x => ⟨fun hx => ?_, fun hx => ?_⟩, fun cli nifs hlocal hmac => ?_⟩
  · obtain ⟨t, hentry⟩ := (hmem x).mp hx.1
    rw [hx.2, hlookup] at hentry
    exact (congrArg Prod.fst (Option.some.inj hentry)).symm
  · subst hx
    exact ⟨hlisted, rfl⟩
  · have hmark : (readable host n).mac ∈ nifs.map NetInterface.mac := hmac
    exact ⟨_, printNeighbors_local hlocal, localLines_infix hmark hlisted⟩

end Listed

/-! ## A small host that hears itself -/

namespace Small

/-- An interface with an address that is not read. -/
def wired : NetInterface :=
  { eth0 with ipv4s := ⟨text "10.0.0.9", text "255.0"⟩ :: eth0.ipv4s }

set_option maxRecDepth 20000 in
theorem wired_fits :
    (announcement host [wired]).length ≤ init.settings.maxBufferSize.toNat := by decide

/-- The own announcement, and a client. -/
def echoPass : Pass :=
  { hears [wired] (Nat.le_trans wired_fits (by decide)) with client := some client }

def echo : Env := env [wired] [echoPass] 0

set_option maxRecDepth 20000 in
theorem echoes : ∃ e answer, iterations host init [echo] = some [e] ∧ e.before = init ∧
    e.input = echo ∧ (∃ buff, e.output.received = [buff] ∧ decodedNifs host buff = [wired]) ∧
    passesMade e = echo.passes ∧ e.output.reply = some answer :=
  ⟨_, _, rfl, rfl, rfl, ⟨_, rfl, rfl⟩, rfl, rfl⟩

theorem readable_wired : readable host wired = eth0 := by decide

end Small

theorem own_interfaces_listed_small : ∃ e answer l,
    iterations Small.host Small.init [Small.echo] = some [e] ∧ e.output.reply = some answer ∧
      answer.clientSBuff = announcement Small.host l ∧
      ∀ x, x ∈ l ∧ x.mac = Small.wired.mac ↔ x = Small.eth0 := by
  obtain ⟨e, answer, hmade, hbefore, hinput, ⟨buff, hreceived, hdecoded⟩, hpasses, hreply⟩ :=
    Small.echoes
  obtain ⟨s, hrun⟩ := Small.run hmade
  have hnifs : e.input.nifs = [Small.wired] := by
    rw [hinput]
    rfl
  have hself : HearsItself Small.host e := by
    refine ⟨?_, ?_, fun T => ?_, ?_, ?_, ?_, ?_, ?_⟩
    · rw [hnifs]
      simp [NetInterfaceManager.PrefixesFit, Small.wired, Small.eth0]
    · rw [hnifs]
      exact ⟨_, List.mem_singleton_self _, by decide⟩
    · rw [hbefore]
      exact Small.sender_init T
    · rw [hnifs]
      decide
    · rw [hnifs, hbefore]
      exact Small.wired_fits
    · rw [hnifs]
      refine ⟨Small.echoPass, ?_, .inet6, _, rfl, rfl⟩
      rw [hpasses]
      exact List.mem_singleton_self _
    · rw [hnifs, hreceived]
      intro buff hbuff _ _ _ _ _
      rw [List.mem_singleton.mp hbuff]
      exact hdecoded
    · rw [hinput, hbefore]
      exact fun n _ => show (0 : Int) - 0 ≤ seconds 30 by decide
  obtain ⟨l, hbuff, -, hown⟩ :=
    own_interfaces_listed Small.construct_init (show DaemonRun _ _ ([] ++ [e]) s from hrun) hself
      hreply
  have hwired := hown Small.wired (by rw [hnifs]; decide)
  rw [Small.readable_wired] at hwired
  exact ⟨e, answer, l, hmade, hreply, hbuff, (hwired (Or.inl (by decide))).1⟩

end NeighborDiscovery
