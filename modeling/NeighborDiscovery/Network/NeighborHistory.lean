/-
The neighbour table as a function of what was announced.

The table refines a store with expiry: an iteration writes the interfaces it
decoded last and that match, and keeps what is young enough at the time of its
removal.  What the command line program is sent follows from the rules of that
store.
-/
import NeighborDiscovery.Library.Expiry
import NeighborDiscovery.Network.DaemonRun

namespace NeighborDiscovery

variable (host : Host)

/-- In the iteration `j`, the last interface decoded with the address `mac` is
`nif`, and some address of it is in the subnet of a local one. -/
def Announces (j : Iteration) (mac : Bytes) (nif : NetInterface) : Prop :=
  lastWithMac mac (j.output.decoded host) = some nif ∧ isMatch host j.input.nifs nif = true

/-- `j` is the latest of the iterations `h` with a matching announcement for `mac`,
and what it announced is `nif`. -/
def LatestAnnouncement (h : List Iteration) (mac : Bytes) (j : Iteration) (nif : NetInterface) :
    Prop :=
  ∃ h₁ h₂, h = h₁ ++ j :: h₂ ∧ Announces host j mac nif ∧
    ∀ k ∈ h₂, ∀ nif', ¬ Announces host k mac nif'

/-- The clock readings of the removals never decrease, which is all that is asked
of the steady clock.  An iteration without interfaces reads none. -/
def RemovalsInOrder (h : List Iteration) : Prop :=
  h.Pairwise fun j k => j.input.nifs ≠ [] → k.input.nifs ≠ [] →
    j.input.removeNow ≤ k.input.removeNow

/-! ## The table as a store with expiry -/

def writes (j : Iteration) (mac : Bytes) : Option (NetInterface × Int) :=
  (lastWithMac mac (j.output.decoded host)).bind (written host j.input j.input.nifs)

def keeps (settings : DiscoverySettings) (j : Iteration) (_ : Bytes) (e : NetInterface × Int) :
    Bool :=
  j.input.nifs = [] || isFresh settings j.input.removeNow e

variable {host}

theorem writes_eq_some {j : Iteration} {mac : Bytes} {e : NetInterface × Int} :
    writes host j mac = some e ↔ ∃ nif, Announces host j mac nif ∧
      e = (restrict host j.input.nifs nif, j.input.updateNow mac) := by
  unfold writes written
  rw [Option.bind_eq_some_iff]
  constructor
  · intro h
    obtain ⟨nif, hlast, hnif⟩ := h
    split at hnif
    · rename_i hmatch
      cases hnif
      have hmac : nif.mac = mac := (lastWithMac_some hlast).2
      rw [hmac]
      exact ⟨nif, ⟨hlast, hmatch⟩, rfl⟩
    · cases hnif
  · intro h
    obtain ⟨nif, ⟨hlast, hmatch⟩, rfl⟩ := h
    have hmac : nif.mac = mac := (lastWithMac_some hlast).2
    refine ⟨nif, hlast, ?_⟩
    rw [if_pos hmatch, hmac]

theorem writes_eq_none {j : Iteration} {mac : Bytes} :
    writes host j mac = none ↔ ∀ nif, ¬ Announces host j mac nif := by
  rw [Option.eq_none_iff_forall_ne_some]
  refine ⟨fun h nif hnif => h _ (writes_eq_some.mpr ⟨nif, hnif, rfl⟩), fun h e he => ?_⟩
  obtain ⟨nif, hnif, -⟩ := writes_eq_some.mp he
  exact h nif hnif

theorem lastWrite_iff {h : List Iteration} {mac : Bytes} {j : Iteration}
    {e : NetInterface × Int} :
    Expiry.LastWrite (writes host) h mac j e ↔ ∃ nif, LatestAnnouncement host h mac j nif ∧
      e = (restrict host j.input.nifs nif, j.input.updateNow mac) := by
  constructor
  · intro hlast
    obtain ⟨h₁, h₂, hsplit, hwrite, hlater⟩ := hlast
    obtain ⟨nif, hnif, he⟩ := writes_eq_some.mp hwrite
    exact ⟨nif, ⟨h₁, h₂, hsplit, hnif, fun k hk => writes_eq_none.mp (hlater k hk)⟩, he⟩
  · intro hex
    obtain ⟨nif, ⟨h₁, h₂, hsplit, hnif, hlater⟩, he⟩ := hex
    exact ⟨h₁, h₂, hsplit, writes_eq_some.mpr ⟨nif, hnif, he⟩,
      fun k hk => writes_eq_none.mpr (hlater k hk)⟩

theorem lookup_step {nnd nnd' : NetworkNeighborDiscoverer} {env : Env} {out : Output}
    (hstep : runIteration host env nnd = .ok (nnd', out)) (mac : Bytes) :
    nnd'.neighbors.lookup mac =
      ((writes host ⟨nnd, env, out, nnd'⟩ mac).or (nnd.neighbors.lookup mac)).filter
        (keeps nnd.settings ⟨nnd, env, out, nnd'⟩ mac) := by
  by_cases hnifs : env.nifs = []
  · obtain ⟨-, hneighbors, hout⟩ := runIteration_idle host hstep hnifs
    have hwrites : writes host ⟨nnd, env, out, nnd'⟩ mac = none := by
      refine writes_eq_none.mpr fun nif hnif => ?_
      have hmatch := hnif.2
      rw [show (⟨nnd, env, out, nnd'⟩ : Iteration).input.nifs = [] from hnifs,
        isMatch_nil] at hmatch
      cases hmatch
    have hkeeps : keeps nnd.settings ⟨nnd, env, out, nnd'⟩ mac = fun _ => true := by
      funext e
      show (decide (env.nifs = []) || _) = true
      rw [decide_eq_true hnifs, Bool.true_or]
    rw [hwrites, hkeeps, Option.none_or, hneighbors]
    cases nnd.neighbors.lookup mac <;> rfl
  · have hkeeps : keeps nnd.settings ⟨nnd, env, out, nnd'⟩ mac =
        isFresh nnd.settings env.removeNow := by
      funext e
      show (decide (env.nifs = []) || _) = _
      rw [decide_eq_false hnifs, Bool.false_or]
    rw [hkeeps]
    exact (runIteration_discovers host hstep hnifs).table mac

variable {init s : NetworkNeighborDiscoverer} {h : List Iteration}

/-- The table of a run is the contents of the store after its iterations. -/
theorem lookup_eq_contents (hinit : init.neighbors = .empty) (hrun : DaemonRun host init h s)
    (mac : Bytes) :
    s.neighbors.lookup mac = Expiry.contents (writes host) (keeps init.settings) h mac := by
  induction hrun with
  | nil =>
    rw [hinit]
    rfl
  | snoc hrun hstep ih =>
    rw [Expiry.contents_snoc, ← ih, lookup_step hstep, DaemonRun.settings_eq hrun]

theorem keyedBy_neighbors (hinit : init.neighbors = .empty) (hrun : DaemonRun host init h s) :
    s.neighbors.KeyedBy NetInterface.mac := by
  refine hrun.invariant (fun _ s => s.neighbors.KeyedBy NetInterface.mac) ?_
    fun h s i o s' _ hstep ih => ?_
  · rw [hinit]
    exact IndexedTimedSet.keyedBy_empty _
  · by_cases hnifs : i.nifs = []
    · rw [(runIteration_idle host hstep hnifs).2.1]
      exact ih
    · exact (runIteration_discovers host hstep hnifs).keyed ih

theorem nifs_ne_nil_of_reply {nnd nnd' : NetworkNeighborDiscoverer} {env : Env} {out : Output}
    (hstep : runIteration host env nnd = .ok (nnd', out)) {answer : Reply}
    (hreply : out.reply = some answer) : env.nifs ≠ [] := by
  intro hnifs
  rw [(runIteration_idle host hstep hnifs).2.2] at hreply
  cases hreply

theorem reply_data (hinit : init.neighbors = .empty) {e : Iteration}
    (hrun : DaemonRun host init (h ++ [e]) s) {answer : Reply}
    (hreply : e.output.reply = some answer) :
    ∃ l, answer.clientSBuff = serializeNetInterfaces host.order [] l ∧
      (l.map NetInterface.mac).Nodup ∧
      ∀ x, x ∈ l ↔ ∃ t,
        Expiry.contents (writes host) (keeps init.settings) (h ++ [e]) x.mac = some (x, t) := by
  obtain ⟨-, hstep, hafter⟩ := hrun.last
  have hkeyed := keyedBy_neighbors hinit hrun
  refine ⟨s.neighbors.data e.input.dataOrder, ?_, IndexedTimedSet.nodup_data hkeyed,
    fun x => ?_⟩
  · rw [hafter]
    exact (runIteration_discovers host hstep (nifs_ne_nil_of_reply hstep hreply)).reply answer hreply
  · rw [IndexedTimedSet.mem_data_key hkeyed]
    simp only [lookup_eq_contents hinit hrun]

/-! ## One datagram -/

theorem announced_kept {nnd nnd' : NetworkNeighborDiscoverer} {env : Env} {out : Output}
    (hstep : runIteration host env nnd = .ok (nnd', out)) {rbuff : Bytes}
    (hreceived : out.received = [rbuff]) {desReturn : FunctionReturn (List NetInterface)}
    (hdecode : decode host rbuff = .ok desReturn) {rs : List NetInterface}
    (hok : desReturn.toOption = some rs) {r : NetInterface}
    (hlast : lastWithMac r.mac rs = some r) (hmatch : isMatch host env.nifs r = true)
    (hage : env.removeNow - env.updateNow r.mac ≤
      seconds nnd.settings.neighborActivityPeriodS.toNat) :
    nnd'.neighbors.lookup r.mac = some (restrict host env.nifs r, env.updateNow r.mac) := by
  have hnifs : env.nifs ≠ [] := by
    intro hnil
    rw [hnil, isMatch_nil] at hmatch
    cases hmatch
  have hdecoded : out.decoded host = rs := by
    show decodedAll host out.received = rs
    rw [hreceived, decodedAll, List.flatMap_singleton, decodedNifs, hdecode]
    show desReturn.toOption.getD [] = rs
    rw [hok]
    rfl
  have htable := (runIteration_discovers host hstep hnifs).table r.mac
  have hfresh : isFresh nnd.settings env.removeNow
      (restrict host env.nifs r, env.updateNow r.mac) = true := decide_eq_true hage
  rw [hdecoded, hlast, Option.bind_some, written, if_pos hmatch, Option.some_or,
    Option.filter_some, if_pos hfresh] at htable
  exact htable

def Small.vlan : NetInterface := { Small.remote with name := text "eth0.7" }

/-- `vlan` with a second address, which is in no subnet of `eth0`. -/
def Small.vlanOf7 : NetInterface :=
  { Small.vlan with ipv4s := Small.vlan.ipv4s ++ [⟨text "10.0.7.2", text "255.255.255.0"⟩] }

set_option maxRecDepth 20000 in
/-- An interface and a VLAN over it are announced under one MAC address: the last of
them is kept, without the address that does not match. -/
theorem announced_kept_remote : ∃ nnd' out,
    runIteration Small.host
        (Small.env [Small.eth0] [Small.hears [Small.remote, Small.vlanOf7] (by decide)] 0)
        Small.init = .ok (nnd', out) ∧
      Small.vlanOf7.ipv4s ≠ Small.vlan.ipv4s ∧
      nnd'.neighbors.lookup (text "cc") = some (Small.vlan, 0) := by
  have hmade : ∃ nnd' out rbuff desReturn,
      runIteration Small.host
          (Small.env [Small.eth0] [Small.hears [Small.remote, Small.vlanOf7] (by decide)] 0)
          Small.init = .ok (nnd', out) ∧
        out.received = [rbuff] ∧ decode Small.host rbuff = .ok desReturn ∧
        desReturn.toOption = some [Small.remote, Small.vlanOf7] := ⟨_, _, _, _, rfl, rfl, rfl, rfl⟩
  obtain ⟨nnd', out, rbuff, desReturn, hstep, hreceived, hdecode, hok⟩ := hmade
  have hlast : lastWithMac Small.vlanOf7.mac [Small.remote, Small.vlanOf7] =
      some Small.vlanOf7 := rfl
  have hmatch : isMatch Small.host [Small.eth0] Small.vlanOf7 = true := rfl
  exact ⟨nnd', out, hstep, by decide,
    announced_kept hstep hreceived hdecode hok hlast hmatch (by decide)⟩

set_option maxRecDepth 10000 in
/-- Of two matching interfaces with one MAC address only the last is kept, and none is
if the removal is late. -/
theorem same_mac_replaced :
    (∃ nnd' out rbuff desReturn,
      runIteration Small.host
        (Small.env [Small.eth0] [Small.hears [Small.remote, Small.vlan] (by decide)] 0)
        Small.init = .ok (nnd', out) ∧
      out.received = [rbuff] ∧ decode Small.host rbuff = .ok desReturn ∧
      desReturn.toOption = some [Small.remote, Small.vlan] ∧
      isMatch Small.host [Small.eth0] Small.remote = true ∧
      nnd'.neighbors.data (.kept _) = [Small.vlan]) ∧
    ∃ nnd' out rbuff desReturn,
      runIteration Small.host
        (Small.env [Small.eth0] [Small.hears [Small.remote] (by decide)] 30000000001)
        Small.init = .ok (nnd', out) ∧
      out.received = [rbuff] ∧ decode Small.host rbuff = .ok desReturn ∧
      desReturn.toOption = some [Small.remote] ∧
      isMatch Small.host [Small.eth0] Small.remote = true ∧
      nnd'.neighbors.data (.kept _) = [] :=
  ⟨⟨_, _, _, _, rfl, rfl, rfl, rfl, rfl, rfl⟩, ⟨_, _, _, _, rfl, rfl, rfl, rfl, rfl, rfl⟩⟩

end NeighborDiscovery
