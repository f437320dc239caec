/-
What one iteration does, said once.

`runIteration_idle` is an iteration without interfaces: it forgets the previous
list and changes nothing else.  `runIteration_discovers` is one with interfaces,
phase by phase.  Everything proved about runs goes through these two.
-/
import NeighborDiscovery.Library.Runs
import NeighborDiscovery.Network.NeighborTable
import NeighborDiscovery.Network.SocketUpdates

namespace NeighborDiscovery

variable (host : Host)

def Env.nifs (env : Env) : List NetInterface := env.interfaces.toOption.getD []

def Output.sent (out : Output) : (T : Family) → List (Sent T)
  | .inet => out.sentIPv4
  | .inet6 => out.sentIPv6

def Output.received (out : Output) : List Bytes := out.passes.flatMap PassTrace.received

def Output.decoded (out : Output) : List NetInterface := decodedAll host out.received

def canUse (T : Family) (nifs : List NetInterface) : Bool :=
  match T with
  | .inet => canUseIPv4 nifs
  | .inet6 => canUseIPv6 nifs

theorem readInterfaces_ok {env : Env} {nifs : List NetInterface} {logger logger' : Logger}
    (h : readInterfaces env logger = .ok (nifs, logger')) : nifs = env.nifs := by
  unfold readInterfaces at h
  unfold Env.nifs
  by_cases hok : env.interfaces.isOk = true
  · rw [if_pos hok] at h
    have hdata := value_eq_ok.mp (Logging.lift_eq_ok.mp h).1
    rw [FunctionReturn.toOption_eq_some.mpr ⟨hok, hdata⟩]
    rfl
  · rw [if_neg hok] at h
    obtain ⟨_, _, _, h⟩ := Logging.bind_eq_ok.mp h
    cases h
    rw [FunctionReturn.isOk_eq_false.mp (Bool.eq_false_iff.mpr hok)]
    rfl

/-- An iteration with interfaces, phase by phase. -/
structure Discovers (env : Env) (nnd nnd' : NetworkNeighborDiscoverer) (out : Output) : Prop where
  /-- The targets follow the interface list. -/
  targets : ∀ T (group : InAddr T), host.group? T = some group →
    (nnd'.sender T).map (·.targets) = (nnd.sender T).map fun s =>
      ListSync.sync (targetOf env nnd.settings.port group) nnd.prevNifs env.nifs s.targets
  receiver : ∀ T, nnd'.receiver T =
    (nnd.receiver T).map (updatedReceiver host env nnd.prevNifs env.nifs)
  /-- Where no call fails, every target of a used family is sent the announcement. -/
  sent : ∀ T s', nnd'.sender T = some s' → (∀ i, env.sendCalls T i = ⟨true, true⟩) →
    (out.sent T).map (fun d => (d.addr, d.data)) =
      if canUse T env.nifs then
        s'.targets.map fun t => (t.addr, announcement host env.nifs)
      else []
  /-- The passes made are the first the environment offers. -/
  passes : ∃ consumed rest, env.passes = consumed ++ rest ∧ consumed ≠ [] ∧
    out.passes.map PassTrace.received = consumed.map (passBuffers nnd env.nifs)
  table : ∀ mac, nnd'.neighbors.lookup mac =
    (((lastWithMac mac (out.decoded host)).bind (written host env env.nifs)).or
      (nnd.neighbors.lookup mac)).filter (isFresh nnd.settings env.removeNow)
  keyed : nnd.neighbors.KeyedBy NetInterface.mac → nnd'.neighbors.KeyedBy NetInterface.mac
  reply : ∀ answer, out.reply = some answer →
    answer.clientSBuff =
      serializeNetInterfaces host.order [] (nnd'.neighbors.data env.dataOrder)

theorem reply_ok {env : Env} {nnd : NetworkNeighborDiscoverer} {r : Reception}
    {answer : Option Reply} {logger logger' : Logger}
    (h : reply host env nnd r logger = .ok (answer, logger')) :
    ∀ a, answer = some a → a.clientSBuff =
      serializeNetInterfaces host.order [] (nnd.neighbors.data env.dataOrder) := by
  intro a ha
  subst ha
  unfold reply at h
  cases hclient : r.clientSocket with
  | none =>
    rw [hclient] at h
    cases h
  | some client =>
    rw [hclient] at h
    dsimp only at h
    by_cases hrequest :
        (r.receivedRequestFromCliClient && nnd.unixDomainServer.isSome) = true
    · rw [if_pos hrequest] at h
      obtain ⟨_, _, _, h⟩ := Logging.bind_eq_ok.mp h
      obtain ⟨_, _, _, h⟩ := Logging.bind_eq_ok.mp h
      cases h
      rfl
    · rw [if_neg hrequest] at h
      cases h

theorem isSome_sendOn {T : Family} (use : Bool) (sender : Option (IPMulticastSender T))
    (sbuff : Bytes) (calls : Nat → SendCall) :
    (sendOn use sender sbuff calls).1.isSome = sender.isSome := by
  cases sender with
  | none => rfl
  | some s => cases use <;> rfl

theorem sent_of_sendOn {T : Family} {use : Bool} {sender : Option (IPMulticastSender T)}
    {s' : IPMulticastSender T} {sbuff : Bytes} {calls : Nat → SendCall}
    (hs' : (sendOn use sender sbuff calls).1 = some s') (hcalls : ∀ i, calls i = ⟨true, true⟩) :
    (sendOn use sender sbuff calls).2.map (fun d => (d.addr, d.data)) =
      if use then s'.targets.map (fun t => (t.addr, sbuff)) else [] := by
  cases sender with
  | none => cases hs'
  | some s =>
    have htargets := targets_sendOn use (some s) sbuff calls
    rw [hs'] at htargets
    rw [sent_sendOn use s sbuff hcalls, Option.some.inj htargets]

theorem flatMap_received {traces : List PassTrace} {consumed : List Pass}
    {buffers : Pass → List Bytes} (h : traces.map PassTrace.received = consumed.map buffers) :
    traces.flatMap PassTrace.received = consumed.flatMap buffers := by
  rw [List.flatMap_def, List.flatMap_def, h]

/-- The table after an iteration is made from what its passes decoded. -/
theorem discover_updates {env : Env} {nnd nnd' : NetworkNeighborDiscoverer} {out : Output}
    {logger logger' : Logger}
    (h : discover host env nnd env.nifs logger = .ok ((nnd', out), logger')) :
    updateNeighbors host env nnd env.nifs (storeNifs ∅ (out.decoded host)) =
      .ok nnd'.neighbors := by
  unfold discover at h
  obtain ⟨s, _, -, h⟩ := Logging.bind_eq_ok.mp h
  dsimp only at h
  obtain ⟨r, _, hloop, h⟩ := Logging.bind_eq_ok.mp h
  obtain ⟨t, _, htable, h⟩ := Logging.bind_eq_ok.mp h
  obtain ⟨answer, _, -, h⟩ := Logging.bind_eq_ok.mp h
  cases h
  obtain ⟨consumed, -, -, -, hreceives⟩ := receiveLoop_ok host hloop
  obtain ⟨traces, htraces, hreceived⟩ := hreceives.passes
  have hstored := hreceives.stored
  have hr : r.passes = traces := htraces
  subst hr
  rw [← flatMap_received hreceived] at hstored
  have hneighbors := (Logging.lift_eq_ok.mp htable).1
  rw [hstored] at hneighbors
  exact hneighbors

theorem discover_ok {env : Env} {nnd nnd' : NetworkNeighborDiscoverer} {out : Output}
    {logger logger' : Logger}
    (h : discover host env nnd env.nifs logger = .ok ((nnd', out), logger')) :
    Discovers host env nnd nnd' out ∧ nnd'.settings = nnd.settings ∧
      nnd'.localSettings = nnd.localSettings ∧
      nnd'.unixDomainServer = nnd.unixDomainServer := by
  have hneighbors := discover_updates host h
  unfold discover at h
  obtain ⟨s, _, hupdate, h⟩ := Logging.bind_eq_ok.mp h
  dsimp only at h
  obtain ⟨r, _, hloop, h⟩ := Logging.bind_eq_ok.mp h
  obtain ⟨t, _, -, h⟩ := Logging.bind_eq_ok.mp h
  obtain ⟨answer, _, hreply, h⟩ := Logging.bind_eq_ok.mp h
  cases h
  have hsockets := updateSockets_ok host env hupdate
  obtain ⟨consumed, rest, hpasses, hne, hreceives⟩ := receiveLoop_ok host hloop
  -- What a pass reads depends on whether the senders exist, which sending does not change.
  have h6 : s.ipv6sender.isSome = nnd.ipv6sender.isSome :=
    (congrArg Option.isSome (hsockets .inet6).1).trans Option.isSome_map
  have h4 : s.ipv4sender.isSome = nnd.ipv4sender.isSome :=
    (congrArg Option.isSome (hsockets .inet).1).trans Option.isSome_map
  replace hreceives : Receives host nnd env.nifs consumed .start r :=
    hreceives.of_senders host rfl ((isSome_sendOn _ _ _ _).trans h6)
      ((isSome_sendOn _ _ _ _).trans h4)
  obtain ⟨traces, htraces, hreceived⟩ := hreceives.passes
  have hr : r.passes = traces := htraces
  subst hr
  refine ⟨⟨fun T group hgroup => ?_, fun T => ?_, fun T s' hs' hcalls => ?_,
    ⟨consumed, rest, hpasses, hne, hreceived⟩, fun mac => ?_, fun hkeyed => ?_,
    fun a ha => reply_ok host hreply a ha⟩, rfl, rfl, rfl⟩
  · have hsend : ∀ sender : Option (IPMulticastSender T), sender.map (·.targets) =
        (s.sender T).map (·.targets) → sender.map (·.targets) = (nnd.sender T).map fun s =>
          ListSync.sync (targetOf env nnd.settings.port group) nnd.prevNifs env.nifs s.targets := by
      intro sender hsender
      rw [hsender, (hsockets T).1, Option.map_map]
      exact congrArg (Option.map · (nnd.sender T))
        (funext fun s => targets_updated env nnd.settings.port hgroup nnd.prevNifs env.nifs s)
    cases T
    · exact hsend _ (targets_sendOn _ _ _ _)
    · exact hsend _ (targets_sendOn _ _ _ _)
  · cases T
    · exact (hsockets .inet).2
    · exact (hsockets .inet6).2
  · cases T
    · exact sent_of_sendOn hs' hcalls
    · exact sent_of_sendOn hs' hcalls
  · exact lookup_updateNeighbors host hneighbors mac
  · exact keyedBy_updateNeighbors host hneighbors hkeyed

theorem runIteration_eq_ok {env : Env} {nnd nnd' : NetworkNeighborDiscoverer} {out : Output}
    (h : runIteration host env nnd = .ok (nnd', out)) :
    ∃ nnd₁ logger logger', nnd' = { nnd₁ with prevNifs := env.nifs, logger := logger' } ∧
      (if env.nifs.length > 0 then discover host env nnd env.nifs else pure (nnd, .none)) logger =
        .ok ((nnd₁, out), logger') := by
  unfold runIteration iterate at h
  obtain ⟨⟨⟨nnd₂, out'⟩, logger'⟩, hiterate, h⟩ := Fallible.bind_eq_ok.mp h
  cases h
  obtain ⟨nifs, logger, hnifs, hrest⟩ := Logging.bind_eq_ok.mp hiterate
  rw [readInterfaces_ok hnifs] at hrest
  by_cases hlen : env.nifs.length > 0
  · rw [if_pos hlen] at hrest
    obtain ⟨⟨nnd₁, out₁⟩, logger₁, hbranch, hpure⟩ := Logging.bind_eq_ok.mp hrest
    cases hpure
    refine ⟨nnd₁, logger, logger', rfl, ?_⟩
    rw [if_pos hlen]
    exact hbranch
  · rw [if_neg hlen] at hrest
    cases hrest
    refine ⟨nnd, logger', logger', rfl, ?_⟩
    rw [if_neg hlen]
    rfl

/-- Settings and server never change, and the list of the iteration is kept for
the next. -/
theorem runIteration_config {env : Env} {nnd nnd' : NetworkNeighborDiscoverer} {out : Output}
    (h : runIteration host env nnd = .ok (nnd', out)) :
    nnd'.prevNifs = env.nifs ∧ nnd'.settings = nnd.settings ∧
      nnd'.localSettings = nnd.localSettings ∧
      nnd'.unixDomainServer = nnd.unixDomainServer := by
  obtain ⟨nnd₁, logger, logger', hnnd', hbranch⟩ := runIteration_eq_ok host h
  subst hnnd'
  refine ⟨rfl, ?_⟩
  split at hbranch
  · exact (discover_ok host hbranch).2
  · cases hbranch
    exact ⟨rfl, rfl, rfl⟩

theorem runIteration_idle {env : Env} {nnd nnd' : NetworkNeighborDiscoverer} {out : Output}
    (h : runIteration host env nnd = .ok (nnd', out)) (hnifs : env.nifs = []) :
    nnd'.toMulticastSockets = nnd.toMulticastSockets ∧ nnd'.neighbors = nnd.neighbors ∧
      out = .none := by
  obtain ⟨nnd₁, logger, logger', hnnd', hbranch⟩ := runIteration_eq_ok host h
  subst hnnd'
  rw [hnifs] at hbranch
  cases hbranch
  exact ⟨rfl, rfl, rfl⟩

theorem runIteration_discovers {env : Env} {nnd nnd' : NetworkNeighborDiscoverer} {out : Output}
    (h : runIteration host env nnd = .ok (nnd', out)) (hnifs : env.nifs ≠ []) :
    Discovers host env nnd nnd' out := by
  obtain ⟨nnd₁, logger, logger', hnnd', hbranch⟩ := runIteration_eq_ok host h
  subst hnnd'
  rw [if_pos (List.length_pos_of_ne_nil hnifs)] at hbranch
  have hdiscovers := (discover_ok host hbranch).1
  exact ⟨fun T => by cases T <;> exact hdiscovers.targets _,
    fun T => by cases T <;> exact hdiscovers.receiver _,
    fun T => by cases T <;> exact hdiscovers.sent _,
    hdiscovers.passes, hdiscovers.table, hdiscovers.keyed, hdiscovers.reply⟩

theorem runIteration_updates {env : Env} {nnd nnd' : NetworkNeighborDiscoverer} {out : Output}
    (h : runIteration host env nnd = .ok (nnd', out)) (hnifs : env.nifs ≠ []) :
    updateNeighbors host env nnd env.nifs (storeNifs ∅ (out.decoded host)) =
      .ok nnd'.neighbors := by
  obtain ⟨nnd₁, logger, logger', hnnd', hbranch⟩ := runIteration_eq_ok host h
  subst hnnd'
  rw [if_pos (List.length_pos_of_ne_nil hnifs)] at hbranch
  have hupdates := discover_updates host hbranch
  exact hupdates

end NeighborDiscovery
