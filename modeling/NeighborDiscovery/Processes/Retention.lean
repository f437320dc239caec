/-
How long the daemon program lists a neighbour.

The turns of the program are at least the iteration period apart, and an iteration
that hears something lasts for the sending period.  Together with the activity period
they say for how many turns an interface that is no longer announced stays in the
table.
-/
import NeighborDiscovery.Network.ListeningTime
import NeighborDiscovery.Network.NetworkProgress
import NeighborDiscovery.Processes.CppNeighborDiscovery

namespace NeighborDiscovery.Processes

/-- The clock readings of an iteration lie in its turn, in the order in which the source
makes them, and handling what was received takes some time. -/
structure Reads (e : ServiceTurn) : Prop where
  update : ∀ mac, e.input.began ≤ e.input.input.updateNow mac ∧
    e.input.input.updateNow mac ≤ e.input.ended
  remove : e.input.began ≤ e.input.input.removeNow ∧ e.input.input.removeNow ≤ e.input.ended
  listen : e.input.began ≤ e.input.input.receiveStart
  passes : ∀ pass ∈ passesMade (iterationOf e),
    e.input.input.receiveStart ≤ pass.now ∧ pass.now < e.input.input.removeNow

section Retention

variable {process : Process} {settings : DiscoverySettings}
  {localSettings : UnixDomainSettings} {host : Host} {calls : SetupCalls}
  {h : List ServiceTurn} {s : NetworkNeighborDiscoverer}

/-- The activity period, as a time. -/
def activity (settings : DiscoverySettings) : Int :=
  seconds settings.neighborActivityPeriodS.toNat

/-- After its last announcement, an interface is listed while every iteration finds it
fresh. -/
theorem ServiceRun.lookup_iff {h₁ h₂ : List ServiceTurn} {j : ServiceTurn}
    (hrun : ServiceRun process settings localSettings host calls (h₁ ++ j :: h₂) s)
    {mac : Bytes} {nif : NetInterface} (hheard : Announces host (iterationOf j) mac nif)
    (hsilent : ∀ c ∈ h₂, ∀ nif', ¬ Announces host (iterationOf c) mac nif')
    {x : NetInterface × Int} :
    s.neighbors.lookup mac = some x ↔
      x = (restrict host j.input.input.nifs nif, j.input.input.updateNow mac) ∧
        ∀ c ∈ j :: h₂, c.input.input.nifs = [] ∨
          c.input.input.removeNow - j.input.input.updateNow mac ≤ activity settings := by
  obtain ⟨init, hinit, hdaemon⟩ := hrun.daemonRun
  have hwrite : writes host (iterationOf j) mac =
      some (restrict host j.input.input.nifs nif, j.input.input.updateNow mac) :=
    writes_eq_some.mpr ⟨nif, hheard, rfl⟩
  have hlater : ∀ c ∈ h₂.map iterationOf, writes host c mac = none := by
    intro c hc
    obtain ⟨d, hd, rfl⟩ := List.mem_map.mp hc
    exact writes_eq_none.mpr (hsilent d hd)
  rw [lookup_eq_contents hinit.neighbors hdaemon, hinit.settings, List.map_append, List.map_cons,
    Expiry.contents_last hwrite hlater, ← List.map_cons, List.forall_mem_map]
  refine and_congr_right fun _ => forall₂_congr fun c _ => ?_
  unfold keeps isFresh
  rw [Bool.or_eq_true, decide_eq_true_eq, decide_eq_true_eq]
  rfl

section Pace

variable {δ : Nat} {h₁ h₂ : List ServiceTurn} {j : ServiceTurn} {mac : Bytes}
  {nif : NetInterface}

/-- An interface is not listed after more silent turns than fit the activity period. -/
theorem ServiceRun.forgets (hcyclic : process.cyclic = true)
    (hrun : ServiceRun process settings localSettings host calls (h₁ ++ j :: h₂) s)
    (hδ : process.SleepFits δ) (htimely : Timely δ (h₁ ++ j :: h₂))
    (hreads : ∀ c ∈ h₁ ++ j :: h₂, Reads c) (hheard : Announces host (iterationOf j) mac nif)
    (hsilent : ∀ c ∈ h₂, ∀ nif', ¬ Announces host (iterationOf c) mac nif')
    {h₃ h₄ : List ServiceTurn} {e : ServiceTurn} (hsplit : h₂ = h₃ ++ e :: h₄)
    (hnifs : e.input.input.nifs ≠ [])
    (hlong : activity settings < h₃.length * (process.period - δ)) :
    s.neighbors.lookup mac = none := by
  refine Option.eq_none_iff_forall_ne_some.mpr fun x hx => ?_
  have hkept := ((hrun.lookup_iff hheard hsilent).mp hx).2 e (by simp [hsplit])
  have hfresh := hkept.resolve_left hnifs
  have hwrote := ((hreads j (by simp)).update mac).2
  have hremove := (hreads e (by simp [hsplit])).remove.1
  obtain ⟨_, _, hrun⟩ := hrun
  have hafter := hrun.after_ge hcyclic hδ htimely (congrArg (h₁ ++ j :: ·) hsplit)
  omega

/-- An interface is listed as long as the turns since its announcement, up to the removal in
the last of them, fit the activity period. -/
theorem ServiceRun.remembers (hcyclic : process.cyclic = true) {c : ServiceTurn}
    (hrun : ServiceRun process settings localSettings host calls (h₁ ++ j :: c :: h₂) s)
    (hδ : process.SleepFits δ) (htimely : Timely δ (h₁ ++ j :: c :: h₂))
    (hreads : ∀ d ∈ h₁ ++ j :: c :: h₂, Reads d) (hheard : Announces host (iterationOf j) mac nif)
    (hsilent : ∀ d ∈ c :: h₂, ∀ nif', ¬ Announces host (iterationOf d) mac nif')
    {longest late handling : Nat} (hprompt : Prompt longest late (c :: h₂))
    (hnext : c.input.began ≤ j.input.ended + j.output.slept + late)
    (hhandled : j.input.ended ≤ j.input.input.updateNow mac + handling)
    (hshort : handling + (j.output.slept + late) +
      h₂.length * (process.stride δ longest + late) + longest ≤ activity settings) :
    s.neighbors.lookup mac =
      some (restrict host j.input.input.nifs nif, j.input.input.updateNow mac) := by
  refine (hrun.lookup_iff hheard hsilent).mpr ⟨rfl, fun d hd => Or.inr ?_⟩
  obtain ⟨_, _, hrun⟩ := hrun
  have hslept := j.output.slept_nonneg
  have hstride : 0 ≤ process.stride δ longest + (late : Int) :=
    add_nonneg (process.stride_nonneg δ longest) (Int.natCast_nonneg late)
  have hturns : 0 ≤ h₂.length * (process.stride δ longest + (late : Int)) :=
    Int.mul_nonneg (Int.natCast_nonneg _) hstride
  have hremove := (hreads d (List.mem_append_right h₁ hd)).remove.2
  rcases List.mem_cons.mp hd with rfl | hd
  · omega
  · have hlasts := hprompt.lasts d hd
    have hbegan : d.input.began ≤
        c.input.began + h₂.length * (process.stride δ longest + late) := by
      rcases List.mem_cons.mp hd with rfl | hd
      · exact le_add_of_nonneg_right hturns
      · obtain ⟨h₃, h₄, rfl⟩ := List.append_of_mem hd
        rw [List.append_cons] at hrun htimely
        have hpace := hrun.pace_le hcyclic hδ htimely hprompt
        refine hpace.trans (add_le_add_right (Int.mul_le_mul_of_nonneg_right ?_ hstride) _)
        rw [List.length_append, List.length_cons]
        omega
    omega

/-- After the turn of the announcement it is listed, if handling what was received took no
longer than the activity period. -/
theorem ServiceRun.remembers_first
    (hrun : ServiceRun process settings localSettings host calls (h₁ ++ [j]) s)
    (hreads : Reads j) (hheard : Announces host (iterationOf j) mac nif) {handling : Nat}
    (hhandled : j.input.ended ≤ j.input.input.updateNow mac + handling)
    (hshort : handling ≤ activity settings) :
    s.neighbors.lookup mac =
      some (restrict host j.input.input.nifs nif, j.input.input.updateNow mac) := by
  refine (hrun.lookup_iff hheard fun c hc => absurd hc List.not_mem_nil).mpr ⟨rfl, fun c hc => ?_⟩
  rw [List.mem_singleton.mp hc]
  have hremove := hreads.remove.2
  exact Or.inr (by omega)

end Pace

section Listening

/-- Every entry has the time of an update in some earlier turn. -/
theorem ServiceRun.time_of_lookup
    (hrun : ServiceRun process settings localSettings host calls h s) {mac : Bytes}
    {x : NetInterface × Int} (hx : s.neighbors.lookup mac = some x) :
    ∃ j ∈ h, x.2 = j.input.input.updateNow mac := by
  obtain ⟨init, hinit, hdaemon⟩ := hrun.daemonRun
  rw [lookup_eq_contents hinit.neighbors hdaemon] at hx
  obtain ⟨h₁, d, h₂, hsplit, hwrite, -⟩ := Expiry.contents_eq_some.mp hx
  have hd : d ∈ h.map iterationOf := by
    rw [hsplit]
    exact List.mem_append_right h₁ (List.mem_cons_self ..)
  obtain ⟨j, hj, rfl⟩ := List.mem_map.mp hd
  obtain ⟨nif, -, rfl⟩ := writes_eq_some.mp hwrite
  exact ⟨j, hj, rfl⟩

end Listening

end Retention

namespace Small

/-- A sending period of a second, with the small buffers. -/
def settings (activity : UInt32) : DiscoverySettings := ⟨5320, 1, activity, 256⟩

def daemon : Process := ⟨true, 16, []⟩

def discoverer (activity : UInt32) : NetworkNeighborDiscoverer :=
  { Small.init with settings := settings activity, logger := some [.info (text "Service started")] }

theorem started_discoverer (activity : UInt32) :
    started (settings activity) Small.localSettings Small.calls = .ok (discoverer activity) := rfl

/-- One pass, at the end of the sending period. -/
def passAt (began : Int) (ipv6 : Option Incoming) : Pass :=
  ⟨ipv6, none, none, began + 1000000000⟩

def envAt (began : Int) (ipv6 : Option Incoming) : Env :=
  { Small.env [Small.eth0] [passAt began ipv6] (began + 1000000002) with
    receiveStart := began
    updateNow := fun _ => began + 1000000001 }

def turnAt (began : Int) (ipv6 : Option Incoming) : Turn Env :=
  ⟨began, envAt began ipv6, began + 1000000003, began, began + 1000000003⟩

/-- A state a run can be in, as far as the loop can tell. -/
structure Ready (activity : UInt32) (nnd : NetworkNeighborDiscoverer) : Prop where
  listening : nnd.listening = (discoverer activity).listening
  logger : nnd.logger.isSome = true

def buffered (ipv6 : Option Incoming) : Option Bytes :=
  (discoverer 0).listening.buffer [Small.eth0] (passAt 0 ipv6) .inet6

section Turns

variable {activity : UInt32} {nnd : NetworkNeighborDiscoverer}

theorem envAt_orderly (hready : Ready activity nnd) (began : Int)
    (ipv6 : Option Incoming) : Orderly (envAt began ipv6) nnd where
  logger := hready.logger
  interfaces := rfl
  prefixes nif hnif ip hip := by
    rw [show (envAt began ipv6).nifs = [Small.eth0] from rfl, List.mem_singleton] at hnif
    subst hnif
    rw [List.mem_singleton.mp hip]
    decide
  receivers T hlacks := by
    rw [hready.listening] at hlacks
    cases T
    · cases hlacks.2
    · cases hlacks.2
  clients pass hpass client hclient := by
    rw [List.mem_singleton.mp hpass, hready.listening] at hclient
    cases hclient
  bytes := by
    have h6 := (gained_bounds nnd.listening [Small.eth0] (passAt began ipv6) .inet6).2
    have h4 := (gained_bounds nnd.listening [Small.eth0] (passAt began ipv6) .inet).2
    show nnd.listening.received [Small.eth0] (passAt began ipv6) 0 < 2 ^ 31
    unfold Listening.received
    omega
  late := by
    refine ⟨passAt began ipv6, List.mem_singleton_self _, ?_⟩
    have hsettings : nnd.settings = settings activity :=
      congrArg Listening.settings hready.listening
    rw [hsettings]
    show (1 : UInt32) ≤ UInt32.ofInt (Int.tdiv (began + 1000000000 - began) 1000000000)
    rw [show began + 1000000000 - began = 1000000000 by omega]
    decide
  writes pass hpass hasks := by
    rw [List.mem_singleton.mp hpass, hready.listening] at hasks
    exact absurd hasks (Listening.not_asks rfl)

/-- Such a turn can be made, and it reads what the pass has. -/
theorem turn_ends (hready : Ready activity nnd) (began : Int)
    {ipv6 : Option Incoming} (hdecodes : ∀ buff, buffered ipv6 = some buff →
      ∃ desReturn, decode Small.host buff = .ok desReturn) :
    ∃ nnd' out, runIteration Small.host (envAt began ipv6) nnd = .ok (nnd', out) ∧
      Ready activity nnd' ∧
      out.received = (buffered ipv6).toList := by
  have horderly := envAt_orderly hready began ipv6
  have hends : ∀ before pass, Reaches Small.host (envAt began ipv6) nnd.listening true before pass →
      PassEndsAfter Small.host (envAt began ipv6) nnd.listening true before pass := by
    intro before pass hreaches
    obtain ⟨after, hpasses⟩ := hreaches.passes
    rw [horderly.passEnds_iff hpasses, hready.listening]
    intro T buff hbuff
    have hpass : pass ∈ [passAt began ipv6] := by
      rw [show [passAt began ipv6] = before ++ pass :: after from hpasses]
      simp
    rw [List.mem_singleton.mp hpass] at hbuff
    cases T
    · cases hbuff
    · exact hdecodes buff hbuff
  obtain ⟨nnd', out, hstep⟩ := horderly.ends_iff.mpr hends
  obtain ⟨hlistening, hlogger⟩ := runIteration_listening hstep
  refine ⟨nnd', out, hstep, ⟨hlistening.trans hready.listening, hlogger.trans hready.logger⟩, ?_⟩
  obtain ⟨consumed, rest, hpasses, hne, hreceived⟩ :=
    (runIteration_discovers Small.host hstep (List.cons_ne_nil _ _)).passes
  have hconsumed : consumed = [passAt began ipv6] := by
    cases consumed with
    | nil => exact absurd rfl hne
    | cons pass consumed =>
      obtain ⟨hpass, hnil⟩ := List.cons.inj hpasses
      rw [← hpass, (List.append_eq_nil_iff.mp hnil.symm).1]
  rw [hconsumed] at hreceived
  have hbuffers : out.received =
      (nnd.listening.buffer [Small.eth0] (passAt began ipv6) .inet6).toList ++
      (nnd.listening.buffer [Small.eth0] (passAt began ipv6) .inet).toList :=
    (flatMap_received hreceived).trans (List.flatMap_singleton _ _)
  rw [hbuffers, hready.listening]
  exact List.append_nil _

/-- An event of these runs. -/
structure At (e : ServiceTurn) (began : Int) (ipv6 : Option Incoming) : Prop where
  input : e.input = turnAt began ipv6
  sleep : e.output.sleep = some 15
  received : e.output.output.received = (buffered ipv6).toList

theorem run_extended {h : List ServiceTurn}
    (hrun : ServiceRun daemon (settings activity) Small.localSettings Small.host Small.calls h nnd)
    (hready : Ready activity nnd) (began : Int) {ipv6 : Option Incoming}
    (hdecodes : ∀ buff, buffered ipv6 = some buff →
      ∃ desReturn, decode Small.host buff = .ok desReturn) :
    ∃ e, At e began ipv6 ∧ Ready activity e.after.state ∧ e.before.state = nnd ∧
      ServiceRun daemon (settings activity) Small.localSettings Small.host Small.calls (h ++ [e])
        e.after.state := by
  obtain ⟨made, hstarted, hrun⟩ := hrun
  obtain ⟨nnd', out, hstep, hready', hreceived⟩ := turn_ends hready began hdecodes
  have hsleep : daemon.sleep began (began + 1000000003) = some 15 := by
    unfold Process.sleep Process.secondsToWait
    rw [show began + 1000000003 - began = 1000000003 by omega]
    rfl
  have hturns : daemon.Turns (some fun nnd env => runIteration Small.host env nnd) ⟨nnd, true⟩
      (turnAt began ipv6) ⟨out, daemon.sleep began (began + 1000000003)⟩ ⟨nnd', true⟩ :=
    ⟨rfl, _, rfl, Fallible.bind_eq_ok.mpr ⟨(nnd', out), hstep, rfl⟩⟩
  exact ⟨⟨⟨nnd, true⟩, turnAt began ipv6, _, ⟨nnd', true⟩⟩, ⟨rfl, hsleep, hreceived⟩, hready', rfl,
    made, hstarted, hrun.snoc hturns⟩

end Turns

theorem At.reads {e : ServiceTurn} {began : Int} {ipv6 : Option Incoming} (h : At e began ipv6) :
    Reads e := by
  have hinput := h.input
  refine ⟨fun mac => ?_, ?_, ?_, fun pass hpass => ?_⟩
  · rw [hinput]
    show began ≤ began + 1000000001 ∧ began + 1000000001 ≤ began + 1000000003
    omega
  · rw [hinput]
    show began ≤ began + 1000000002 ∧ began + 1000000002 ≤ began + 1000000003
    omega
  · rw [hinput]
    exact le_refl began
  · have hmem : pass ∈ e.input.input.passes := List.mem_of_mem_take hpass
    rw [hinput] at hmem
    rw [List.mem_singleton.mp hmem, hinput]
    show began ≤ began + 1000000000 ∧ began + 1000000000 < began + 1000000002
    omega

/-- A turn lasts a second, and its sleep 15. -/
theorem At.times {e : ServiceTurn} {began : Int} {ipv6 : Option Incoming} (h : At e began ipv6) :
    e.input.began = began ∧ e.input.ended = began + 1000000003 ∧ e.input.start = began ∧
      e.input.finish = began + 1000000003 ∧ e.output.slept = 15000000000 := by
  rw [h.input]
  refine ⟨rfl, rfl, rfl, rfl, ?_⟩
  unfold Turned.slept
  rw [h.sleep]
  rfl

theorem timely_of {h : List ServiceTurn} (hat : ∀ e ∈ h, ∃ began ipv6, At e began ipv6)
    (hchain : h.IsChain fun a b => b.input.began = a.input.began + 16000000003) :
    Timely 0 h ∧ Prompt 1000000003 0 h := by
  have htimes : ∀ e ∈ h, e.input.ended = e.input.began + 1000000003 ∧
      e.input.finish - e.input.start = 1000000003 ∧ e.output.slept = 15000000000 := by
    intro e he
    obtain ⟨began, ipv6, hat⟩ := hat e he
    have htimes := hat.times
    omega
  refine ⟨⟨fun e he => ?_, fun e he => ?_, fun e he => ?_, ?_⟩, ⟨fun e he => ?_, ?_⟩⟩
  · have := htimes e he
    omega
  · have := htimes e he
    omega
  · have := htimes e he
    omega
  · refine hchain.imp_of_mem_imp fun a b ha _ hnext => ?_
    have := htimes a ha
    omega
  · have := htimes e he
    omega
  · refine hchain.imp_of_mem_imp fun a b ha _ hnext => ?_
    have := htimes a ha
    omega

theorem remote_fits : (announcement Small.host [Small.remote]).length ≤ 65535 := by decide

def remoteData : Option Incoming := (Small.hears [Small.remote] remote_fits).ipv6

set_option maxRecDepth 20000 in
theorem remote_buffered : ∃ buff desReturn, buffered remoteData = some buff ∧
    decode Small.host buff = .ok desReturn ∧ decodedNifs Small.host buff = [Small.remote] :=
  ⟨_, _, rfl, rfl, rfl⟩

theorem remote_decodes : ∀ buff, buffered remoteData = some buff →
    ∃ desReturn, decode Small.host buff = .ok desReturn := by
  obtain ⟨buff, desReturn, hbuff, hdecode, -⟩ := remote_buffered
  intro buff' hbuff'
  rw [hbuff, Option.some_inj] at hbuff'
  exact ⟨desReturn, hbuff' ▸ hdecode⟩

theorem At.announces {e : ServiceTurn} {began : Int} (h : At e began remoteData) :
    Announces Small.host (iterationOf e) Small.remote.mac Small.remote := by
  obtain ⟨buff, -, hbuff, -, hdecoded⟩ := remote_buffered
  have hall : e.output.output.decoded Small.host = [Small.remote] := by
    unfold Output.decoded
    rw [h.received, hbuff]
    exact (List.flatMap_singleton _ _).trans hdecoded
  unfold Announces
  rw [show (iterationOf e).output = e.output.output from rfl, hall,
    show (iterationOf e).input.nifs = e.input.input.nifs from rfl, h.input]
  exact ⟨rfl, rfl⟩

theorem At.silent {e : ServiceTurn} {began : Int} (h : At e began none) (mac : Bytes)
    (nif : NetInterface) : ¬ Announces Small.host (iterationOf e) mac nif := by
  intro hannounces
  have hall : e.output.output.decoded Small.host = [] := by
    unfold Output.decoded
    rw [h.received]
    rfl
  have hlast := hannounces.1
  rw [show (iterationOf e).output = e.output.output from rfl, hall] at hlast
  cases hlast

/-- A run that hears the interface in its first turn and nothing in those after it. -/
structure SilentRun (a : ServiceTurn) (rest : List ServiceTurn) (s : NetworkNeighborDiscoverer) :
    Prop where
  run : ServiceRun daemon (settings 30) Small.localSettings Small.host Small.calls
    ([] ++ a :: rest) s
  heard : At a 0 remoteData
  silent : ∀ e ∈ rest, ∃ began, At e began none
  chain : (a :: rest).IsChain fun a b => b.input.began = a.input.began + 16000000003

section SilentRun

variable {a : ServiceTurn} {rest : List ServiceTurn} {s : NetworkNeighborDiscoverer}

theorem SilentRun.at (h : SilentRun a rest s) :
    ∀ e ∈ [] ++ a :: rest, ∃ began ipv6, At e began ipv6 := by
  intro e he
  rcases List.mem_cons.mp he with rfl | he
  · exact ⟨_, _, h.heard⟩
  · obtain ⟨began, hat⟩ := h.silent e he
    exact ⟨began, none, hat⟩

theorem SilentRun.timely (h : SilentRun a rest s) :
    Timely 0 ([] ++ a :: rest) ∧ Prompt 1000000003 0 rest := by
  have hboth := timely_of h.at h.chain
  exact ⟨hboth.1, fun e he => hboth.2.lasts e (List.mem_cons_of_mem a he), hboth.2.wakes.tail⟩

theorem SilentRun.reads (h : SilentRun a rest s) : ∀ e ∈ [] ++ a :: rest, Reads e := by
  intro e he
  obtain ⟨began, ipv6, hat⟩ := h.at e he
  exact hat.reads

theorem SilentRun.quiet (h : SilentRun a rest s) : ∀ e ∈ rest, ∀ nif,
    ¬ Announces Small.host (iterationOf e) Small.remote.mac nif := by
  intro e he
  obtain ⟨began, hat⟩ := h.silent e he
  exact hat.silent _

end SilentRun

theorem silent_run : ∃ a b c d s₀ s₁ s₂, SilentRun a [] s₀ ∧ SilentRun a [b] s₁ ∧
    SilentRun a [b, c, d] s₂ ∧ d.input.input.nifs ≠ [] := by
  have hnone : ∀ buff, buffered none = some buff →
      ∃ desReturn, decode Small.host buff = .ok desReturn := fun buff hbuff => by cases hbuff
  obtain ⟨a, ha, hreadyA, -, hrunA⟩ := run_extended (h := []) ⟨_, started_discoverer 30, .nil⟩
    ⟨rfl, rfl⟩ 0 remote_decodes
  obtain ⟨b, hb, hreadyB, -, hrunB⟩ := run_extended hrunA hreadyA 16000000003 hnone
  obtain ⟨c, hc, hreadyC, -, hrunC⟩ := run_extended hrunB hreadyB 32000000006 hnone
  obtain ⟨d, hd, -, -, hrunD⟩ := run_extended hrunC hreadyC 48000000009 hnone
  have htimesA := ha.times
  have htimesB := hb.times
  have htimesC := hc.times
  have htimesD := hd.times
  refine ⟨a, b, c, d, _, _, _, ⟨hrunA, ha, fun e he => absurd he List.not_mem_nil,
    List.isChain_singleton a⟩, ⟨hrunB, ha, ?_, ?_⟩, ⟨hrunD, ha, ?_, ?_⟩, ?_⟩
  · simpa using ⟨_, hb⟩
  · simp
    omega
  · simpa using ⟨⟨_, hb⟩, ⟨_, hc⟩, ⟨_, hd⟩⟩
  · simp
    omega
  · rw [hd.input]
    exact List.cons_ne_nil _ _

end Small

/-- How long an interface stays in the table after its last announcement: not beyond the
first removal that more turns than fit the activity period lie before, and in any case
while the turns up to the last removal fit it, beginning with that of the announcement. -/
theorem neighbor_retained {process : Process} {settings : DiscoverySettings}
    {localSettings : UnixDomainSettings} {host : Host} {calls : SetupCalls}
    {s : NetworkNeighborDiscoverer} (hcyclic : process.cyclic = true) {δ : Nat}
    {h₁ h₂ : List ServiceTurn} {j : ServiceTurn} {mac : Bytes} {nif : NetInterface}
    (hrun : ServiceRun process settings localSettings host calls (h₁ ++ j :: h₂) s)
    (hδ : process.SleepFits δ) (htimely : Timely δ (h₁ ++ j :: h₂))
    (hreads : ∀ c ∈ h₁ ++ j :: h₂, Reads c) (hheard : Announces host (iterationOf j) mac nif)
    (hsilent : ∀ c ∈ h₂, ∀ nif', ¬ Announces host (iterationOf c) mac nif') :
    (∀ h₃ e h₄, h₂ = h₃ ++ e :: h₄ → e.input.input.nifs ≠ [] →
      activity settings < h₃.length * (process.period - δ) → s.neighbors.lookup mac = none) ∧
    (∀ handling : Nat, h₂ = [] → j.input.ended ≤ j.input.input.updateNow mac + handling →
      handling ≤ activity settings → s.neighbors.lookup mac =
        some (restrict host j.input.input.nifs nif, j.input.input.updateNow mac)) ∧
    ∀ c h₃ (longest late handling : Nat), h₂ = c :: h₃ → Prompt longest late (c :: h₃) →
      c.input.began ≤ j.input.ended + j.output.slept + late →
      j.input.ended ≤ j.input.input.updateNow mac + handling →
      handling + (j.output.slept + late) + h₃.length * (process.stride δ longest + late) +
        longest ≤ activity settings →
      s.neighbors.lookup mac =
        some (restrict host j.input.input.nifs nif, j.input.input.updateNow mac) := by
  refine ⟨fun h₃ e h₄ hsplit hnifs hlong => ?_, fun handling hsplit hhandled hshort => ?_,
    fun c h₃ longest late handling hsplit => ?_⟩
  · exact hrun.forgets hcyclic hδ htimely hreads hheard hsilent hsplit hnifs hlong
  · subst hsplit
    exact hrun.remembers_first (hreads j (by simp)) hheard hhandled hshort
  · subst hsplit
    exact hrun.remembers hcyclic hδ htimely hreads hheard hsilent

theorem neighbor_retained_small : ∃ a b c d s₀ s₁ s₂, Small.SilentRun a [] s₀ ∧
    Small.SilentRun a [b] s₁ ∧ Small.SilentRun a [b, c, d] s₂ ∧
    (∃ entry, s₀.neighbors.lookup Small.remote.mac = some entry) ∧
    (∃ entry, s₁.neighbors.lookup Small.remote.mac = some entry) ∧
    s₂.neighbors.lookup Small.remote.mac = none := by
  obtain ⟨a, b, c, d, s₀, s₁, s₂, hrun₀, hrun₁, hrun₂, hnifs⟩ := Small.silent_run
  have htimes := hrun₁.heard.times
  have hnext := List.isChain_pair.mp hrun₁.chain
  have hupdate : a.input.input.updateNow Small.remote.mac = 1000000001 := by
    rw [hrun₁.heard.input]
    rfl
  have hactivity : activity (Small.settings 30) = 30000000000 := rfl
  have hfirst := (neighbor_retained rfl hrun₀.run (by decide) hrun₀.timely.1 hrun₀.reads
    hrun₀.heard.announces hrun₀.quiet).2.1 2 rfl (by omega) (by omega)
  have hlisted := (neighbor_retained rfl hrun₁.run (by decide) hrun₁.timely.1 hrun₁.reads
    hrun₁.heard.announces hrun₁.quiet).2.2 b [] 1000000003 0 2 rfl hrun₁.timely.2 (by omega)
    (by omega) (by rw [List.length_nil, Int.natCast_zero, Int.zero_mul]; omega)
  have hunlisted := (neighbor_retained rfl hrun₂.run (by decide) hrun₂.timely.1 hrun₂.reads
    hrun₂.heard.announces hrun₂.quiet).1 [b, c] d [] rfl hnifs
    (show (30000000000 : Int) < 2 * (16000000000 - 0) by decide)
  exact ⟨a, b, c, d, s₀, s₁, s₂, hrun₀, hrun₁, hrun₂, ⟨_, hfirst⟩, ⟨_, hlisted⟩, hunlisted⟩

/-- With the periods of `Config`, two turns of silence before a removal are enough for it,
if the clock is not set by five seconds. -/
theorem main_forgets {host : Host} {calls : SetupCalls} {s : NetworkNeighborDiscoverer} {δ : Nat}
    (hδ : (δ : Int) < seconds 5) {h₁ h₃ h₄ : List ServiceTurn} {j e : ServiceTurn} {mac : Bytes}
    {nif : NetInterface} (hrun : MainRun host calls (h₁ ++ j :: (h₃ ++ e :: h₄)) s)
    (htimely : Timely δ (h₁ ++ j :: (h₃ ++ e :: h₄)))
    (hreads : ∀ c ∈ h₁ ++ j :: (h₃ ++ e :: h₄), Reads c)
    (hheard : Announces host (iterationOf j) mac nif)
    (hsilent : ∀ c ∈ h₃ ++ e :: h₄, ∀ nif', ¬ Announces host (iterationOf c) mac nif')
    (hnifs : e.input.input.nifs ≠ []) (hturns : 2 ≤ h₃.length) :
    s.neighbors.lookup mac = none := by
  have hperiod : service.period = 20000000000 := rfl
  have hfive : seconds 5 = 5000000000 := rfl
  have hfits : service.SleepFits δ := by
    unfold Process.SleepFits
    rw [hperiod, show seconds (2 ^ 32 - 1) = 4294967295000000000 from rfl]
    omega
  refine hrun.forgets rfl hfits htimely hreads hheard hsilent rfl hnifs ?_
  rw [hperiod, show activity netSettings = 30000000000 from rfl]
  have hlong : 2 * (20000000000 - (δ : Int)) ≤ h₃.length * (20000000000 - δ) :=
    Int.mul_le_mul_of_nonneg_right (by omega) (by omega)
  omega

/-! ## Turns that hear something -/

/-- A turn that hears a datagram and is not asked lasts for the sending period.  Where that is
not shorter than the activity period, as in `Config`, the table then holds what was announced
in this very turn, and nothing from any earlier one. -/
theorem hearing_turn {process : Process} {settings : DiscoverySettings}
    {localSettings : UnixDomainSettings} {host : Host} {calls : SetupCalls}
    {s : NetworkNeighborDiscoverer} {h : List ServiceTurn} {e : ServiceTurn} {δ : Nat}
    (hrun : ServiceRun process settings localSettings host calls (h ++ [e]) s)
    (htimely : Timely δ (h ++ [e])) (hreads : ∀ c ∈ h ++ [e], Reads c)
    (hnifs : e.input.input.nifs ≠ []) (hheard : e.output.output.received ≠ [])
    (hunasked : ∀ pass ∈ passesMade (iterationOf e), ¬ e.before.state.listening.Asks pass) :
    seconds settings.sendingPeriodS.toNat ≤ e.input.ended - e.input.began ∧
      (settings.neighborActivityPeriodS ≤ settings.sendingPeriodS → ∀ mac x,
        s.neighbors.lookup mac = some x ↔ ∃ nif, Announces host (iterationOf e) mac nif ∧
          x = (restrict host e.input.input.nifs nif, e.input.input.updateNow mac) ∧
          e.input.input.removeNow - e.input.input.updateNow mac ≤ activity settings) := by
  obtain ⟨hbefore, hiterates, hsettings, rfl⟩ := hrun.last
  have hstep : runIteration host (iterationOf e).input (iterationOf e).before =
      .ok ((iterationOf e).after, (iterationOf e).output) := hiterates
  have hread := hreads e (by simp)
  constructor
  · obtain ⟨last, hmem, hlasts⟩ := listens_on hstep hnifs hheard hunasked fun pass hpass =>
      (hread.passes pass hpass).1
    have hlast : seconds settings.sendingPeriodS.toNat ≤ last.now - e.input.input.receiveStart :=
      hsettings ▸ hlasts
    have hremove := (hread.passes last hmem).2
    have hlisten := hread.listen
    have hended := hread.remove.2
    omega
  · intro hperiods mac x
    have hold : ∀ x, e.before.state.neighbors.lookup mac = some x →
        x.2 ≤ e.input.input.receiveStart := by
      intro x hx
      obtain ⟨j, hj, hwrote⟩ := hbefore.time_of_lookup hx
      obtain ⟨h₁, h₂, rfl⟩ := List.append_of_mem hj
      have hover := htimely.over (a := j) (b := e) (List.append_assoc h₁ (j :: h₂) [e])
      have hupdate := ((hreads j (by simp)).update mac).2
      have hlisten := hread.listen
      omega
    have hlookup := lookup_listened hstep hnifs hheard hunasked (hsettings.symm ▸ hperiods)
      hread.passes hold
    rw [show e.after.state.neighbors.lookup mac = _ from hlookup, Option.filter_eq_some_iff,
      writes_eq_some]
    constructor
    · intro h
      obtain ⟨⟨nif, hannounces, rfl⟩, hfresh⟩ := h
      exact ⟨nif, hannounces, rfl, hsettings ▸ of_decide_eq_true hfresh⟩
    · intro h
      obtain ⟨nif, hannounces, rfl, hfresh⟩ := h
      exact ⟨⟨nif, hannounces, rfl⟩, decide_eq_true (hsettings.symm ▸ hfresh)⟩

example : netSettings.neighborActivityPeriodS ≤ netSettings.sendingPeriodS := by decide

namespace Small

theorem other_fits : (announcement Small.host [Small.eth1]).length ≤ 65535 := by decide

def otherData : Option Incoming := (Small.hears [Small.eth1] other_fits).ipv6

set_option maxRecDepth 20000 in
theorem other_buffered : ∃ buff desReturn, buffered otherData = some buff ∧
    decode Small.host buff = .ok desReturn ∧ decodedNifs Small.host buff = [Small.eth1] :=
  ⟨_, _, rfl, rfl, rfl⟩

/-- One interface is heard in the first turn and another in the second. -/
theorem hearing_run : ∃ a b, Ready 1 b.before.state ∧ At a 0 remoteData ∧
    At b 16000000003 otherData ∧ ServiceRun daemon (settings 1) Small.localSettings Small.host
      Small.calls ([a] ++ [b]) b.after.state := by
  obtain ⟨buff, desReturn, hbuff, hdecode, -⟩ := other_buffered
  obtain ⟨a, ha, hreadyA, -, hrunA⟩ := run_extended (h := []) ⟨_, started_discoverer 1, .nil⟩
    ⟨rfl, rfl⟩ 0 remote_decodes
  obtain ⟨b, hb, -, hbefore, hrunB⟩ := run_extended hrunA hreadyA 16000000003
    fun buff' hbuff' => ⟨desReturn, by
      rw [hbuff, Option.some_inj] at hbuff'
      exact hbuff' ▸ hdecode⟩
  exact ⟨a, b, hbefore ▸ hreadyA, ha, hb, hrunB⟩

end Small

theorem hearing_turn_small : ∃ a b, Small.At a 0 Small.remoteData ∧
    Small.At b 16000000003 Small.otherData ∧
    ServiceRun Small.daemon (Small.settings 1) Small.localSettings Small.host Small.calls
      ([a] ++ [b]) b.after.state ∧ b.after.state.neighbors.lookup Small.remote.mac = none := by
  obtain ⟨a, b, hready, ha, hb, hrun⟩ := Small.hearing_run
  obtain ⟨buff, -, hbuff, -, hdecoded⟩ := Small.other_buffered
  have htimesA := ha.times
  have htimesB := hb.times
  have hreceived : b.output.output.received = [buff] := by
    rw [hb.received, hbuff]
    rfl
  have htimely : Timely 0 ([a] ++ [b]) := by
    refine (Small.timely_of (fun e he => ?_) (List.isChain_pair.mpr ?_)).1
    · rcases List.mem_pair.mp he with rfl | rfl
      · exact ⟨_, _, ha⟩
      · exact ⟨_, _, hb⟩
    · omega
  have hreads : ∀ e ∈ [a] ++ [b], Reads e := by
    intro e he
    rcases List.mem_pair.mp he with rfl | rfl
    · exact ha.reads
    · exact hb.reads
  have hunasked : ∀ pass ∈ passesMade (iterationOf b), ¬ b.before.state.listening.Asks pass := by
    intro pass hpass
    have hmem : pass ∈ b.input.input.passes := List.mem_of_mem_take hpass
    rw [hb.input] at hmem
    rw [List.mem_singleton.mp hmem, hready.listening]
    exact Listening.not_asks rfl
  have hturn := hearing_turn hrun htimely hreads (by rw [hb.input]; exact List.cons_ne_nil _ _)
    (by rw [hreceived]; exact List.cons_ne_nil _ _) hunasked
  refine ⟨a, b, ha, hb, hrun, Option.eq_none_iff_forall_ne_some.mpr fun x hx => ?_⟩
  obtain ⟨nif, hannounces, -⟩ := (hturn.2 (by decide) Small.remote.mac x).mp hx
  have hall : b.output.output.decoded Small.host = [Small.eth1] := by
    unfold Output.decoded
    rw [hreceived]
    exact (List.flatMap_singleton _ _).trans hdecoded
  have hlast := hannounces.1
  rw [show (iterationOf b).output = b.output.output from rfl, hall] at hlast
  cases hlast

end NeighborDiscovery.Processes
