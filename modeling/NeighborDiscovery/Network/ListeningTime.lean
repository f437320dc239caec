/-
How long an iteration listens.

The loop goes on while `receivedBytes` is positive, and that counts all the bytes of
the iteration: after the first datagram only a request or the sending period ends it.
The table is cleared of old entries after the loop, so what an iteration that heard
something leaves in it depends on how the two periods compare.
-/
import NeighborDiscovery.Network.ByteCounter
import NeighborDiscovery.Network.IterationFaults
import NeighborDiscovery.Network.NeighborHistory
import NeighborDiscovery.Network.Discovery

namespace NeighborDiscovery

section Course

variable {host : Host} {env : Env} {nnd : NetworkNeighborDiscoverer} {nifs : List NetInterface}
  {start logger logger' : Logger} {before : List Pass} {pass : Pass} {r r' : Reception}

theorem receivePass_length (h : receivePass host nnd nifs pass r logger = .ok (r', logger')) :
    r'.passes.length = r.passes.length + 1 := by
  obtain ⟨traces, hpasses, htraces⟩ := (receivePass_ok host h).passes
  have hlength := congrArg List.length htraces
  rw [List.length_map, List.length_map] at hlength
  rw [hpasses, List.length_append, hlength]
  rfl

theorem AtPass.length_passes (h : AtPass host env nnd nifs start before r logger) :
    r.passes.length = before.length := by
  induction h with
  | first => rfl
  | next _ _ hrun _ ih =>
    rw [receivePass_length hrun, ih, List.length_append, List.length_singleton]

end Course

section Duration

variable {host : Host} {e : Iteration}

/-- The last pass of an iteration, which the loop does not go beyond. -/
structure LastPass (host : Host) (e : Iteration) (before : List Pass) (pass : Pass)
    (nnd : NetworkNeighborDiscoverer) (r : Reception) : Prop where
  made : passesMade e = before ++ [pass]
  listening : nnd.listening = e.before.listening
  reached : ∃ start r₁ logger logger', start.isSome = e.before.logger.isSome ∧
    AtPass host e.input nnd e.input.nifs start before r₁ logger ∧
      receivePass host nnd e.input.nifs pass r₁ logger = .ok (r, logger')
  stops : ¬ GoesRound e.input nnd pass r

theorem exists_lastPass
    (hstep : runIteration host e.input e.before = .ok (e.after, e.output))
    (hnifs : e.input.nifs ≠ []) : ∃ before pass nnd r, LastPass host e before pass nnd r := by
  obtain ⟨nnd, sentIPv6, sentIPv4, logger, hlistening, -, hlogger, hsame⟩ :=
    @iterate_discovers host e.input e.before hnifs e.before.logger
  unfold runIteration at hstep
  obtain ⟨⟨⟨after, out⟩, logger'⟩, hiterate, hstep⟩ := Fallible.bind_eq_ok.mp hstep
  rw [hsame] at hiterate
  obtain ⟨r, logger₁, hloop, hrest⟩ := Logging.bind_eq_ok.mp hiterate
  obtain ⟨neighbors, _, -, hrest⟩ := Logging.bind_eq_ok.mp hrest
  obtain ⟨answer, _, -, hrest⟩ := Logging.bind_eq_ok.mp hrest
  have hout : e.output.passes = r.passes := by
    cases hrest
    exact (congrArg (Output.passes ∘ Prod.snd) (Except.ok.inj hstep)).symm
  obtain ⟨before, pass, rest, r₁, logger₂, hpasses, hat, hrun, hstops⟩ :=
    receiveLoop_last .first rfl hloop
  refine ⟨before, pass, nnd, r, ?_, hlistening,
    ⟨_, r₁, logger₂, logger₁, hlogger, hat, hrun⟩, hstops⟩
  unfold passesMade
  rw [hout, receivePass_length hrun, hat.length_passes, hpasses, List.append_cons]
  exact List.take_left' (by simp)

/-- What an iteration decodes is what its receivers have for the passes that its loop
comes to, the last of which ends it. -/
def DecodesOffered (host : Host) (e : Iteration) : Prop :=
  ∃ before pass,
    Reaches host e.input e.before.listening e.before.logger.isSome before pass ∧
    PassEndsAfter host e.input e.before.listening e.before.logger.isSome before pass ∧
    ¬ e.before.listening.Continues e.input.nifs e.input
      (e.before.listening.receivedAll e.input.nifs 0 before) pass ∧
    e.output.decoded host =
      decodedAll host ((before ++ [pass]).flatMap (passBuffers e.before e.input.nifs))

theorem decodes_offered
    (hstep : runIteration host e.input e.before = .ok (e.after, e.output))
    (hnifs : e.input.nifs ≠ []) : DecodesOffered host e := by
  obtain ⟨before, pass, nnd, r, hlast⟩ := exists_lastPass hstep hnifs
  obtain ⟨start, r₁, logger, logger', hstart, hat, hrun⟩ := hlast.reached
  obtain ⟨hgoes, hbytes, hlogger⟩ := hat.goesOn
  obtain ⟨hends, -, -⟩ := receivePass_result hrun
  have hstops := hlast.stops
  rw [goesRound_iff hat.unasked hrun, hbytes, hlast.listening] at hstops
  rw [hbytes, hlogger, hstart, hlast.listening] at hends
  rw [hstart, hlast.listening] at hgoes
  have hpasses : e.input.passes =
      before ++ pass :: e.input.passes.drop e.output.passes.length := by
    rw [List.append_cons, ← hlast.made]
    exact (List.take_append_drop _ _).symm
  refine ⟨before, pass, ⟨⟨_, hpasses⟩, hgoes⟩, hends, hstops, ?_⟩
  unfold Output.decoded
  rw [received_eq hstep hnifs, hlast.made]

theorem run_decodes_offered {init s : NetworkNeighborDiscoverer} {h : List Iteration}
    (hrun : DaemonRun host init h s) :
    ∀ j ∈ h, j.input.nifs ≠ [] → DecodesOffered host j := by
  intro j hj hnifs
  obtain ⟨-, -, -, -, hstep⟩ := hrun.event hj
  exact decodes_offered hstep hnifs

/-- Some pass read a datagram. -/
theorem exists_read
    (hstep : runIteration host e.input e.before = .ok (e.after, e.output))
    (hnifs : e.input.nifs ≠ []) (hheard : e.output.received ≠ []) :
    ∃ read ∈ passesMade e, ¬ Silent e.before e.input.nifs read := by
  rw [received_eq hstep hnifs] at hheard
  obtain ⟨buff, hbuff⟩ := List.exists_mem_of_ne_nil _ hheard
  obtain ⟨read, hread, hmem⟩ := List.mem_flatMap.mp hbuff
  exact ⟨read, hread, List.ne_nil_of_mem hmem⟩

theorem silent_congr {nnd nnd' : NetworkNeighborDiscoverer} (h : nnd.listening = nnd'.listening)
    (nifs : List NetInterface) (pass : Pass) : Silent nnd nifs pass ↔ Silent nnd' nifs pass := by
  have hbuffers : ∀ nnd : NetworkNeighborDiscoverer, passBuffers nnd nifs pass =
      (nnd.listening.buffer nifs pass .inet6).toList ++
        (nnd.listening.buffer nifs pass .inet).toList := fun _ => rfl
  unfold Silent
  rw [hbuffers, hbuffers, h]

theorem le_passed {env : Env} {pass : Pass} {n : UInt32} (hclock : env.receiveStart ≤ pass.now)
    (h : n ≤ receiveTimePassedS env pass) : seconds n.toNat ≤ pass.now - env.receiveStart := by
  unfold receiveTimePassedS UInt32.ofInt at h
  rw [Int.tdiv_eq_ediv_of_nonneg (by omega), UInt32.le_iff_toNat_le, UInt32.toNat_ofNat'] at h
  have hmod := Nat.mod_le ((pass.now - env.receiveStart) / 1000000000 % 2 ^ 32).toNat (2 ^ 32)
  unfold seconds
  omega

/-- An iteration that has heard something and is not asked listens for the sending period. -/
theorem listens_on (hstep : runIteration host e.input e.before = .ok (e.after, e.output))
    (hnifs : e.input.nifs ≠ []) (hheard : e.output.received ≠ [])
    (hunasked : ∀ pass ∈ passesMade e, ¬ e.before.listening.Asks pass)
    (hclock : ∀ pass ∈ passesMade e, e.input.receiveStart ≤ pass.now) :
    ∃ last ∈ passesMade e,
      seconds e.before.settings.sendingPeriodS.toNat ≤ last.now - e.input.receiveStart := by
  obtain ⟨before, last, nnd, r, hlast⟩ := exists_lastPass hstep hnifs
  obtain ⟨start, r₁, logger, logger', -, hat, hrun⟩ := hlast.reached
  have hmem : last ∈ passesMade e := by
    rw [hlast.made]
    exact List.mem_append_right before (List.mem_singleton_self last)
  refine ⟨last, hmem, le_passed (hclock last hmem) ?_⟩
  obtain ⟨read, hread, hloud⟩ := exists_read hstep hnifs hheard
  rw [hlast.made] at hread
  have hpositive := (hat.positive hrun
    ⟨read, hread, fun h => hloud ((silent_congr hlast.listening _ _).mp h)⟩).1
  have hquiet : r.receivedRequestFromCliClient = false := by
    rw [← Bool.not_eq_true, (receivePass_result hrun).2.2, hat.unasked, hlast.listening]
    exact fun h => hunasked last hmem (h.resolve_left Bool.false_ne_true)
  have hsettings : nnd.settings = e.before.settings :=
    congrArg Listening.settings hlast.listening
  rw [← hsettings]
  exact UInt32.not_lt.mp fun hlt => hlast.stops ⟨hpositive, hlt, hquiet⟩

/-- Where entries are not kept for longer than an iteration listens, one that has heard
something and is not asked leaves only what it has heard itself. -/
theorem lookup_listened (hstep : runIteration host e.input e.before = .ok (e.after, e.output))
    (hnifs : e.input.nifs ≠ []) (hheard : e.output.received ≠ [])
    (hunasked : ∀ pass ∈ passesMade e, ¬ e.before.listening.Asks pass)
    (hperiods : e.before.settings.neighborActivityPeriodS ≤ e.before.settings.sendingPeriodS)
    (hclock : ∀ pass ∈ passesMade e,
      e.input.receiveStart ≤ pass.now ∧ pass.now < e.input.removeNow)
    {mac : Bytes} (hold : ∀ x, e.before.neighbors.lookup mac = some x →
      x.2 ≤ e.input.receiveStart) :
    e.after.neighbors.lookup mac =
      (writes host e mac).filter (isFresh e.before.settings e.input.removeNow) := by
  obtain ⟨last, hmem, hlisten⟩ := listens_on hstep hnifs hheard hunasked fun pass hpass =>
    (hclock pass hpass).1
  have hremove := (hclock last hmem).2
  have hkeeps : keeps e.before.settings e mac = isFresh e.before.settings e.input.removeNow := by
    funext x
    exact Bool.or_eq_right_iff_imp.mpr fun h => absurd (of_decide_eq_true h) hnifs
  rw [lookup_step hstep mac, hkeeps]
  cases hwrite : writes host e mac with
  | some x => rfl
  | none =>
    rw [Option.none_or, Option.filter_none, Option.filter_eq_none_iff]
    intro x hx hfresh
    have hage := of_decide_eq_true hfresh
    have hwrote := hold x hx
    have hle := UInt32.le_iff_toNat_le.mp hperiods
    unfold seconds at hage hlisten
    omega

end Duration

end NeighborDiscovery
