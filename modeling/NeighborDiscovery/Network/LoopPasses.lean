/-
The passes of the receive loop, one after another.

`receivedBytes` counts what all passes have read, and no pass resets it.  After
one datagram the loop therefore polls its sockets, which do not block, until the
sending period is over or a client asks.
-/
import NeighborDiscovery.Network.DaemonRun
import NeighborDiscovery.Network.ReceiveCourse

namespace NeighborDiscovery

/-- The condition under which the loop makes another pass. -/
def GoesRound (env : Env) (nnd : NetworkNeighborDiscoverer) (pass : Pass) (r : Reception) : Prop :=
  r.receivedBytes > 0 ∧ receiveTimePassedS env pass < nnd.settings.sendingPeriodS ∧
    r.receivedRequestFromCliClient = false

/-- The loop starts a pass, having made the passes of a list. -/
inductive AtPass (host : Host) (env : Env) (nnd : NetworkNeighborDiscoverer)
    (nifs : List NetInterface) (start : Logger) : List Pass → Reception → Logger → Prop where
  | first : AtPass host env nnd nifs start [] .start start
  | next {before rest : List Pass} {pass : Pass} {r r' : Reception} {logger logger' : Logger} :
      AtPass host env nnd nifs start before r logger → env.passes = before ++ pass :: rest →
      receivePass host nnd nifs pass r logger = .ok (r', logger') → GoesRound env nnd pass r' →
      AtPass host env nnd nifs start (before ++ [pass]) r' logger'

section Passes

variable {host : Host} {env : Env} {nnd : NetworkNeighborDiscoverer} {nifs : List NetInterface}
  {start logger : Logger} {before rest : List Pass} {r : Reception}

/-- The loop at the start of a pass is the loop over the passes that are left. -/
theorem AtPass.receiveLoop_eq (h : AtPass host env nnd nifs start before r logger)
    (hpasses : env.passes = before ++ rest) :
    receiveLoop host env nnd nifs env.passes .start start =
      receiveLoop host env nnd nifs rest r logger := by
  induction h generalizing rest with
  | first =>
    rw [hpasses]
    rfl
  | @next before rest' pass r r' logger logger' _ hsplit hpass hround ih =>
    have hrest : rest' = rest := by
      have happend := hsplit.symm.trans hpasses
      rw [List.append_assoc, List.singleton_append] at happend
      exact (List.cons.inj (List.append_cancel_left happend)).2
    rw [ih hsplit, ← hrest]
    conv => lhs; unfold receiveLoop
    rw [Logging.bind_run hpass]
    exact congrFun (if_pos hround) logger'

theorem AtPass.passes (h : AtPass host env nnd nifs start before r logger) :
    ∃ rest, env.passes = before ++ rest := by
  cases h with
  | first => exact ⟨_, rfl⟩
  | @next before rest pass r r' logger logger' hat hpasses hrun hround =>
    exact ⟨rest, by rw [hpasses, List.append_assoc, List.singleton_append]⟩

/-- No request has been recognised where another pass starts. -/
theorem AtPass.unasked (h : AtPass host env nnd nifs start before r logger) :
    r.receivedRequestFromCliClient = false := by
  cases h with
  | first => rfl
  | next _ _ _ hround => exact hround.2.2

/-- A loop that ends has ended with the first pass after which it does not go round. -/
theorem receiveLoop_last {passes : List Pass} {r' : Reception} {logger' : Logger}
    (h : AtPass host env nnd nifs start before r logger) (hpasses : env.passes = before ++ passes)
    (hrun : receiveLoop host env nnd nifs passes r logger = .ok (r', logger')) :
    ∃ before' pass rest r₁ logger₁, env.passes = before' ++ pass :: rest ∧
      AtPass host env nnd nifs start before' r₁ logger₁ ∧
      receivePass host nnd nifs pass r₁ logger₁ = .ok (r', logger') ∧
      ¬ GoesRound env nnd pass r' := by
  induction passes generalizing before r logger with
  | nil => cases (Logging.lift_eq_ok.mp hrun).1
  | cons pass passes ih =>
    unfold receiveLoop at hrun
    obtain ⟨r₁, logger₁, hpass, hrun⟩ := Logging.bind_eq_ok.mp hrun
    split at hrun
    · rename_i hround
      refine ih (.next h hpasses hpass hround) ?_ hrun
      rw [hpasses, List.append_assoc, List.singleton_append]
    · rename_i hround
      cases hrun
      exact ⟨before, pass, passes, r, logger, hpasses, h, hpass, hround⟩

/-! ## Silent passes -/

/-- Neither receiver has a datagram for the pass. -/
def Silent (nnd : NetworkNeighborDiscoverer) (nifs : List NetInterface) (pass : Pass) : Prop :=
  passBuffers nnd nifs pass = []

theorem received_silent {pass : Pass} (h : Silent nnd nifs pass) (bytes : Int) :
    nnd.listening.received nifs pass bytes = bytes := by
  obtain ⟨h6, h4⟩ := List.append_eq_nil_iff.mp h
  have hgained : ∀ T, nnd.listening.buffer nifs pass T = none →
      nnd.listening.gained nifs pass T = 0 := by
    intro T hnone
    unfold Listening.gained
    rw [hnone]
    rfl
  unfold Listening.received
  rw [hgained .inet6 (Option.toList_eq_nil_iff.mp h6), hgained .inet (Option.toList_eq_nil_iff.mp h4)]
  omega

/-- A pass that ends adds the bytes it received and recognises the request it finds. -/
theorem receivePass_result {pass : Pass} {r' : Reception} {logger' : Logger}
    (hrun : receivePass host nnd nifs pass r logger = .ok (r', logger')) :
    nnd.listening.PassEnds nifs host pass r.receivedBytes logger.isSome ∧
      r'.receivedBytes = nnd.listening.received nifs pass r.receivedBytes ∧
      (r'.receivedRequestFromCliClient = true ↔
        r.receivedRequestFromCliClient = true ∨ nnd.listening.Asks pass) := by
  by_cases hends : nnd.listening.PassEnds nifs host pass r.receivedBytes logger.isSome
  · obtain ⟨r₁, hyields, hbytes, hrequest, -⟩ := receivePass_ends hends
    obtain ⟨rfl, -⟩ := (hyields logger rfl).kept hrun
    exact ⟨hends, hbytes, hrequest⟩
  · obtain ⟨e, hfault, -⟩ := receivePass_fault hends
    exact absurd hrun ((hfault logger rfl).not_ok _)

/-- The loop goes round after a pass exactly if what the pass found lets it go on. -/
theorem goesRound_iff {pass : Pass} {r' : Reception} {logger' : Logger}
    (hunasked : r.receivedRequestFromCliClient = false)
    (hrun : receivePass host nnd nifs pass r logger = .ok (r', logger')) :
    GoesRound env nnd pass r' ↔ nnd.listening.Continues nifs env r.receivedBytes pass := by
  obtain ⟨-, hbytes, hrequest⟩ := receivePass_result hrun
  have hasks : r'.receivedRequestFromCliClient = false ↔ ¬ nnd.listening.Asks pass := by
    rw [← Bool.not_eq_true, hrequest, hunasked, or_iff_right Bool.false_ne_true]
  unfold GoesRound Listening.Continues
  rw [hbytes, hasks]
  rfl

theorem goesOn_snoc {l : Listening} {logging : Bool} {bytes : Int} {pass : Pass} :
    l.GoesOn nifs host env logging bytes (before ++ [pass]) ↔
      l.GoesOn nifs host env logging bytes before ∧
        l.PassEnds nifs host pass (l.receivedAll nifs bytes before) logging ∧
        l.Continues nifs env (l.receivedAll nifs bytes before) pass := by
  induction before generalizing bytes with
  | nil => exact ⟨fun h => ⟨trivial, h.1, h.2.1⟩, fun h => ⟨h.2.1, h.2.2, trivial⟩⟩
  | cons first before ih =>
    show _ ∧ _ ∧ l.GoesOn nifs host env logging _ (before ++ [pass]) ↔ _
    rw [ih]
    exact ⟨fun h => ⟨⟨h.1, h.2.1, h.2.2.1⟩, h.2.2.2⟩, fun h => ⟨h.1.1, h.1.2.1, h.1.2.2, h.2⟩⟩

theorem receivedAll_append (l : Listening) (nifs : List NetInterface) (bytes : Int)
    (before after : List Pass) :
    l.receivedAll nifs bytes (before ++ after) =
      l.receivedAll nifs (l.receivedAll nifs bytes before) after := List.foldl_append

/-- Where the loop starts a pass, it has gone on over those before it. -/
theorem AtPass.goesOn (h : AtPass host env nnd nifs start before r logger) :
    nnd.listening.GoesOn nifs host env start.isSome 0 before ∧
      r.receivedBytes = nnd.listening.receivedAll nifs 0 before ∧
      logger.isSome = start.isSome := by
  induction h with
  | first => exact ⟨trivial, rfl, rfl⟩
  | @next before rest pass r r' logger logger' hat hpasses hrun hround ih =>
    obtain ⟨hgoes, hbytes, hlogger⟩ := ih
    obtain ⟨hends, hreceived, -⟩ := receivePass_result hrun
    have hcontinues := (goesRound_iff hat.unasked hrun).mp hround
    rw [hbytes, hlogger] at hends
    rw [hbytes] at hreceived hcontinues
    obtain ⟨r₁, hyields, -⟩ := receivePass_ends (r := r) (by rw [hbytes]; exact hends)
    have hkept := (hyields logger hlogger).kept hrun
    refine ⟨goesOn_snoc.mpr ⟨hgoes, hends, hcontinues⟩, ?_, hkept.2.trans hlogger⟩
    rw [receivedAll_append]
    exact hreceived

/-- A loop that goes on over some passes starts the next. -/
theorem exists_atPass (hpasses : env.passes = before ++ rest)
    (hgoes : nnd.listening.GoesOn nifs host env start.isSome 0 before) :
    ∃ r logger, AtPass host env nnd nifs start before r logger := by
  induction before using List.reverseRecOn generalizing rest with
  | nil => exact ⟨_, _, .first⟩
  | append_singleton before pass ih =>
    obtain ⟨hgoes, hends, hcontinues⟩ := goesOn_snoc.mp hgoes
    rw [List.append_assoc, List.singleton_append] at hpasses
    obtain ⟨r, logger, hat⟩ := ih hpasses hgoes
    obtain ⟨-, hbytes, hlogger⟩ := hat.goesOn
    rw [← hbytes] at hends hcontinues
    obtain ⟨r', hyields, -⟩ := receivePass_ends hends
    obtain ⟨logger', hrun, -⟩ := hyields logger hlogger
    exact ⟨r', logger', .next hat hpasses hrun ((goesRound_iff hat.unasked hrun).mpr hcontinues)⟩

/-- Every pass after which the loop starts another one has read a datagram. -/
def StopsWhenSilent (host : Host) (env : Env) (nnd : NetworkNeighborDiscoverer)
    (nifs : List NetInterface) (start : Logger) : Prop :=
  ∀ before pass r logger, AtPass host env nnd nifs start (before ++ [pass]) r logger →
    ¬ Silent nnd nifs pass

/-- Every silent pass that the loop comes to after a datagram, and that ends without a
request, is past the sending period. -/
def SilenceIsLate (host : Host) (env : Env) (nnd : NetworkNeighborDiscoverer)
    (nifs : List NetInterface) (logging : Bool) : Prop :=
  ∀ before pass rest, env.passes = before ++ pass :: rest →
    nnd.listening.GoesOn nifs host env logging 0 before → Silent nnd nifs pass →
    0 < nnd.listening.receivedAll nifs 0 before →
    nnd.listening.PassEnds nifs host pass (nnd.listening.receivedAll nifs 0 before) logging →
    ¬ nnd.listening.Asks pass → nnd.settings.sendingPeriodS ≤ receiveTimePassedS env pass

theorem stopsWhenSilent_iff (host : Host) (env : Env) (nnd : NetworkNeighborDiscoverer)
    (nifs : List NetInterface) (start : Logger) :
    StopsWhenSilent host env nnd nifs start ↔
      SilenceIsLate host env nnd nifs start.isSome := by
  constructor
  · intro hstops before pass rest hpasses hgoes hsilent hbytes hends hasks
    by_contra hperiod
    have hon : nnd.listening.GoesOn nifs host env start.isSome 0 (before ++ [pass]) := by
      refine goesOn_snoc.mpr ⟨hgoes, hends, ?_, UInt32.not_le.mp hperiod, hasks⟩
      rw [received_silent hsilent]
      exact hbytes
    rw [List.append_cons] at hpasses
    obtain ⟨r, logger, hat⟩ := exists_atPass hpasses hon
    exact hstops before pass r logger hat hsilent
  · intro hlate before pass r logger hat hsilent
    obtain ⟨hgoes, hends, hbytes, hperiod, hasks⟩ := goesOn_snoc.mp hat.goesOn.1
    obtain ⟨rest, hpasses⟩ := hat.passes
    rw [List.append_assoc, List.singleton_append] at hpasses
    rw [received_silent hsilent] at hbytes
    have hover := hlate before pass rest hpasses hgoes hsilent hbytes hends hasks
    exact absurd hperiod (UInt32.not_lt.mpr hover)

end Passes

namespace Small

theorem announced_fits : (announcement host [remote]).length ≤ 65535 := by decide

/-- A datagram in the first second, and silence after it. -/
def thenSilence : Env :=
  env [eth0] [⟨some ⟨announcement host [remote], text "fe80::2", announced_fits⟩, none, none, 1⟩,
    noTraffic, noTraffic] 0

end Small

set_option maxRecDepth 10000 in
/-- The second pass finds nothing, and the loop starts a third. -/
theorem silence_polled :
    (∃ r logger, AtPass Small.host Small.thenSilence Small.init [Small.eth0] (some [])
        (Small.thenSilence.passes.take 2) r logger) ∧
      Silent Small.init [Small.eth0] Small.noTraffic ∧
      ¬ StopsWhenSilent Small.host Small.thenSilence Small.init [Small.eth0] (some []) := by
  have hat : ∃ r logger, AtPass Small.host Small.thenSilence Small.init [Small.eth0] (some [])
      (Small.thenSilence.passes.take 2) r logger :=
    ⟨_, _, .next (.next .first rfl rfl ⟨by decide, by decide, rfl⟩) rfl rfl
      ⟨by decide, by decide, rfl⟩⟩
  refine ⟨hat, rfl, fun hstops => ?_⟩
  obtain ⟨r, logger, htwo⟩ := hat
  exact hstops [_] Small.noTraffic r logger htwo rfl

end NeighborDiscovery
