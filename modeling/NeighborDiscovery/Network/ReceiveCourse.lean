/-
The course of the receive loop.

The loop goes on over the first passes of its environment, as long as each of them
ends, brings data within the sending period and brings no request.  The pass after
these either ends the loop, or does not end and is the reason of its fault.
-/
import NeighborDiscovery.Network.Listening

namespace NeighborDiscovery

/-! ## Going on -/

namespace Listening

variable (l : Listening) (nifs : List NetInterface) (host : Host) (env : Env) (logging : Bool)

/-- The loop makes another pass after this one. -/
def Continues (bytes : Int) (pass : Pass) : Prop :=
  l.received nifs pass bytes > 0 ∧ receiveTimePassedS env pass < l.settings.sendingPeriodS ∧
    ¬ l.Asks pass

def receivedAll (bytes : Int) (passes : List Pass) : Int :=
  passes.foldl (fun bytes pass => l.received nifs pass bytes) bytes

def GoesOn : Int → List Pass → Prop
  | _, [] => True
  | bytes, pass :: passes =>
    l.PassEnds nifs host pass bytes logging ∧ l.Continues nifs env bytes pass ∧
      GoesOn (l.received nifs pass bytes) passes

variable {l nifs host env logging}

/-- Either the loop goes on over all passes, or there is a first one it stops at. -/
theorem goesOn_or_stops (bytes : Int) (passes : List Pass) :
    l.GoesOn nifs host env logging bytes passes ∨
      ∃ before pass after, passes = before ++ pass :: after ∧
        l.GoesOn nifs host env logging bytes before ∧
        ¬ (l.PassEnds nifs host pass (l.receivedAll nifs bytes before) logging ∧
          l.Continues nifs env (l.receivedAll nifs bytes before) pass) := by
  induction passes generalizing bytes with
  | nil => exact Or.inl trivial
  | cons pass passes ih =>
    by_cases hon : l.PassEnds nifs host pass bytes logging ∧ l.Continues nifs env bytes pass
    · rcases ih (l.received nifs pass bytes) with hall | ⟨before, stop, after, rfl, hbefore, hstop⟩
      · exact Or.inl ⟨hon.1, hon.2, hall⟩
      · exact Or.inr ⟨pass :: before, stop, after, rfl, ⟨hon.1, hon.2, hbefore⟩, hstop⟩
    · exact Or.inr ⟨[], pass, passes, rfl, trivial, hon⟩

end Listening

section Course

variable {host : Host} {env : Env} {nnd : NetworkNeighborDiscoverer} {nifs : List NetInterface}
  {logging : Bool} {r : Reception}

theorem Receives.nil : Receives host nnd nifs [] r r :=
  ⟨rfl, [], (List.append_nil _).symm, rfl⟩

theorem exists_logger (logging : Bool) : ∃ logger : Logger, logger.isSome = logging := by
  cases logging
  · exact ⟨none, rfl⟩
  · exact ⟨some [], rfl⟩

theorem receivePass_receives {pass : Pass} {r' : Reception}
    (h : ∀ logger : Logger, logger.isSome = logging →
      Logging.Yields (receivePass host nnd nifs pass r) logger (.ok r')) :
    Receives host nnd nifs [pass] r r' := by
  obtain ⟨logger, hlogger⟩ := exists_logger logging
  obtain ⟨logger', hrun, -⟩ := h logger hlogger
  exact receivePass_ok host hrun

/-- The state in which the loop comes to the passes that are left. -/
structure ComesTo (host : Host) (env : Env) (nnd : NetworkNeighborDiscoverer)
    (nifs : List NetInterface) (logging : Bool) (before : List Pass) (r r₁ : Reception) : Prop where
  loop : ∀ {rest : List Pass} {o : Except Fault Reception} (logger : Logger),
    logger.isSome = logging →
    (∀ logger₁, logger₁.isSome = logging →
      Logging.Yields (receiveLoop host env nnd nifs rest r₁) logger₁ o) →
    Logging.Yields (receiveLoop host env nnd nifs (before ++ rest) r) logger o
  request : r₁.receivedRequestFromCliClient = false
  bytes : r₁.receivedBytes = nnd.listening.receivedAll nifs r.receivedBytes before
  receives : Receives host nnd nifs before r r₁

theorem receiveLoop_advance {before : List Pass} (hrequest : r.receivedRequestFromCliClient = false)
    (hgoes : nnd.listening.GoesOn nifs host env logging r.receivedBytes before) :
    ∃ r₁, ComesTo host env nnd nifs logging before r r₁ := by
  induction before generalizing r with
  | nil => exact ⟨r, fun logger hlogger hrest => hrest logger hlogger, hrequest, rfl, .nil⟩
  | cons pass before ih =>
    obtain ⟨hends, hcontinues, hrest⟩ := hgoes
    obtain ⟨r₁, hpass, hbytes, hasks, -⟩ := receivePass_ends hends
    rw [← hbytes] at hrest
    have hnot : r₁.receivedRequestFromCliClient = false := by
      refine Bool.eq_false_iff.mpr fun htrue => ?_
      rcases hasks.mp htrue with hold | hnew
      · rw [hrequest] at hold
        cases hold
      · exact hcontinues.2.2 hnew
    obtain ⟨r₂, hcomes⟩ := ih hnot hrest
    refine ⟨r₂, fun {rest o} logger hlogger hend => ?_, hcomes.request, ?_,
      (receivePass_receives hpass).append host hcomes.receives⟩
    · show Logging.Yields (receiveLoop host env nnd nifs (pass :: (before ++ rest)) r) logger o
      unfold receiveLoop
      refine (hpass logger hlogger).bind fun logger₁ hlogger₁ => ?_
      rw [if_pos ⟨by rw [hbytes]; exact hcontinues.1, hcontinues.2.1, hnot⟩]
      exact hcomes.loop logger₁ (hlogger₁.trans hlogger) hend
    · rw [hcomes.bytes, hbytes]
      rfl

/-- A pass that does not end is the reason for the fault of the loop. -/
theorem receiveLoop_fault {before after : List Pass} {pass : Pass}
    (hgoes : nnd.listening.GoesOn nifs host env logging 0 before)
    (h : ¬ nnd.listening.PassEnds nifs host pass
      (nnd.listening.receivedAll nifs 0 before) logging) :
    ∃ e, (∀ logger : Logger, logger.isSome = logging → Logging.Yields
        (receiveLoop host env nnd nifs (before ++ pass :: after) .start) logger (.error e)) ∧
      nnd.listening.PassFault nifs host pass
        (nnd.listening.receivedAll nifs 0 before) logging e := by
  obtain ⟨r₁, hcomes⟩ := receiveLoop_advance (r := .start) rfl hgoes
  rw [show nnd.listening.receivedAll nifs 0 before = r₁.receivedBytes from hcomes.bytes.symm] at h ⊢
  obtain ⟨e, hfault, hreason⟩ := receivePass_fault h
  refine ⟨e, fun logger hlogger => hcomes.loop logger hlogger fun logger₁ hlogger₁ => ?_, hreason⟩
  unfold receiveLoop
  exact (hfault logger₁ hlogger₁).fault

/-- A pass after which the loop does not go on leaves its request to be answered. -/
theorem receiveLoop_stop {before after : List Pass} {pass : Pass}
    (hgoes : nnd.listening.GoesOn nifs host env logging 0 before)
    (hends : nnd.listening.PassEnds nifs host pass
      (nnd.listening.receivedAll nifs 0 before) logging)
    (hstop : ¬ nnd.listening.Continues nifs env
      (nnd.listening.receivedAll nifs 0 before) pass) :
    ∃ r', (∀ logger : Logger, logger.isSome = logging → Logging.Yields
        (receiveLoop host env nnd nifs (before ++ pass :: after) .start) logger (.ok r')) ∧
      (r'.receivedRequestFromCliClient = true ↔ nnd.listening.Asks pass) ∧
      (∀ client, nnd.listening.accepted pass = some client →
        r'.clientSocket = some ⟨client.fd, [], false⟩) ∧
      Receives host nnd nifs (before ++ [pass]) .start r' := by
  obtain ⟨r₁, hcomes⟩ := receiveLoop_advance (r := .start) rfl hgoes
  rw [show nnd.listening.receivedAll nifs 0 before = r₁.receivedBytes from hcomes.bytes.symm]
    at hends hstop
  obtain ⟨r', hpass, hbytes, hasks, hsocket⟩ := receivePass_ends hends
  have hasks : r'.receivedRequestFromCliClient = true ↔ nnd.listening.Asks pass := by
    rw [hasks, hcomes.request]
    exact or_iff_right (by decide)
  refine ⟨r', fun logger hlogger => hcomes.loop logger hlogger fun logger₁ hlogger₁ => ?_, hasks,
    hsocket, hcomes.receives.append host (receivePass_receives hpass)⟩
  unfold receiveLoop
  refine (hpass logger₁ hlogger₁).bind fun logger₂ _ => ?_
  have hcond : ¬ (r'.receivedBytes > 0 ∧
      receiveTimePassedS env pass < nnd.settings.sendingPeriodS ∧
        r'.receivedRequestFromCliClient = false) := by
    intro hcond
    refine hstop ⟨by rw [← hbytes]; exact hcond.1, hcond.2.1, fun hnew => ?_⟩
    rw [hasks.mpr hnew] at hcond
    cases hcond.2.2
  rw [if_neg hcond]
  exact Logging.yields_pure r'

theorem receiveLoop_waits {passes : List Pass}
    (hgoes : nnd.listening.GoesOn nifs host env logging 0 passes) {logger : Logger}
    (hlogger : logger.isSome = logging) :
    Logging.Yields (receiveLoop host env nnd nifs passes .start) logger (.error .waiting) := by
  obtain ⟨r₁, hcomes⟩ := receiveLoop_advance (r := .start) rfl hgoes
  have hloop : Logging.Yields (receiveLoop host env nnd nifs (passes ++ []) .start) logger
      (.error .waiting) := hcomes.loop logger hlogger fun _ _ => Logging.yields_lift rfl
  rw [List.append_nil] at hloop
  exact hloop

end Course

/-! ## The clients -/

namespace Listening

/-- The socket made for the client a pass accepts. -/
def acceptedSocket (l : Listening) (pass : Pass) : Option UnixSocket :=
  (l.accepted pass).map fun client => ⟨client.fd, [], false⟩

end Listening

section Clients

variable {host : Host} {env : Env} {nnd : NetworkNeighborDiscoverer} {nifs : List NetInterface}
  {r r' : Reception} {logger logger' : Logger}

theorem acceptRequest_client {pass : Pass} {client : Option UnixSocket}
    (h : acceptRequest nnd pass r logger = .ok ((r', client), logger')) :
    client = nnd.listening.acceptedSocket pass := by
  unfold Listening.acceptedSocket
  cases haccepted : nnd.listening.accepted pass with
  | none =>
    obtain ⟨heq, -⟩ := (acceptRequest_none haccepted).kept h
    cases heq
    rfl
  | some accepted =>
    have hends : ∃ r₁, Logging.Yields (acceptRequest nnd pass r) logger
        (.ok (r₁, some ⟨accepted.fd, [], false⟩)) := by
      by_cases hread : ∃ pending, accepted.result = some (.read pending)
      · obtain ⟨pending, hresult⟩ := hread
        exact ⟨_, acceptRequest_read haccepted hresult⟩
      · by_cases hfailed : accepted.result = some .failed
        · by_cases hlogger : logger.isSome = true
          · exact absurd h ((acceptRequest_unread haccepted hfailed hlogger).not_ok _)
          · exact ⟨_, acceptRequest_unlogged haccepted hfailed (Bool.eq_false_iff.mpr hlogger)⟩
        · have hwaits := @acceptRequest_waits nnd pass r logger accepted haccepted
            (fun pending hresult => hread ⟨pending, hresult⟩) hfailed
          exact absurd h (hwaits.not_ok _)
    obtain ⟨r₁, hyields⟩ := hends
    obtain ⟨heq, -⟩ := hyields.kept h
    cases heq
    rfl

theorem receivePass_client {pass : Pass}
    (h : receivePass host nnd nifs pass r logger = .ok (r', logger')) :
    r'.passes.map PassTrace.client =
      r.passes.map PassTrace.client ++ [nnd.listening.acceptedSocket pass] := by
  unfold receivePass at h
  obtain ⟨⟨r₁, buff6⟩, _, h6, h⟩ := Logging.bind_eq_ok.mp h
  obtain ⟨⟨r₂, buff4⟩, _, h4, h⟩ := Logging.bind_eq_ok.mp h
  obtain ⟨⟨r₃, client⟩, _, hclient, h⟩ := Logging.bind_eq_ok.mp h
  cases h
  show (r₃.passes ++ _).map _ = _
  rw [(acceptRequest_ok hclient).2, (receiveIPv4_ok host h4).passes,
    (receiveIPv6_ok host h6).passes, List.map_append, ← acceptRequest_client hclient]
  rfl

/-- The loop accepts clients in the passes it makes and in no others. -/
theorem receiveLoop_clients {passes : List Pass}
    (h : receiveLoop host env nnd nifs passes r logger = .ok (r', logger')) :
    ∃ made rest, passes = made ++ rest ∧ r'.passes.map PassTrace.client =
      r.passes.map PassTrace.client ++ made.map nnd.listening.acceptedSocket := by
  induction passes generalizing r logger with
  | nil => cases (Logging.lift_eq_ok.mp h).1
  | cons pass passes ih =>
    unfold receiveLoop at h
    obtain ⟨r₁, logger₁, hpass, h⟩ := Logging.bind_eq_ok.mp h
    have hone := receivePass_client hpass
    split at h
    · obtain ⟨made, rest, hsplit, hclients⟩ := ih h
      refine ⟨pass :: made, rest, by rw [hsplit, List.cons_append], ?_⟩
      rw [hclients, hone, List.append_assoc]
      rfl
    · cases h
      exact ⟨[pass], passes, rfl, hone⟩

/-- A loop known to have made some passes has accepted their clients. -/
theorem receiveLoop_made {made rest : List Pass}
    (h : receiveLoop host env nnd nifs (made ++ rest) .start logger = .ok (r', logger'))
    (hreceives : Receives host nnd nifs made .start r') :
    r'.passes.map PassTrace.client = made.map nnd.listening.acceptedSocket := by
  obtain ⟨made', rest', hsplit, hclients⟩ := receiveLoop_clients h
  obtain ⟨traces, htraces, hreceived⟩ := hreceives.passes
  have hlen := congrArg List.length hclients
  have hlen' := congrArg List.length hreceived
  have hstart : Reception.start.passes = [] := rfl
  rw [htraces] at hlen
  simp only [hstart, List.map_nil, List.nil_append, List.length_map] at hlen hlen'
  have hmade : made = made' := (List.append_inj hsplit (by omega)).1
  rw [hclients, hmade]
  rfl

end Clients

end NeighborDiscovery
