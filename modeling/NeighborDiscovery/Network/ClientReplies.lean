/-
Who is sent the neighbour list.

A pass overwrites the socket of the client before, and the loop ends with the pass
that recognises a request.  So the socket an iteration answers on is that of the
client that asked, and an iteration without a request does not depend on what
`write` would return.
-/
import NeighborDiscovery.Network.RequestAnswer

namespace NeighborDiscovery

/-- The iteration calls `write` nowhere: it is the same whatever `write` would return,
and it ends without a reply. -/
def SendsNothing (host : Host) (env : Env) (nnd : NetworkNeighborDiscoverer) : Prop :=
  (∀ writes, runIteration host { env with writes := writes } nnd = runIteration host env nnd) ∧
    ∀ nnd' out, runIteration host env nnd = .ok (nnd', out) → out.reply = none

/-- The iteration is a call of `send` on one client's socket: that of the client whose
read returned the request, accepted in the last pass made. -/
structure Sends (host : Host) (env : Env) (nnd : NetworkNeighborDiscoverer)
    (before : List Pass) (pass : Pass) (client : Client) : Prop where
  reaches : Reaches host env nnd.listening nnd.logger.isSome before pass
  accepted : nnd.listening.accepted pass = some client
  request : (⟨client.fd, [], false⟩ : UnixSocket).receiveString requestSize client.reads =
    .ok (.ofData nnd.localSettings.requestString)
  sends : ∃ nnd' out logger,
    out.passes.map PassTrace.client = (before ++ [pass]).map nnd.listening.acceptedSocket ∧
      runIteration host env nnd = sendReply env nnd' out ⟨client.fd, [], false⟩
        (serializeNetInterfaces host.order [] (nnd'.neighbors.data env.dataOrder)) logger

section Replies

variable {host : Host} {env : Env} {nnd : NetworkNeighborDiscoverer}

/-- No pass before one that the loop comes to brings a request. -/
theorem goesOn_unasked {l : Listening} {nifs : List NetInterface} {logging : Bool} {bytes : Int}
    {before : List Pass} (h : l.GoesOn nifs host env logging bytes before) :
    ∀ earlier ∈ before, ¬ l.Asks earlier := by
  induction before generalizing bytes with
  | nil => exact fun earlier hmem => absurd hmem List.not_mem_nil
  | cons pass before ih =>
    obtain ⟨-, hcontinues, hrest⟩ := h
    exact List.forall_mem_cons.mpr ⟨hcontinues.2.2, ih hrest⟩

theorem receiveString_asks {pass : Pass} {client : Client}
    (haccepted : nnd.listening.accepted pass = some client) (hasks : nnd.listening.Asks pass) :
    (⟨client.fd, [], false⟩ : UnixSocket).receiveString requestSize client.reads =
      .ok (.ofData nnd.localSettings.requestString) := by
  obtain ⟨pending, hresult, hrequest⟩ := (Listening.asks_iff haccepted).mp hasks
  show UnixSocket.readString requestSize client.reads = _
  rw [client.readString_eq, hresult]
  dsimp only
  rw [hrequest]
  rfl

/-! ## What does not depend on `write` -/

variable {sentIPv6 : List (Sent .inet6)} {sentIPv4 : List (Sent .inet)} {logger : Logger}

theorem receiveLoop_writes (writes : List WriteResult) (nifs : List NetInterface)
    (passes : List Pass) (r : Reception) :
    receiveLoop host { env with writes := writes } nnd nifs passes r =
      receiveLoop host env nnd nifs passes r := by
  induction passes generalizing r with
  | nil => rfl
  | cons pass passes ih =>
    unfold receiveLoop
    simp only [ih]
    rfl

/-- The loop leaves nothing to answer: it faults, its table faults, or it brings no
request. -/
def Unanswered (host : Host) (env : Env) (nnd : NetworkNeighborDiscoverer) (logger : Logger) :
    Prop :=
  ∀ r logger', receiveLoop host env nnd env.nifs env.passes .start logger = .ok (r, logger') →
    r.receivedRequestFromCliClient = false ∨
      ∃ e, updateNeighbors host env nnd env.nifs r.receivedNifs = .error e

/-- How such an iteration ends, with no mention of `write`. -/
theorem receiveAndReply_unanswered (h : Unanswered host env nnd logger) :
    ∃ o : Except Fault ((NetworkNeighborDiscoverer × Output) × Logger),
      (∀ nnd' out logger', o = .ok ((nnd', out), logger') → out.reply = none) ∧
      ∀ writes, receiveAndReply host { env with writes := writes } nnd sentIPv6 sentIPv4 logger =
        o := by
  cases hloop : receiveLoop host env nnd env.nifs env.passes .start logger with
  | error e =>
    refine ⟨.error e, fun _ _ _ ho => (by cases ho), fun writes => ?_⟩
    unfold receiveAndReply
    rw [receiveLoop_writes, Logging.bind_apply]
    show receiveLoop host env nnd env.nifs env.passes .start logger >>= _ = _
    rw [hloop]
    rfl
  | ok p =>
    obtain ⟨r, logger'⟩ := p
    have hrest : ∀ writes, receiveAndReply host { env with writes := writes } nnd sentIPv6 sentIPv4
        logger = (do
          let neighbors ← liftM (updateNeighbors host env nnd env.nifs r.receivedNifs)
          let answer ← reply host { env with writes := writes }
            { nnd with neighbors := neighbors } r
          pure ({ nnd with neighbors := neighbors, prevNifs := env.nifs },
            ⟨sentIPv6, sentIPv4, r.passes, answer⟩) : Logging _) logger' := by
      intro writes
      unfold receiveAndReply
      rw [receiveLoop_writes]
      exact Logging.bind_run hloop
    simp only [hrest, Logging.lift_bind]
    cases htable : updateNeighbors host env nnd env.nifs r.receivedNifs with
    | error e => exact ⟨.error e, fun _ _ _ ho => (by cases ho), fun _ => rfl⟩
    | ok neighbors =>
      have hunasked : r.receivedRequestFromCliClient = false := by
        rcases h r logger' hloop with hfalse | ⟨e, he⟩
        · exact hfalse
        · rw [htable] at he
          cases he
      refine ⟨.ok (({ nnd with neighbors := neighbors, prevNifs := env.nifs },
        ⟨sentIPv6, sentIPv4, r.passes, none⟩), logger'), fun _ _ _ ho => ?_, fun writes => ?_⟩
      · cases ho
        rfl
      · rw [Fallible.ok_bind, reply_unasked_eq hunasked]
        rfl

/-- Either nothing is left to answer, or the last pass made is that of a client that
asked, and the table is there to answer with. -/
theorem unanswered_or_asked (host : Host) (env : Env) (nnd : NetworkNeighborDiscoverer)
    (logger : Logger) :
    Unanswered host env nnd logger ∨
      ∃ before pass client neighbors, Asked host env nnd.listening logger.isSome before pass client ∧
        updateNeighbors host env nnd env.nifs
          (collected host nnd.listening env.nifs (before ++ [pass])) = .ok neighbors := by
  rcases @Listening.goesOn_or_stops nnd.listening env.nifs host env logger.isSome 0 env.passes with
    hall | ⟨before, pass, after, hpasses, hbefore, hstop⟩
  · refine Or.inl fun r logger' hloop => ?_
    exact absurd hloop ((receiveLoop_waits hall rfl).not_ok _)
  · by_cases hends : PassEndsAfter host env nnd.listening logger.isSome before pass
    · obtain ⟨r, hyields, hrequest, -, hreceives⟩ :=
        @receiveLoop_stop host env nnd env.nifs logger.isSome before after pass hbefore hends
          fun hcontinues => hstop ⟨hends, hcontinues⟩
      have hyields := hyields logger rfl
      rw [← hpasses] at hyields
      have hsame : ∀ r' logger', receiveLoop host env nnd env.nifs env.passes .start logger =
          .ok (r', logger') → r = r' := fun r' logger' hloop => (hyields.kept hloop).1
      by_cases hasks : nnd.listening.Asks pass
      · cases htable : updateNeighbors host env nnd env.nifs r.receivedNifs with
        | error e =>
          refine Or.inl fun r' logger' hloop => Or.inr ⟨e, ?_⟩
          rw [← hsame r' logger' hloop]
          exact htable
        | ok neighbors =>
          obtain ⟨client, pending, haccepted, -⟩ := id hasks
          rw [collected_eq hreceives] at htable
          exact Or.inr ⟨before, pass, client, neighbors,
            ⟨⟨⟨after, hpasses⟩, hbefore⟩, hends, hasks, haccepted⟩, htable⟩
      · refine Or.inl fun r' logger' hloop => Or.inl ?_
        rw [← hsame r' logger' hloop]
        exact Bool.eq_false_iff.mpr fun htrue => hasks (hrequest.mp htrue)
    · obtain ⟨e, hfault, -⟩ :=
        @receiveLoop_fault host env nnd env.nifs logger.isSome before after pass hbefore hends
      have hfault := hfault logger rfl
      rw [← hpasses] at hfault
      exact Or.inl fun r' logger' hloop => absurd hloop (hfault.not_ok _)

/-! ## The iteration -/

theorem sendsNothing_of_iterate {o : Except Fault ((NetworkNeighborDiscoverer × Output) × Logger)}
    (hreply : ∀ nnd' out logger', o = .ok ((nnd', out), logger') → out.reply = none)
    (hiterate : ∀ writes, iterate host { env with writes := writes } nnd nnd.logger = o) :
    SendsNothing host env nnd := by
  have hiterate' : iterate host env nnd nnd.logger = o := hiterate env.writes
  constructor
  · intro writes
    unfold runIteration
    rw [hiterate writes, hiterate']
  · intro nnd' out hrun
    unfold runIteration at hrun
    rw [hiterate'] at hrun
    obtain ⟨⟨⟨nnd₁, out'⟩, logger'⟩, ho, hrun⟩ := Fallible.bind_eq_ok.mp hrun
    cases hrun
    exact hreply _ _ _ ho

theorem sendsNothing_idle (hnifs : env.nifs = []) : SendsNothing host env nnd := by
  cases hread : readInterfaces env nnd.logger with
  | error e =>
    refine sendsNothing_of_iterate (o := .error e) (fun _ _ _ ho => (by cases ho)) fun writes => ?_
    unfold iterate
    rw [Logging.bind_apply]
    show readInterfaces env nnd.logger >>= _ = _
    rw [hread]
    rfl
  | ok p =>
    obtain ⟨nifs, logger'⟩ := p
    have hnil : nifs = [] := (readInterfaces_ok hread).trans hnifs
    subst hnil
    refine sendsNothing_of_iterate (o := .ok (({ nnd with prevNifs := [] }, .none), logger'))
      (fun _ _ _ ho => ?_) fun writes => ?_
    · cases ho
      rfl
    · exact (Logging.bind_run (x := readInterfaces { env with writes := writes }) hread).trans rfl

/-- The neighbour list is sent to nobody, or to the client whose own read returned the
request.  No pass made before the last one brings a request. -/
theorem only_asker_answered (host : Host) (env : Env) (nnd : NetworkNeighborDiscoverer) :
    (SendsNothing host env nnd ∨ ∃ before pass client, Sends host env nnd before pass client) ∧
      ∀ before pass, Reaches host env nnd.listening nnd.logger.isSome before pass →
        ∀ earlier ∈ before, ¬ nnd.listening.Asks earlier := by
  refine ⟨?_, fun before pass hreaches => goesOn_unasked hreaches.goesOn⟩
  by_cases hnifs : env.nifs = []
  · exact Or.inl (sendsNothing_idle hnifs)
  · obtain ⟨nnd₁, sentIPv6, sentIPv4, logger₁, hlistening, hneighbors, hlogger, hiterate⟩ :=
      @iterate_receives host env nnd hnifs nnd.logger
    rcases unanswered_or_asked host env nnd₁ logger₁ with
      hunanswered | ⟨before, pass, client, neighbors, hasked, htable⟩
    · obtain ⟨o, hreply, ho⟩ := @receiveAndReply_unanswered host env nnd₁ sentIPv6 sentIPv4
        logger₁ hunanswered
      exact Or.inl (sendsNothing_of_iterate hreply fun writes => (hiterate writes).trans (ho writes))
    · rw [hlistening, hlogger] at hasked
      rw [updateNeighbors_congr hlistening hneighbors, hlistening] at htable
      obtain ⟨nnd', out, logger, hupdated, hclients, hrun⟩ := runIteration_asked hnifs hasked htable
      rw [← hupdated] at hrun
      exact Or.inr ⟨before, pass, client, hasked.reaches, hasked.accepted,
        receiveString_asks hasked.accepted hasked.asks, nnd', out, logger, hclients, hrun⟩

end Replies

end NeighborDiscovery
