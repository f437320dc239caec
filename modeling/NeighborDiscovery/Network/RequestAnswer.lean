/-
A waiting request and its answer.

An iteration that ends its receive loop with a request comes down to one call of
`send` on the socket of the client, with the table it has just updated.  A request
that waits when the iteration starts is found by the first pass.
-/
import NeighborDiscovery.Network.IterationFaults
import NeighborDiscovery.Network.LengthFields
import NeighborDiscovery.Network.Truncation

namespace NeighborDiscovery

open NetInterfaceManager

section Answer

variable {host : Host} {env : Env} {nnd : NetworkNeighborDiscoverer}

/-- The end of an iteration that answers: the call of `send` and the line about it. -/
def sendReply (env : Env) (nnd : NetworkNeighborDiscoverer) (out : Output) (client : UnixSocket)
    (clientSBuff : Bytes) (logger : Logger) :
    Except Fault (NetworkNeighborDiscoverer × Output) := do
  let (sendReturn, handed) ← client.send clientSBuff env.writes
  let (_, logger) ← logReply sendReturn logger
  return ({ nnd with logger := logger }, { out with reply := some ⟨client, clientSBuff, handed⟩ })

/-- An iteration whose loop ends with a request is a call of `send` with the new table. -/
theorem runIteration_asked {before : List Pass} {pass : Pass} {client : Client}
    {neighbors : IndexedTimedSet Bytes NetInterface} (hnifs : env.nifs ≠ [])
    (hasked : Asked host env nnd.listening nnd.logger.isSome before pass client)
    (htable : updateNeighbors host env nnd env.nifs
      (collected host nnd.listening env.nifs (before ++ [pass])) = .ok neighbors) :
    ∃ nnd' out logger, nnd'.neighbors = neighbors ∧
      out.passes.map PassTrace.client = (before ++ [pass]).map nnd.listening.acceptedSocket ∧
      runIteration host env nnd = sendReply env nnd' out ⟨client.fd, [], false⟩
        (serializeNetInterfaces host.order [] (neighbors.data env.dataOrder)) logger := by
  obtain ⟨nnd₁, sentIPv6, sentIPv4, logger₁, hlistening, hneighbors, hlogger, hiterate⟩ :=
    @iterate_discovers host env nnd hnifs nnd.logger
  rw [← hlistening, ← hlogger] at hasked
  rw [← updateNeighbors_congr hlistening hneighbors, ← hlistening] at htable
  obtain ⟨passes, logger₂, hclients, -, hrun⟩ := @receiveAndReply_answers host env nnd₁ sentIPv6 sentIPv4
    logger₁ before pass client neighbors hasked htable
  rw [hlistening] at hclients
  refine ⟨{ nnd₁ with neighbors := neighbors, prevNifs := env.nifs },
    ⟨sentIPv6, sentIPv4, passes, none⟩, logger₂, rfl, hclients, ?_⟩
  unfold runIteration sendReply
  rw [hiterate, hrun, Logging.lift_bind]
  cases (⟨client.fd, [], false⟩ : UnixSocket).send
      (serializeNetInterfaces host.order [] (neighbors.data env.dataOrder)) env.writes with
  | error e => rfl
  | ok p =>
    obtain ⟨sendReturn, handed⟩ := p
    simp only [Fallible.ok_bind]
    rw [Logging.bind_apply]
    cases logReply sendReturn logger₂ with
    | error e => rfl
    | ok q => rfl

/-! ## A request that waits -/

theorem halfEnds_of {l : Listening} {nifs : List NetInterface} {pass : Pass} {T : Family}
    {bytes : Int} (hreceiver : ¬ l.LacksReceiver nifs T)
    (hsizes : ∀ buff, l.buffer nifs pass T = some buff → ¬ OversizedLength host.order host.lim buff)
    (hbytes : 0 ≤ bytes ∧ bytes ≤ 65535) : l.HalfEnds nifs host pass bytes T := by
  refine ⟨hreceiver, fun buff hbuffer => ⟨?_, ?_⟩⟩
  · obtain ⟨-, incoming, -, hbuff⟩ := filled_eq_some hbuffer
    have hlen := length_receive l.settings.maxBufferSize incoming
    have hmax := l.settings.maxBufferSize.toNat_lt
    rw [← hbuff] at hlen
    have hfaults := (netInterfaces_reads host.order host.lim).faults
      (show buff.length < 2 ^ 63 by omega) (Nat.zero_le buff.length)
    rw [view_faults, netInterfaces_overflows] at hfaults
    cases hrun : (deserializeNetInterfaces host.order host.lim buff).run 0 with
    | error e => exact absurd (hfaults.mp ⟨e, hrun⟩) (hsizes buff hbuffer)
    | ok p => exact ⟨p.1, decode_eq_ok.mpr ⟨p.2, hrun⟩⟩
  · have hgained := gained_bounds l nifs pass T
    exact ⟨_, if_pos (by omega)⟩

theorem request_answered {pass : Pass} {after : List Pass} {server : UnixSocket} {client : Client}
    (hnifs : env.nifs ≠ []) (hserver : nnd.unixDomainServer = some server)
    (hpasses : env.passes = pass :: after) (hclient : pass.client = some client)
    (haccept : (server.acceptClient (some client.fd)).isOk = true)
    (hwritten : client.result = some (.read nnd.localSettings.requestString))
    (hlength : nnd.localSettings.requestString.length ≤ 32)
    (hreceivers : ∀ T, ¬ nnd.listening.LacksReceiver env.nifs T)
    (hsizes : ∀ T buff, nnd.listening.buffer env.nifs pass T = some buff →
      ¬ OversizedLength host.order host.lim buff)
    (hprefixes : ∀ nif ∈ env.nifs, PrefixesFit nif) :
    ∃ nnd' out logger, updateNeighbors host env nnd env.nifs
        (collected host nnd.listening env.nifs [pass]) = .ok nnd'.neighbors ∧
      runIteration host env nnd = sendReply env nnd' out ⟨client.fd, [], false⟩
        (serializeNetInterfaces host.order [] (nnd'.neighbors.data env.dataOrder)) logger := by
  have haccepted : nnd.listening.accepted pass = some client := by
    unfold Listening.accepted
    rw [show nnd.listening.server = some server from hserver, hclient]
    exact if_pos haccept
  have hends : PassEndsAfter host env nnd.listening nnd.logger.isSome [] pass := by
    refine ⟨halfEnds_of (hreceivers .inet6) (hsizes .inet6)
      ⟨Int.le_refl 0, (by decide : (0 : Int) ≤ 65535)⟩,
      halfEnds_of (hreceivers .inet) (hsizes .inet) ?_, fun client' hclient' => Or.inl ?_⟩
    · have hgained := gained_bounds nnd.listening env.nifs pass .inet6
      show 0 ≤ 0 + _ ∧ 0 + _ ≤ _
      omega
    · rw [haccepted] at hclient'
      cases hclient'
      exact ⟨_, hwritten⟩
  have hasked : Asked host env nnd.listening nnd.logger.isSome [] pass client :=
    ⟨⟨⟨after, hpasses⟩, trivial⟩, hends,
      ⟨client, _, haccepted, hwritten, List.take_of_length_le hlength⟩, haccepted⟩
  obtain ⟨neighbors, htable⟩ := @updateNeighbors_returns host env env.nifs hprefixes nnd
    (collected host nnd.listening env.nifs [pass])
  obtain ⟨nnd', out, logger, hneighbors, -, hrun⟩ := runIteration_asked hnifs hasked htable
  rw [← hneighbors] at htable hrun
  exact ⟨nnd', out, logger, htable, hrun⟩

end Answer

theorem request_answered_small :
    ∃ nnd' out logger, updateNeighbors Small.host Small.asks Small.init Small.asks.nifs
        (collected Small.host Small.init.listening Small.asks.nifs [Small.request]) =
          .ok nnd'.neighbors ∧
      runIteration Small.host Small.asks Small.init =
        sendReply Small.asks nnd' out ⟨Small.client.fd, [], false⟩
          (serializeNetInterfaces Small.host.order [] (nnd'.neighbors.data Small.asks.dataOrder))
          logger :=
  request_answered (by decide) rfl rfl rfl rfl rfl (by decide)
    (fun T hlacks => by cases T <;> cases hlacks.2)
    (fun T buff hbuffer => by cases T <;> cases hbuffer)
    (by
      intro nif hnif
      cases hnif with
      | head => exact fun ip hip => by cases hip with
        | head => decide
        | tail _ h => cases h
      | tail _ h => cases h)

namespace Small

/-- A request that is longer than a string object. -/
def longRequest : Bytes := List.replicate 33 97

def longInit : NetworkNeighborDiscoverer :=
  { init with localSettings := { localSettings with requestString := longRequest } }

def asksLong : Env := env [eth0] [⟨none, none, some ⟨8, [.read longRequest]⟩, 1⟩] 0

/-- Eight bytes that announce more interfaces than a vector has room for. -/
def ones : Incoming := ⟨List.replicate 8 255, text "fe80::2", by decide⟩

def asksAfterOnes : Env := env [eth0] [⟨some ones, none, some client, 1⟩] 0

def deafInit : NetworkNeighborDiscoverer := { init with ipv6receiver := none }

end Small

set_option maxRecDepth 10000 in
/-- No answer without interfaces, to a longer request, after a datagram that brings the
decoder down, or behind a receiver that is not there. -/
theorem request_unanswered :
    (∃ nnd' out, runIteration Small.host (Small.env [] [Small.request] 0) Small.init =
      .ok (nnd', out) ∧ out.reply = none) ∧
    (∃ nnd' out, runIteration Small.host Small.asksLong Small.longInit = .ok (nnd', out) ∧
      out.reply = none) ∧
    runIteration Small.host Small.asksAfterOnes Small.init = .error .lengthError ∧
    runIteration Small.host Small.asks Small.deafInit =
      .error (.nullDereference .ipv6receiver) :=
  ⟨⟨_, _, rfl, rfl⟩, ⟨_, _, rfl, rfl⟩, rfl, rfl⟩

end NeighborDiscovery
