/-
The faults of an iteration.

Before the receive loop an iteration only updates sockets and sends, and every call
there that can fail has a message.  So an iteration with interfaces comes to its loop
with the same sockets in place, and what the loop leaves decides how it ends.
-/
import NeighborDiscovery.Network.ReceiveCourse

namespace NeighborDiscovery

variable {host : Host}

/-! ## Before the loop -/

section Before

variable {env : Env} {logger : Logger}

theorem onSocket_yields {S : Type} {socket : Option S} {call : S → FunctionReturnVoid × S}
    (failure : Bytes) (h : ∀ s, (call s).1.Explained) :
    Logging.Yields (onSocket socket call failure) logger
      (.ok (socket.map fun s => (call s).2)) := by
  cases socket with
  | none => exact Logging.yields_pure none
  | some s =>
    unfold onSocket
    dsimp only
    by_cases hok : (call s).1.isOk = true
    · rw [if_pos hok]
      exact Logging.yields_pure _
    · obtain ⟨m, hm⟩ := h s (Bool.eq_false_iff.mpr hok)
      rw [if_neg hok, hm]
      exact (Logging.yields_guarded fun _ => ⟨_, rfl⟩).bind fun _ _ => Logging.yields_pure _

theorem disableNif_yields (port : UInt16) (s : MulticastSockets) (nif : NetInterface) :
    ∃ s', ∀ logger, Logging.Yields (disableNif host env port s nif) logger (.ok s') := by
  refine ⟨⟨s.ipv6sender.map (removeTarget host env port · nif),
    s.ipv4sender.map (removeTarget host env port · nif),
    s.ipv6receiver.map (leaveGroup host env · nif),
    s.ipv4receiver.map (leaveGroup host env · nif)⟩, fun logger => ?_⟩
  unfold disableNif
  refine (onSocket_yields _ fun r => r.changeGroups_explained _ _ _ _ _).bind fun _ _ => ?_
  refine (onSocket_yields _ fun r => r.removeMulticastAddress_explained _ _ _ _).bind fun _ _ => ?_
  refine (onSocket_yields _ fun r => r.changeGroups_explained _ _ _ _ _).bind fun _ _ => ?_
  refine (onSocket_yields _ fun r => r.removeMulticastAddress_explained _ _ _ _).bind fun _ _ => ?_
  exact Logging.yields_pure _

theorem enableNif_yields (port : UInt16) (s : MulticastSockets) (nif : NetInterface) :
    ∃ s', ∀ logger, Logging.Yields (enableNif host env port s nif) logger (.ok s') := by
  refine ⟨⟨s.ipv6sender.map (addTarget host env port · nif),
    s.ipv4sender.map (addTarget host env port · nif),
    s.ipv6receiver.map (joinGroup host env · nif),
    s.ipv4receiver.map (joinGroup host env · nif)⟩, fun logger => ?_⟩
  unfold enableNif
  refine (onSocket_yields _ fun r => r.changeGroups_explained _ _ _ _ _).bind fun _ _ => ?_
  refine (onSocket_yields _ fun r => r.addMulticastAddress_explained _ _ _ _).bind fun _ _ => ?_
  refine (onSocket_yields _ fun r => r.changeGroups_explained _ _ _ _ _).bind fun _ _ => ?_
  refine (onSocket_yields _ fun r => r.addMulticastAddress_explained _ _ _ _).bind fun _ _ => ?_
  exact Logging.yields_pure _

theorem foldlM_yields {body : MulticastSockets → NetInterface → Logging MulticastSockets}
    (h : ∀ s nif, ∃ s', ∀ logger, Logging.Yields (body s nif) logger (.ok s'))
    (nifs : List NetInterface) (s : MulticastSockets) :
    ∃ s', ∀ logger, Logging.Yields (nifs.foldlM body s) logger (.ok s') := by
  induction nifs generalizing s with
  | nil => exact ⟨s, fun _ => Logging.yields_pure s⟩
  | cons nif rest ih =>
    obtain ⟨s₁, hone⟩ := h s nif
    obtain ⟨s₂, hrest⟩ := ih s₁
    refine ⟨s₂, fun logger => ?_⟩
    rw [List.foldlM_cons]
    exact (hone logger).bind fun logger₁ _ => hrest logger₁

/-- The update of the sockets ends whatever fails in it, and no socket comes or goes. -/
theorem updateSockets_yields (nnd : NetworkNeighborDiscoverer) (nifs : List NetInterface) :
    ∃ s, (∀ logger, Logging.Yields (updateSockets host env nnd nifs) logger (.ok s)) ∧
      ∀ T, (s.sender T).isSome = (nnd.sender T).isSome ∧
        (s.receiver T).isSome = (nnd.receiver T).isSome := by
  have hyields : ∃ s, ∀ logger,
      Logging.Yields (updateSockets host env nnd nifs) logger (.ok s) := by
    unfold updateSockets
    by_cases hsame : nnd.prevNifs = nifs
    · rw [if_pos hsame]
      exact ⟨_, fun _ => Logging.yields_pure _⟩
    · rw [if_neg hsame]
      obtain ⟨s₁, hdisable⟩ := foldlM_yields (disableNif_yields nnd.settings.port)
        (nifsToDisable nnd.prevNifs nifs) nnd.toMulticastSockets
      obtain ⟨s₂, henable⟩ := foldlM_yields (enableNif_yields nnd.settings.port)
        (nifsToEnable nnd.prevNifs nifs) s₁
      refine ⟨s₂, fun logger => (Logging.yields_guarded fun _ => ⟨_, rfl⟩).bind fun _ _ => ?_⟩
      exact (hdisable _).bind fun _ _ => henable _
  obtain ⟨s, hs⟩ := hyields
  refine ⟨s, hs, fun T => ?_⟩
  obtain ⟨logger', hrun, -⟩ := hs none
  obtain ⟨hsender, hreceiver⟩ := updateSockets_ok host env hrun T
  rw [hsender, hreceiver]
  exact ⟨Option.isSome_map, Option.isSome_map⟩

theorem readInterfaces_yields (h : env.interfaces.isOk = true) :
    Logging.Yields (readInterfaces env) logger (.ok env.nifs) := by
  obtain ⟨nifs, hdata⟩ := data_of_isOk h
  unfold readInterfaces Env.nifs
  rw [if_pos h, hdata, FunctionReturn.toOption_eq_some.mpr ⟨h, hdata⟩]
  exact Logging.yields_lift rfl

theorem readInterfaces_failed (h : env.interfaces.isOk = false) :
    Logging.Yields (readInterfaces env) logger
      (if env.interfaces.msg = none ∧ logger.isSome = true then .error .badOptionalAccess
      else .ok []) := by
  unfold readInterfaces
  rw [h]
  by_cases hmissing : env.interfaces.msg = none ∧ logger.isSome = true
  · rw [if_pos hmissing, hmissing.1]
    exact Logging.Yields.fault (Logging.yields_guarded_error hmissing.2)
  · rw [if_neg hmissing]
    refine Logging.Yields.bind (Logging.yields_guarded fun hlogger => ?_) fun _ _ =>
      Logging.yields_pure []
    cases hmsg : env.interfaces.msg with
    | none => exact absurd ⟨hmsg, hlogger⟩ hmissing
    | some m => exact ⟨_, rfl⟩

theorem Env.nifs_of_failed (h : env.interfaces.isOk = false) : env.nifs = [] := by
  unfold Env.nifs
  rw [FunctionReturn.isOk_eq_false.mp h]
  rfl

end Before

/-! ## After the loop -/

section After

variable {env : Env} {nnd : NetworkNeighborDiscoverer} {logger : Logger}

theorem reply_unasked_eq {r : Reception} (h : r.receivedRequestFromCliClient = false) :
    reply host env nnd r = pure none := by
  unfold reply
  cases r.clientSocket with
  | none => rfl
  | some client =>
    rw [h]
    rfl

theorem reply_unasked {r : Reception} (h : r.receivedRequestFromCliClient = false) :
    Logging.Yields (reply host env nnd r) logger (.ok none) := by
  rw [reply_unasked_eq h]
  exact Logging.yields_pure none

/-- A reply is a call of `send` and the line about it. -/
theorem reply_asked {r : Reception} {client : UnixSocket} (hclient : r.clientSocket = some client)
    (hasked : r.receivedRequestFromCliClient = true)
    (hserver : nnd.unixDomainServer.isSome = true) :
    reply host env nnd r = (do
      let (sendReturn, handed) ← liftM (client.send
        (serializeNetInterfaces host.order [] (nnd.neighbors.data env.dataOrder)) env.writes)
      logReply sendReturn
      pure (some ⟨client, serializeNetInterfaces host.order [] (nnd.neighbors.data env.dataOrder),
        handed⟩)) := by
  unfold reply
  rw [hclient]
  dsimp only
  rw [hasked, hserver]
  rfl

theorem logReply_yields {ret : FunctionReturnVoid} (h : ret.Explained) :
    Logging.Yields (logReply ret) logger
      (if ret.isOk = true ∧ logger.isSome = false then .error (.nullDereference .logger)
      else .ok ()) := by
  unfold logReply
  cases hok : ret.isOk with
  | false =>
    obtain ⟨m, hm⟩ := h hok
    rw [hm]
    exact Logging.yields_guarded fun _ => ⟨_, rfl⟩
  | true =>
    cases logger with
    | none => rfl
    | some lines => exact ⟨_, rfl, rfl⟩

end After

/-! ## The iteration -/

section Iterations

variable {env : Env} {nnd : NetworkNeighborDiscoverer}

/-- What an iteration with interfaces does from its receive loop on. -/
def receiveAndReply (host : Host) (env : Env) (nnd : NetworkNeighborDiscoverer)
    (sentIPv6 : List (Sent .inet6)) (sentIPv4 : List (Sent .inet)) :
    Logging (NetworkNeighborDiscoverer × Output) := do
  let r ← receiveLoop host env nnd env.nifs env.passes .start
  let neighbors ← liftM (updateNeighbors host env nnd env.nifs r.receivedNifs)
  let nnd := { nnd with neighbors := neighbors }
  let answer ← reply host env nnd r
  pure ({ nnd with prevNifs := env.nifs }, ⟨sentIPv6, sentIPv4, r.passes, answer⟩)

theorem Env.isOk_of_nifs (h : env.nifs ≠ []) : env.interfaces.isOk = true := by
  cases hok : env.interfaces.isOk with
  | true => rfl
  | false => exact absurd (Env.nifs_of_failed hok) h

/-- The sockets once the announcement is sent. -/
def afterSending (host : Host) (env : Env) (s : MulticastSockets) : MulticastSockets :=
  { s with
    ipv6sender := (sendOn (canUseIPv6 env.nifs) s.ipv6sender (announcement host env.nifs)
      (env.sendCalls .inet6)).1
    ipv4sender := (sendOn (canUseIPv4 env.nifs) s.ipv4sender (announcement host env.nifs)
      (env.sendCalls .inet)).1 }

theorem listening_afterSending {s : MulticastSockets}
    (hsome : ∀ T, (s.sender T).isSome = (nnd.sender T).isSome ∧
      (s.receiver T).isSome = (nnd.receiver T).isSome) :
    ({ nnd with toMulticastSockets := afterSending host env s } :
      NetworkNeighborDiscoverer).listening = nnd.listening := by
  have hsenders : (fun T => ((afterSending host env s).sender T).isSome) =
      fun T => (nnd.sender T).isSome := by
    funext T
    rw [← (hsome T).1]
    cases T
    · exact isSome_sendOn _ _ _ _
    · exact isSome_sendOn _ _ _ _
  have hreceivers : (fun T => ((afterSending host env s).receiver T).isSome) =
      fun T => (nnd.receiver T).isSome := by
    funext T
    rw [← (hsome T).2]
    cases T
    · rfl
    · rfl
  show Listening.mk _ _ _ (fun T => ((afterSending host env s).sender T).isSome)
    (fun T => ((afterSending host env s).receiver T).isSome) = _
  rw [hsenders, hreceivers]
  rfl

/-- An iteration with interfaces comes to its receive loop, whatever `write` is going to
return. -/
theorem iterate_receives (hnifs : env.nifs ≠ []) (logger : Logger) :
    ∃ nnd₁ sentIPv6 sentIPv4 logger₁, nnd₁.listening = nnd.listening ∧
      nnd₁.neighbors = nnd.neighbors ∧ logger₁.isSome = logger.isSome ∧
      ∀ writes, iterate host { env with writes := writes } nnd logger =
        receiveAndReply host { env with writes := writes } nnd₁ sentIPv6 sentIPv4 logger₁ := by
  obtain ⟨s, hs, hsome⟩ := @updateSockets_yields host env nnd env.nifs
  obtain ⟨logger₀, hread, hlogger₀⟩ := @readInterfaces_yields env logger (Env.isOk_of_nifs hnifs)
  obtain ⟨logger₁, hupdate, hlogger₁⟩ := hs logger₀
  refine ⟨{ nnd with toMulticastSockets := afterSending host env s },
    (sendOn (canUseIPv6 env.nifs) s.ipv6sender (announcement host env.nifs)
      (env.sendCalls .inet6)).2,
    (sendOn (canUseIPv4 env.nifs) s.ipv4sender (announcement host env.nifs)
      (env.sendCalls .inet)).2, logger₁, listening_afterSending hsome, rfl,
    hlogger₁.trans hlogger₀, fun writes => ?_⟩
  have hread' : readInterfaces { env with writes := writes } logger = .ok (env.nifs, logger₀) := hread
  have hupdate' : updateSockets host { env with writes := writes } nnd env.nifs logger₀ =
      .ok (s, logger₁) := hupdate
  unfold iterate
  rw [Logging.bind_run hread', if_pos (List.length_pos_of_ne_nil hnifs)]
  unfold discover
  simp only [bind_assoc]
  rw [Logging.bind_run hupdate']
  unfold receiveAndReply
  simp only [pure_bind]
  rfl

theorem iterate_discovers (hnifs : env.nifs ≠ []) (logger : Logger) :
    ∃ nnd₁ sentIPv6 sentIPv4 logger₁, nnd₁.listening = nnd.listening ∧
      nnd₁.neighbors = nnd.neighbors ∧ logger₁.isSome = logger.isSome ∧
      iterate host env nnd logger = receiveAndReply host env nnd₁ sentIPv6 sentIPv4 logger₁ := by
  obtain ⟨nnd₁, sentIPv6, sentIPv4, logger₁, hlistening, hneighbors, hlogger, hiterate⟩ :=
    @iterate_receives host env nnd hnifs logger
  exact ⟨nnd₁, sentIPv6, sentIPv4, logger₁, hlistening, hneighbors, hlogger,
    hiterate env.writes⟩

/-- The interfaces in the buffers that some passes fill. -/
def collected (host : Host) (l : Listening) (nifs : List NetInterface) (passes : List Pass) :
    KeyedMap.Map Bytes NetInterface :=
  storeNifs ∅ (decodedAll host (passes.flatMap fun pass =>
    (l.buffer nifs pass .inet6).toList ++ (l.buffer nifs pass .inet).toList))

/-- The receive loop comes to a pass, having received what the passes before it bring. -/
structure Reaches (host : Host) (env : Env) (l : Listening) (logging : Bool)
    (before : List Pass) (pass : Pass) : Prop where
  passes : ∃ after, env.passes = before ++ pass :: after
  goesOn : l.GoesOn env.nifs host env logging 0 before

def PassEndsAfter (host : Host) (env : Env) (l : Listening) (logging : Bool)
    (before : List Pass) (pass : Pass) : Prop :=
  l.PassEnds env.nifs host pass (l.receivedAll env.nifs 0 before) logging

/-- The receive loop ends with the request of a client. -/
structure Asked (host : Host) (env : Env) (l : Listening) (logging : Bool)
    (before : List Pass) (pass : Pass) (client : Client) : Prop where
  reaches : Reaches host env l logging before pass
  ends : PassEndsAfter host env l logging before pass
  asks : l.Asks pass
  accepted : l.accepted pass = some client

/-- A client that asks is handed the whole reply. -/
def Answers (host : Host) (env : Env) (nnd : NetworkNeighborDiscoverer) (logging : Bool) : Prop :=
  ∃ before pass client neighbors ret handed, Asked host env nnd.listening logging before pass client ∧
    updateNeighbors host env nnd env.nifs (collected host nnd.listening env.nifs (before ++ [pass])) =
      .ok neighbors ∧
    (⟨client.fd, [], false⟩ : UnixSocket).send
      (serializeNetInterfaces host.order [] (neighbors.data env.dataOrder)) env.writes =
        .ok (ret, handed) ∧
    ret.isOk = true

variable {sentIPv6 : List (Sent .inet6)} {sentIPv4 : List (Sent .inet)} {logger : Logger}

theorem server_of_accepted {pass : Pass} {client : Client}
    (h : nnd.listening.accepted pass = some client) : nnd.unixDomainServer.isSome = true := by
  unfold Listening.accepted at h
  split at h
  · rename_i server _ hserver _
    rw [show nnd.unixDomainServer = some server from hserver]
    rfl
  · cases h

theorem collected_eq {before : List Pass} {pass : Pass} {r : Reception}
    (h : Receives host nnd env.nifs (before ++ [pass]) .start r) :
    r.receivedNifs = collected host nnd.listening env.nifs (before ++ [pass]) := h.stored

/-- What is left of an iteration whose loop ends with a request: the call of `send`, with
the table that has just been updated, and the line about it. -/
theorem receiveAndReply_answers {before : List Pass} {pass : Pass} {client : Client}
    {neighbors : IndexedTimedSet Bytes NetInterface}
    (hasked : Asked host env nnd.listening logger.isSome before pass client)
    (htable : updateNeighbors host env nnd env.nifs
      (collected host nnd.listening env.nifs (before ++ [pass])) = .ok neighbors) :
    ∃ passes logger', passes.map PassTrace.client =
        (before ++ [pass]).map nnd.listening.acceptedSocket ∧ logger'.isSome = logger.isSome ∧
      receiveAndReply host env nnd sentIPv6 sentIPv4 logger = (do
        let (sendReturn, handed) ← liftM ((⟨client.fd, [], false⟩ : UnixSocket).send
          (serializeNetInterfaces host.order [] (neighbors.data env.dataOrder)) env.writes)
        logReply sendReturn
        pure ({ nnd with neighbors := neighbors, prevNifs := env.nifs },
          ⟨sentIPv6, sentIPv4, passes, some ⟨⟨client.fd, [], false⟩,
            serializeNetInterfaces host.order [] (neighbors.data env.dataOrder), handed⟩⟩) :
          Logging _) logger' := by
  obtain ⟨after, hpasses⟩ := hasked.reaches.passes
  obtain ⟨r, hloop, hrequest, hsocket, hreceives⟩ :=
    @receiveLoop_stop host env nnd env.nifs logger.isSome before after pass hasked.reaches.goesOn
      hasked.ends fun hcontinues => hcontinues.2.2 hasked.asks
  rw [← collected_eq hreceives] at htable
  obtain ⟨logger', hrun, hlogger'⟩ := hloop logger rfl
  have hclients : r.passes.map PassTrace.client =
      (before ++ [pass]).map nnd.listening.acceptedSocket := by
    rw [← List.singleton_append, ← List.append_assoc] at hrun
    exact receiveLoop_made hrun hreceives
  rw [← hpasses] at hrun
  have hrest : receiveAndReply host env nnd sentIPv6 sentIPv4 logger = (do
      let answer ← reply host env { nnd with neighbors := neighbors } r
      pure ({ nnd with neighbors := neighbors, prevNifs := env.nifs },
        ⟨sentIPv6, sentIPv4, r.passes, answer⟩) : Logging _) logger' :=
    (Logging.bind_run hrun).trans (Logging.bind_run (Logging.lift_eq_ok.mpr ⟨htable, rfl⟩))
  refine ⟨r.passes, logger', hclients, hlogger', ?_⟩
  rw [hrest, @reply_asked host env { nnd with neighbors := neighbors } r _
    (hsocket client hasked.accepted) (hrequest.mpr hasked.asks)
    (server_of_accepted hasked.accepted)]
  simp only [bind_assoc, pure_bind]

/-- A request is answered with the table that the iteration has just updated. -/
theorem receiveAndReply_asked {before : List Pass} {pass : Pass} {client : Client}
    {neighbors : IndexedTimedSet Bytes NetInterface} {ret : FunctionReturnVoid} {handed : Bytes}
    (hasked : Asked host env nnd.listening logger.isSome before pass client)
    (htable : updateNeighbors host env nnd env.nifs
      (collected host nnd.listening env.nifs (before ++ [pass])) = .ok neighbors)
    (hsend : (⟨client.fd, [], false⟩ : UnixSocket).send
      (serializeNetInterfaces host.order [] (neighbors.data env.dataOrder)) env.writes =
        .ok (ret, handed)) :
    ∃ passes, Logging.Yields (receiveAndReply host env nnd sentIPv6 sentIPv4) logger
      (if ret.isOk = true ∧ logger.isSome = false then .error (.nullDereference .logger)
      else .ok ({ nnd with neighbors := neighbors, prevNifs := env.nifs },
        ⟨sentIPv6, sentIPv4, passes, some ⟨⟨client.fd, [], false⟩,
          serializeNetInterfaces host.order [] (neighbors.data env.dataOrder), handed⟩⟩)) := by
  obtain ⟨passes, logger', -, hlogger', hrun⟩ :=
    @receiveAndReply_answers host env nnd sentIPv6 sentIPv4 logger before pass client neighbors
      hasked htable
  refine ⟨passes, .of_run hrun hlogger' ((Logging.yields_lift hsend).bind
    fun logger₁ hlogger₁ => ?_)⟩
  have hline := @logReply_yields logger₁ ret (UnixSocket.send_explained hsend)
  rw [hlogger₁, hlogger'] at hline
  split at hline
  · rename_i hnull
    rw [if_pos hnull]
    exact hline.fault
  · rename_i hnull
    rw [if_neg hnull]
    exact hline.bind fun _ _ => Logging.yields_pure _

theorem receiveAndReply_fault {before : List Pass} {pass : Pass}
    (hreaches : Reaches host env nnd.listening logger.isSome before pass)
    (h : ¬ PassEndsAfter host env nnd.listening logger.isSome before pass) :
    ∃ e, Logging.Yields (receiveAndReply host env nnd sentIPv6 sentIPv4) logger (.error e) ∧
      nnd.listening.PassFault env.nifs host pass (nnd.listening.receivedAll env.nifs 0 before)
        logger.isSome e := by
  obtain ⟨after, hpasses⟩ := hreaches.passes
  obtain ⟨e, hloop, hreason⟩ :=
    @receiveLoop_fault host env nnd env.nifs logger.isSome before after pass hreaches.goesOn h
  rw [← hpasses] at hloop
  exact ⟨e, (hloop logger rfl).fault, hreason⟩

theorem receiveAndReply_unasked {r : Reception} {neighbors : IndexedTimedSet Bytes NetInterface}
    (hloop : Logging.Yields (receiveLoop host env nnd env.nifs env.passes .start) logger (.ok r))
    (htable : updateNeighbors host env nnd env.nifs r.receivedNifs = .ok neighbors)
    (h : r.receivedRequestFromCliClient = false) :
    Logging.Yields (receiveAndReply host env nnd sentIPv6 sentIPv4) logger
      (.ok ({ nnd with neighbors := neighbors, prevNifs := env.nifs },
        ⟨sentIPv6, sentIPv4, r.passes, none⟩)) := by
  refine hloop.bind fun _ _ => (Logging.yields_lift htable).bind fun logger₂ _ => ?_
  exact (@reply_unasked host env { nnd with neighbors := neighbors } logger₂ r h).bind
    fun _ _ => Logging.yields_pure _

/-- After a loop that ends, only the line about the reply can use what is not there. -/
theorem receiveAndReply_stop {before : List Pass} {pass : Pass}
    (hreaches : Reaches host env nnd.listening logger.isSome before pass)
    (hends : PassEndsAfter host env nnd.listening logger.isSome before pass)
    (hstop : ¬ nnd.listening.Continues env.nifs env (nnd.listening.receivedAll env.nifs 0 before)
      pass) :
    (∃ e : Fault, e.OfInput ∧
      Logging.Yields (receiveAndReply host env nnd sentIPv6 sentIPv4) logger (.error e)) ∨
    (∃ result,
      Logging.Yields (receiveAndReply host env nnd sentIPv6 sentIPv4) logger (.ok result)) ∨
    logger.isSome = false ∧ Answers host env nnd logger.isSome ∧
      Logging.Yields (receiveAndReply host env nnd sentIPv6 sentIPv4) logger
        (.error (.nullDereference .logger)) := by
  obtain ⟨after, hpasses⟩ := hreaches.passes
  obtain ⟨r, hloop, hrequest, hsocket, hreceives⟩ :=
    @receiveLoop_stop host env nnd env.nifs logger.isSome before after pass hreaches.goesOn hends
      hstop
  rw [← hpasses] at hloop
  have hloop := hloop logger rfl
  cases htable : updateNeighbors host env nnd env.nifs r.receivedNifs with
  | error e =>
    refine Or.inl ⟨e, updateNeighbors_fault htable, hloop.bind fun _ _ => ?_⟩
    exact (Logging.yields_lift htable).fault
  | ok neighbors =>
    by_cases hasks : nnd.listening.Asks pass
    · obtain ⟨client, pending, haccepted, -⟩ := id hasks
      have hasked : Asked host env nnd.listening logger.isSome before pass client :=
        ⟨hreaches, hends, hasks, haccepted⟩
      rw [collected_eq hreceives] at htable
      cases hsend : (⟨client.fd, [], false⟩ : UnixSocket).send
          (serializeNetInterfaces host.order [] (neighbors.data env.dataOrder)) env.writes with
      | error e =>
        obtain ⟨passes, logger', -, hlogger', hrun⟩ :=
          @receiveAndReply_answers host env nnd sentIPv6 sentIPv4 logger before pass client
            neighbors hasked htable
        rw [UnixSocket.send_fault hsend] at hsend
        exact Or.inl ⟨.waiting, trivial, .of_run hrun hlogger' (Logging.yields_lift hsend).fault⟩
      | ok p =>
        obtain ⟨ret, handed⟩ := p
        obtain ⟨passes, hyields⟩ := @receiveAndReply_asked host env nnd sentIPv6 sentIPv4 logger
          before pass client neighbors ret handed hasked htable hsend
        split at hyields
        · rename_i hnull
          exact Or.inr (Or.inr ⟨hnull.2, ⟨before, pass, client, neighbors, ret, handed, hasked,
            htable, hsend, hnull.1⟩, hyields⟩)
        · exact Or.inr (Or.inl ⟨_, hyields⟩)
    · exact Or.inr (Or.inl ⟨_, receiveAndReply_unasked hloop htable
        (Bool.eq_false_iff.mpr fun htrue => hasks (hrequest.mp htrue))⟩)

/-- How an iteration with interfaces ends, from its receive loop on. -/
theorem receiveAndReply_cases :
    (∃ before pass e, Reaches host env nnd.listening logger.isSome before pass ∧
      Logging.Yields (receiveAndReply host env nnd sentIPv6 sentIPv4) logger (.error e) ∧
      nnd.listening.PassFault env.nifs host pass (nnd.listening.receivedAll env.nifs 0 before)
        logger.isSome e) ∨
    (∃ e : Fault, e.OfInput ∧
      Logging.Yields (receiveAndReply host env nnd sentIPv6 sentIPv4) logger (.error e)) ∨
    (∃ result,
      Logging.Yields (receiveAndReply host env nnd sentIPv6 sentIPv4) logger (.ok result)) ∨
    logger.isSome = false ∧ Answers host env nnd logger.isSome ∧
      Logging.Yields (receiveAndReply host env nnd sentIPv6 sentIPv4) logger
        (.error (.nullDereference .logger)) := by
  rcases @Listening.goesOn_or_stops nnd.listening env.nifs host env logger.isSome 0 env.passes with
    hall | ⟨before, pass, after, hpasses, hbefore, hstop⟩
  · exact Or.inr (Or.inl ⟨.waiting, trivial, (receiveLoop_waits hall rfl).fault⟩)
  · have hreaches : Reaches host env nnd.listening logger.isSome before pass := ⟨⟨after, hpasses⟩, hbefore⟩
    by_cases hends : PassEndsAfter host env nnd.listening logger.isSome before pass
    · exact Or.inr (receiveAndReply_stop hreaches hends fun hcontinues =>
        hstop ⟨hends, hcontinues⟩)
    · obtain ⟨e, hyields, hreason⟩ := @receiveAndReply_fault host env nnd sentIPv6 sentIPv4
        logger before pass hreaches hends
      exact Or.inl ⟨before, pass, e, hreaches, hyields, hreason⟩

theorem runIteration_error {e : Fault} :
    runIteration host env nnd = .error e ↔ iterate host env nnd nnd.logger = .error e := by
  unfold runIteration
  rw [Fallible.bind_eq_error]
  constructor
  · intro h
    rcases h with h | ⟨p, -, h⟩
    · exact h
    · cases h
  · exact Or.inl

/-- Without interfaces only the report on a failed query for them can fault. -/
theorem iterate_idle (hnifs : env.nifs = []) {e : Fault} :
    iterate host env nnd logger = .error e ↔
      e = .badOptionalAccess ∧ env.interfaces.isOk = false ∧ env.interfaces.msg = none ∧
        logger.isSome = true := by
  have hends : ∀ {nifs}, nifs = [] → Logging.Yields (readInterfaces env) logger (.ok nifs) →
      iterate host env nnd logger ≠ .error e := by
    intro nifs hnil hread
    subst hnil
    have hyields : Logging.Yields (iterate host env nnd) logger
        (.ok ({ nnd with prevNifs := [] }, .none)) :=
      hread.bind fun _ _ => Logging.yields_pure _
    exact hyields.not_error e
  cases hok : env.interfaces.isOk with
  | true =>
    refine ⟨fun h => absurd h (hends hnifs (readInterfaces_yields hok)), fun h => ?_⟩
    cases h.2.1
  | false =>
    have hread := @readInterfaces_failed env logger hok
    split at hread
    · rename_i hmissing
      have hfault : iterate host env nnd logger = .error .badOptionalAccess := hread.fault
      rw [hfault]
      constructor
      · intro h
        cases h
        exact ⟨rfl, rfl, hmissing⟩
      · intro h
        rw [h.1]
    · rename_i hmissing
      exact ⟨fun h => absurd h (hends rfl hread), fun h => absurd h.2.2 hmissing⟩

theorem updateNeighbors_congr {nnd₁ : NetworkNeighborDiscoverer}
    (hlistening : nnd₁.listening = nnd.listening) (hneighbors : nnd₁.neighbors = nnd.neighbors) :
    updateNeighbors host env nnd₁ env.nifs = updateNeighbors host env nnd env.nifs := by
  have hsettings : nnd₁.settings = nnd.settings := congrArg Listening.settings hlistening
  funext receivedNifs
  unfold updateNeighbors
  rw [hneighbors, hsettings]

theorem answers_congr {nnd₁ : NetworkNeighborDiscoverer} {logging : Bool}
    (hlistening : nnd₁.listening = nnd.listening) (hneighbors : nnd₁.neighbors = nnd.neighbors) :
    Answers host env nnd₁ logging ↔ Answers host env nnd logging := by
  unfold Answers
  rw [updateNeighbors_congr hlistening hneighbors, hlistening]

/-- The receiver that a family of interfaces uses is missing, and the first pass gets as
far as to use it. -/
def FirstPassLacks (host : Host) (env : Env) (l : Listening) : Prop :=
  ∃ pass after, env.passes = pass :: after ∧
    (l.LacksReceiver env.nifs .inet6 ∨
      (l.HalfEnds env.nifs host pass 0 .inet6 ∧ l.LacksReceiver env.nifs .inet))

/-- A null pointer is used by the first pass or by the line about the reply. -/
theorem receiveAndReply_null_iff :
    (∃ handle, receiveAndReply host env nnd sentIPv6 sentIPv4 logger =
      .error (.nullDereference handle)) ↔
    FirstPassLacks host env nnd.listening ∨
      logger.isSome = false ∧ Answers host env nnd logger.isSome := by
  constructor
  · intro h
    obtain ⟨handle, hfault⟩ := h
    rcases @receiveAndReply_cases host env nnd sentIPv6 sentIPv4 logger with
      ⟨before, pass, e, hreaches, hyields, hreason⟩ | ⟨e, hinput, hyields⟩ | ⟨result, hyields⟩ |
        ⟨hlogger, hanswers, -⟩
    · obtain ⟨after, hpasses⟩ := hreaches.passes
      have hlacks := hreason.lacks (hyields.error_eq hfault)
      cases before with
      | nil => exact Or.inl ⟨pass, after, hpasses, hlacks⟩
      | cons first rest =>
        -- The first pass has ended, so it has used both receivers already.
        obtain ⟨hends, -, -⟩ := hreaches.goesOn
        rcases hlacks with hlacks | ⟨-, hlacks⟩
        · exact absurd hlacks (hends.receivers _)
        · exact absurd hlacks (hends.receivers _)
    · exact absurd (hyields.error_eq hfault) (hinput.not_null handle)
    · exact absurd hfault (hyields.not_error _)
    · exact Or.inr ⟨hlogger, hanswers⟩
  · intro h
    rcases h with ⟨pass, after, hpasses, hlacks⟩ | ⟨hlogger, hanswers⟩
    · have hreaches : Reaches host env nnd.listening logger.isSome [] pass :=
        ⟨⟨after, hpasses⟩, trivial⟩
      have hends : ¬ PassEndsAfter host env nnd.listening logger.isSome [] pass := by
        intro hends
        rcases hlacks with hlacks | ⟨-, hlacks⟩
        · exact hends.receivers _ hlacks
        · exact hends.receivers _ hlacks
      obtain ⟨e, hyields, hreason⟩ := @receiveAndReply_fault host env nnd sentIPv6 sentIPv4 logger
        [] pass hreaches hends
      rcases hlacks with hlacks | hlacks
      · rw [hreason.ipv6.mpr hlacks] at hyields
        exact ⟨_, hyields⟩
      · rw [hreason.ipv4.mpr hlacks] at hyields
        exact ⟨_, hyields⟩
    · obtain ⟨before, pass, client, neighbors, ret, handed, hasked, htable, hsend, hok⟩ := hanswers
      obtain ⟨passes, hyields⟩ := @receiveAndReply_asked host env nnd sentIPv6 sentIPv4 logger
        before pass client neighbors ret handed hasked htable hsend
      rw [if_pos ⟨hok, hlogger⟩] at hyields
      exact ⟨_, hyields⟩

/-- The message of a failure is missing exactly where a client's read fails. -/
theorem receiveAndReply_unread_iff :
    receiveAndReply host env nnd sentIPv6 sentIPv4 logger = .error .badOptionalAccess ↔
      ∃ before pass, Reaches host env nnd.listening logger.isSome before pass ∧
        nnd.listening.Unexplained env.nifs host pass (nnd.listening.receivedAll env.nifs 0 before)
          logger.isSome := by
  constructor
  · intro hfault
    rcases @receiveAndReply_cases host env nnd sentIPv6 sentIPv4 logger with
      ⟨before, pass, e, hreaches, hyields, hreason⟩ | ⟨e, hinput, hyields⟩ | ⟨result, hyields⟩ |
        ⟨-, -, hyields⟩
    · exact ⟨before, pass, hreaches, hreason.unread.mp (hyields.error_eq hfault)⟩
    · exact absurd (hyields.error_eq hfault) hinput.not_optional
    · exact absurd hfault (hyields.not_error _)
    · cases hyields.error_eq hfault
  · intro h
    obtain ⟨before, pass, hreaches, hread⟩ := h
    obtain ⟨e, hyields, hreason⟩ := @receiveAndReply_fault host env nnd sentIPv6 sentIPv4 logger
      before pass hreaches hread.not_ends
    rw [hreason.unread.mpr hread] at hyields
    exact hyields

theorem runIteration_null_iff :
    (∃ handle, runIteration host env nnd = .error (.nullDereference handle)) ↔
      FirstPassLacks host env nnd.listening ∨
        nnd.logger.isSome = false ∧ env.nifs ≠ [] ∧ Answers host env nnd false := by
  simp only [runIteration_error]
  by_cases hnifs : env.nifs = []
  · constructor
    · intro h
      obtain ⟨handle, hfault⟩ := h
      cases ((iterate_idle hnifs).mp hfault).1
    · intro h
      have hunused : ∀ T, ¬ nnd.listening.LacksReceiver env.nifs T := by
        intro T hlacks
        rw [hnifs] at hlacks
        cases T
        · cases hlacks.1
        · cases hlacks.1
      rcases h with ⟨_, _, -, hlacks | hlacks⟩ | hlogger
      · exact absurd hlacks (hunused _)
      · exact absurd hlacks.2 (hunused _)
      · exact absurd hnifs hlogger.2.1
  · obtain ⟨nnd₁, sentIPv6, sentIPv4, logger₁, hlistening, hneighbors, hlogger, hiterate⟩ :=
      @iterate_discovers host env nnd hnifs nnd.logger
    rw [hiterate, receiveAndReply_null_iff, answers_congr hlistening hneighbors, hlistening, hlogger]
    refine or_congr_right ⟨fun h => ?_, fun h => ?_⟩
    · have hnone := h.1
      rw [hnone] at h
      exact ⟨hnone, hnifs, h.2⟩
    · rw [h.1]
      exact ⟨rfl, h.2.2⟩

theorem runIteration_unread_iff :
    runIteration host env nnd = .error .badOptionalAccess ↔ nnd.logger.isSome = true ∧
      ((env.interfaces.isOk = false ∧ env.interfaces.msg = none) ∨
        (env.nifs ≠ [] ∧ ∃ before pass, Reaches host env nnd.listening true before pass ∧
          nnd.listening.Unexplained env.nifs host pass
            (nnd.listening.receivedAll env.nifs 0 before) true)) := by
  rw [runIteration_error]
  by_cases hnifs : env.nifs = []
  · rw [iterate_idle hnifs]
    constructor
    · intro h
      exact ⟨h.2.2.2, Or.inl ⟨h.2.1, h.2.2.1⟩⟩
    · intro h
      obtain ⟨hlogger, hfailed | hread⟩ := h
      · exact ⟨rfl, hfailed.1, hfailed.2, hlogger⟩
      · exact absurd hnifs hread.1
  · obtain ⟨nnd₁, sentIPv6, sentIPv4, logger₁, hlistening, -, hlogger, hiterate⟩ :=
      @iterate_discovers host env nnd hnifs nnd.logger
    rw [hiterate, receiveAndReply_unread_iff, hlistening, hlogger]
    constructor
    · intro h
      obtain ⟨before, pass, hreaches, hread⟩ := h
      have hsome : nnd.logger.isSome = true := hread.2.2.2
      rw [hsome] at hreaches hread
      exact ⟨hsome, Or.inr ⟨hnifs, before, pass, hreaches, hread⟩⟩
    · intro h
      obtain ⟨hsome, hfailed | ⟨-, hread⟩⟩ := h
      · rw [Env.isOk_of_nifs hnifs] at hfailed
        cases hfailed.1
      · rw [hsome]
        exact hread

theorem receiveAndReply_kept {nnd' : NetworkNeighborDiscoverer} {out : Output} {logger' : Logger}
    (h : receiveAndReply host env nnd sentIPv6 sentIPv4 logger = .ok ((nnd', out), logger')) :
    nnd'.listening = nnd.listening ∧ logger'.isSome = logger.isSome := by
  constructor
  · obtain ⟨r, _, -, hrest⟩ := Logging.bind_eq_ok.mp h
    obtain ⟨neighbors, _, -, hrest⟩ := Logging.bind_eq_ok.mp hrest
    obtain ⟨answer, _, -, hrest⟩ := Logging.bind_eq_ok.mp hrest
    cases hrest
    rfl
  · rcases @receiveAndReply_cases host env nnd sentIPv6 sentIPv4 logger with
      ⟨_, _, _, -, hyields, -⟩ | ⟨_, -, hyields⟩ | ⟨result, hyields⟩ | ⟨-, -, hyields⟩
    · exact absurd h (hyields.not_ok _)
    · exact absurd h (hyields.not_ok _)
    · exact (hyields.kept h).2
    · exact absurd h (hyields.not_ok _)

/-- An iteration creates no socket and no logger, and loses none. -/
theorem runIteration_listening {nnd' : NetworkNeighborDiscoverer} {out : Output}
    (h : runIteration host env nnd = .ok (nnd', out)) :
    nnd'.listening = nnd.listening ∧ nnd'.logger.isSome = nnd.logger.isSome := by
  unfold runIteration at h
  obtain ⟨⟨⟨nnd₂, out'⟩, logger'⟩, hiterate, h⟩ := Fallible.bind_eq_ok.mp h
  cases h
  show nnd₂.listening = nnd.listening ∧ logger'.isSome = nnd.logger.isSome
  by_cases hnifs : env.nifs = []
  · obtain ⟨nifs, logger₁, hread, hrest⟩ := Logging.bind_eq_ok.mp hiterate
    rw [readInterfaces_ok hread, hnifs] at hrest
    cases hrest
    refine ⟨rfl, ?_⟩
    cases hok : env.interfaces.isOk with
    | true => exact ((readInterfaces_yields hok).kept hread).2
    | false =>
      have hyields := @readInterfaces_failed env nnd.logger hok
      split at hyields
      · exact absurd hread (hyields.not_ok _)
      · exact (hyields.kept hread).2
  · obtain ⟨nnd₁, sentIPv6, sentIPv4, logger₁, hlistening, -, hlogger, hsame⟩ :=
      @iterate_discovers host env nnd hnifs nnd.logger
    rw [hsame] at hiterate
    obtain ⟨hkept, hsome⟩ := receiveAndReply_kept hiterate
    exact ⟨hkept.trans hlistening, hsome.trans hlogger⟩

end Iterations

end NeighborDiscovery
