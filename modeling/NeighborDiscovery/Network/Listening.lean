/-
How far the receive loop gets, and how it ends.

The loop ends with a pass that brings no bytes, that uses up the sending period or
that brings a request, or it ends with a fault.  Which of these it is depends on the
settings, on which sockets exist and on what the passes find, and it is described
here by these alone.
-/
import NeighborDiscovery.Network.ReceiveHalf

namespace NeighborDiscovery

/-! ## What the loop depends on -/

structure Listening where
  settings : DiscoverySettings
  requestString : Bytes
  server : Option UnixSocket
  hasSender : Family → Bool
  hasReceiver : Family → Bool

def NetworkNeighborDiscoverer.listening (nnd : NetworkNeighborDiscoverer) : Listening where
  settings := nnd.settings
  requestString := nnd.localSettings.requestString
  server := nnd.unixDomainServer
  hasSender T := (nnd.sender T).isSome
  hasReceiver T := (nnd.receiver T).isSome

/-- What the call of `receiveString` on a client's socket ends with. -/
def Client.result (client : Client) : Option ReadResult := client.reads.find? (· ≠ .interrupted)

namespace Listening

variable (l : Listening) (nifs : List NetInterface)

/-- Whether a pass reads a family at all. -/
def uses (T : Family) : Bool := canUse T nifs && l.hasSender T

/-- The gate of a family is its sender, so its receiver may be missing behind it. -/
def LacksReceiver (T : Family) : Prop := l.uses nifs T = true ∧ l.hasReceiver T = false

/-- The buffer a half of a pass fills. -/
def buffer (pass : Pass) (T : Family) : Option Bytes :=
  filled l.settings.maxBufferSize (l.uses nifs T) (pass.incoming T)

def gained (pass : Pass) (T : Family) : Int :=
  if (l.buffer nifs pass T).isSome then
    toInt (IPMulticastReceiver.receive l.settings.maxBufferSize (pass.incoming T)).2
  else 0

/-- A half of a pass ends, the loop having received so many bytes before it. -/
structure HalfEnds (host : Host) (pass : Pass) (bytes : Int) (T : Family) : Prop where
  receiver : ¬ l.LacksReceiver nifs T
  reads : ∀ buff, l.buffer nifs pass T = some buff →
    (∃ desReturn, decode host buff = .ok desReturn) ∧
      ∃ sum, addInt bytes (l.gained nifs pass T) = .ok sum

end Listening

theorem gained_bounds (l : Listening) (nifs : List NetInterface) (pass : Pass) (T : Family) :
    0 ≤ l.gained nifs pass T ∧ l.gained nifs pass T ≤ 65535 := by
  unfold Listening.gained
  split
  · rename_i hsome
    obtain ⟨buff, hbuffer⟩ := Option.isSome_iff_exists.mp hsome
    obtain ⟨-, incoming, hincoming, -⟩ := filled_eq_some hbuffer
    have hle := incoming.length_le
    rw [hincoming, toInt_size]
    omega
  · omega

/-! ## The halves of a pass -/

section Halves

variable {host : Host} {T : Family} {nnd : NetworkNeighborDiscoverer} {nifs : List NetInterface}
  {pass : Pass} {r : Reception}

theorem Listening.hasReceiver_of_uses {l : Listening} (h : ¬ l.LacksReceiver nifs T)
    (huses : l.uses nifs T = true) : l.hasReceiver T = true :=
  Bool.eq_true_of_not_eq_false fun hnone => h ⟨huses, hnone⟩

/-- A half that finds data counts the bytes of its datagram. -/
theorem receiveHalf_counts {logger : Logger} {buff : Bytes}
    {o : Except Fault (Reception × Option Bytes)} (hreceiver : ¬ nnd.listening.LacksReceiver nifs T)
    (hbuffer : nnd.listening.buffer nifs pass T = some buff)
    (htakes : ∀ logger', Logging.Yields
      (takeBuffer host T buff (nnd.listening.gained nifs pass T) r) logger' o) :
    Logging.Yields (receiveHalf host T nnd (canUse T nifs) pass r) logger o := by
  unfold Listening.gained at htakes
  rw [hbuffer, Option.isSome_some, if_pos rfl] at htakes
  have huses : nnd.listening.uses nifs T = true := (filled_eq_some hbuffer).1
  exact receiveHalf_takes (Listening.hasReceiver_of_uses hreceiver huses) hbuffer
    fun logger' _ => htakes logger'

theorem receiveHalf_ends (h : nnd.listening.HalfEnds nifs host pass r.receivedBytes T) :
    ∃ r', (∀ logger, Logging.Yields (receiveHalf host T nnd (canUse T nifs) pass r) logger
        (.ok (r', nnd.listening.buffer nifs pass T))) ∧
      r'.receivedBytes = r.receivedBytes + nnd.listening.gained nifs pass T ∧
      r'.receivedRequestFromCliClient = r.receivedRequestFromCliClient ∧
      r'.clientSocket = r.clientSocket := by
  cases hbuffer : nnd.listening.buffer nifs pass T with
  | none =>
    refine ⟨r, fun _ => receiveHalf_empty (Listening.hasReceiver_of_uses h.receiver) hbuffer, ?_,
      rfl, rfl⟩
    unfold Listening.gained
    rw [hbuffer]
    exact (Int.add_zero _).symm
  | some buff =>
    obtain ⟨⟨desReturn, hdecode⟩, sum, hsum⟩ := h.reads buff hbuffer
    exact ⟨_, fun _ => receiveHalf_counts h.receiver hbuffer fun _ =>
      takeBuffer_yields hdecode hsum, addInt_ok hsum, rfl, rfl⟩

theorem receiveHalf_fault (hreceiver : ¬ nnd.listening.LacksReceiver nifs T)
    (h : ¬ nnd.listening.HalfEnds nifs host pass r.receivedBytes T) :
    ∃ e : Fault, e.OfInput ∧ ∀ logger,
      Logging.Yields (receiveHalf host T nnd (canUse T nifs) pass r) logger (.error e) := by
  cases hbuffer : nnd.listening.buffer nifs pass T with
  | none =>
    refine absurd ⟨hreceiver, fun buff hbuff => ?_⟩ h
    rw [hbuffer] at hbuff
    cases hbuff
  | some buff =>
    have hnot : ¬ ((∃ desReturn, decode host buff = .ok desReturn) ∧
        ∃ sum, addInt r.receivedBytes (nnd.listening.gained nifs pass T) = .ok sum) := by
      intro hreads
      refine h ⟨hreceiver, fun buff' hbuff' => ?_⟩
      rw [hbuffer] at hbuff'
      cases hbuff'
      exact hreads
    obtain ⟨e, hinput, hfault⟩ := takeBuffer_fault (T := T) hnot
    exact ⟨e, hinput, fun _ => receiveHalf_counts hreceiver hbuffer hfault⟩

end Halves

/-! ## The client of a pass -/

namespace Listening

variable (l : Listening) (pass : Pass)

/-- The client a pass accepts. -/
def accepted : Option Client :=
  match l.server, pass.client with
  | some server, some client =>
    if (server.acceptClient (some client.fd)).isOk then some client else none
  | _, _ => none

def Asks : Prop :=
  ∃ client pending, l.accepted pass = some client ∧ client.result = some (.read pending) ∧
    pending.take requestSize = l.requestString

def ReadFails : Prop := ∃ client, l.accepted pass = some client ∧ client.result = some .failed

/-- The part of a pass that looks for a client ends.  The failure of a read is
reported to a logger, and cannot be. -/
def ClientEnds (logging : Bool) : Prop :=
  ∀ client, l.accepted pass = some client →
    (∃ pending, client.result = some (.read pending)) ∨
      (client.result = some .failed ∧ logging = false)

variable {l pass}

theorem not_asks (h : l.accepted pass = none) : ¬ l.Asks pass := by
  simp [Asks, h]

/-- What a pass finds is what the read of the client it accepts ends with. -/
theorem asks_iff {client : Client} (h : l.accepted pass = some client) :
    l.Asks pass ↔ ∃ pending, client.result = some (.read pending) ∧
      pending.take requestSize = l.requestString := by
  simp [Asks, h]

theorem readFails_iff {client : Client} (h : l.accepted pass = some client) :
    l.ReadFails pass ↔ client.result = some .failed := by
  simp [ReadFails, h]

theorem clientEnds_iff {client : Client} {logging : Bool} (h : l.accepted pass = some client) :
    l.ClientEnds pass logging ↔ (∃ pending, client.result = some (.read pending)) ∨
      (client.result = some .failed ∧ logging = false) := by
  simp [ClientEnds, h]

end Listening

section Clients

variable {nnd : NetworkNeighborDiscoverer} {pass : Pass} {r : Reception} {logger : Logger}
  {client : Client}

theorem acceptRequest_none (h : nnd.listening.accepted pass = none) :
    Logging.Yields (acceptRequest nnd pass r) logger (.ok (r, none)) := by
  unfold Listening.accepted at h
  unfold acceptRequest
  cases hserver : nnd.unixDomainServer with
  | none => exact Logging.yields_pure _
  | some server =>
    rw [show nnd.listening.server = some server from hserver] at h
    dsimp only
    cases hclient : pass.client with
    | none =>
      have hfails : (server.acceptClient none).isOk = false := by
        unfold UnixSocket.acceptClient
        split <;> rfl
      rw [Option.map_none, hfails]
      exact Logging.yields_pure _
    | some client =>
      rw [hclient] at h
      dsimp only at h
      rw [Option.map_some]
      by_cases hok : (server.acceptClient (some client.fd)).isOk = true
      · rw [if_pos hok] at h
        cases h
      · rw [if_neg hok]
        exact Logging.yields_pure _

/-- From its acceptance on, a client decides what becomes of the pass. -/
theorem acceptRequest_some {o : Except Fault Bool} (h : nnd.listening.accepted pass = some client)
    (hreads : ∀ logger', logger'.isSome = logger.isSome → Logging.Yields (do
      let recReturn ← liftM (UnixSocket.readString requestSize client.reads)
      readRequest nnd recReturn) logger' o) :
    Logging.Yields (acceptRequest nnd pass r) logger (o.map fun requested => ({ r with
      clientSocket := some ⟨client.fd, [], false⟩
      receivedRequestFromCliClient := r.receivedRequestFromCliClient || requested },
      some ⟨client.fd, [], false⟩)) := by
  unfold Listening.accepted at h
  split at h
  · rename_i server client' hserver hclient
    split at h
    · rename_i hok
      cases h
      have hdata : (server.acceptClient (some client.fd)).data =
          some ⟨client.fd, [], false⟩ := by
        obtain ⟨c, hc⟩ := data_of_isOk hok
        obtain ⟨cfd, hcfd, rfl⟩ := UnixSocket.acceptClient_data hc
        cases hcfd
        exact hc
      unfold acceptRequest
      rw [show nnd.unixDomainServer = some server from hserver, hclient]
      dsimp only
      rw [Option.map_some, if_pos hok]
      refine (Logging.yields_guarded fun _ => ⟨_, rfl⟩).bind fun logger₁ hlogger₁ => ?_
      rw [hdata]
      refine (Logging.yields_lift rfl).bind fun logger₂ hlogger₂ => ?_
      have hread := hreads logger₂ (hlogger₂.trans hlogger₁)
      have hreceive : (⟨client.fd, [], false⟩ : UnixSocket).receiveString requestSize
          client.reads = UnixSocket.readString requestSize client.reads := rfl
      rw [Option.map_some, Option.getD_some, hreceive, ← bind_assoc]
      cases o with
      | error e => exact hread.fault
      | ok requested => exact hread.bind fun _ _ => Logging.yields_pure _
    · cases h
  · cases h

theorem Client.readString_eq (client : Client) (maxBytes : Nat) :
    UnixSocket.readString maxBytes client.reads =
      match client.result with
      | some (.read pending) => .ok (.ofData (pending.take maxBytes))
      | some .failed => .ok (.ofCodeData .Error (text "read() failed"))
      | _ => .error .waiting := UnixSocket.readString_eq maxBytes client.reads

theorem acceptRequest_read {pending : Bytes} (h : nnd.listening.accepted pass = some client)
    (hresult : client.result = some (.read pending)) :
    Logging.Yields (acceptRequest nnd pass r) logger (.ok ({ r with
      clientSocket := some ⟨client.fd, [], false⟩
      receivedRequestFromCliClient := r.receivedRequestFromCliClient ||
        decide (pending.take requestSize = nnd.localSettings.requestString) },
      some ⟨client.fd, [], false⟩)) := by
  apply acceptRequest_some (o := .ok _) h
  intro logger' _
  rw [client.readString_eq, hresult]
  refine (Logging.yields_lift rfl).bind fun logger₁ _ => ?_
  show Logging.Yields (do
    let request ← liftM (value (some (pending.take requestSize)))
    if request = nnd.localSettings.requestString then do
      Logging.guarded (.ok (.info (text "Received neigbhor list request from CLI program")))
      pure true
    else pure false) logger₁ _
  refine (Logging.yields_lift rfl).bind fun logger₂ _ => ?_
  by_cases hsame : pending.take requestSize = nnd.localSettings.requestString
  · rw [if_pos hsame, decide_eq_true hsame]
    exact (Logging.yields_guarded fun _ => ⟨_, rfl⟩).bind fun _ _ => Logging.yields_pure true
  · rw [if_neg hsame, decide_eq_false hsame]
    exact Logging.yields_pure false

/-- The text of a failed read is not where its message is looked for. -/
theorem acceptRequest_unread (h : nnd.listening.accepted pass = some client)
    (hresult : client.result = some .failed) (hlogger : logger.isSome = true) :
    Logging.Yields (acceptRequest nnd pass r) logger (.error .badOptionalAccess) := by
  apply acceptRequest_some (o := .error _) h
  intro logger' hlogger'
  rw [client.readString_eq, hresult]
  refine (Logging.yields_lift rfl).bind fun logger₁ hlogger₁ => ?_
  exact Logging.Yields.fault
    (Logging.yields_guarded_error (hlogger₁.trans (hlogger'.trans hlogger)))

theorem acceptRequest_unlogged (h : nnd.listening.accepted pass = some client)
    (hresult : client.result = some .failed) (hlogger : logger.isSome = false) :
    Logging.Yields (acceptRequest nnd pass r) logger (.ok ({ r with
      clientSocket := some ⟨client.fd, [], false⟩
      receivedRequestFromCliClient := r.receivedRequestFromCliClient || false },
      some ⟨client.fd, [], false⟩)) := by
  apply acceptRequest_some (o := .ok _) h
  intro logger' hlogger'
  rw [client.readString_eq, hresult]
  refine (Logging.yields_lift rfl).bind fun logger₁ hlogger₁ => ?_
  have hline : logger₁.isSome = true → ∃ line : LogLine,
      (Except.error .badOptionalAccess : Except Fault LogLine) = .ok line := by
    intro hlog
    rw [hlogger₁, hlogger', hlogger] at hlog
    cases hlog
  exact (Logging.yields_guarded hline).bind fun _ _ => Logging.yields_pure false

theorem acceptRequest_waits (h : nnd.listening.accepted pass = some client)
    (hread : ∀ pending, client.result ≠ some (.read pending))
    (hfailed : client.result ≠ some .failed) :
    Logging.Yields (acceptRequest nnd pass r) logger (.error .waiting) := by
  have hnone : client.result = none := by
    cases hresult : client.result with
    | none => rfl
    | some result =>
      cases result with
      | interrupted => exact absurd (List.find?_some hresult) (by decide)
      | failed => exact absurd hresult hfailed
      | read pending => exact absurd hresult (hread pending)
  apply acceptRequest_some (o := .error _) h
  intro logger' _
  rw [client.readString_eq, hnone]
  exact (Logging.yields_lift rfl).fault

theorem acceptRequest_ends {logging : Bool} (h : nnd.listening.ClientEnds pass logging) :
    ∃ r' accepted, (∀ logger : Logger, logger.isSome = logging →
        Logging.Yields (acceptRequest nnd pass r) logger (.ok (r', accepted))) ∧
      r'.receivedBytes = r.receivedBytes ∧
      (r'.receivedRequestFromCliClient = true ↔
        r.receivedRequestFromCliClient = true ∨ nnd.listening.Asks pass) ∧
      ∀ client, nnd.listening.accepted pass = some client →
        r'.clientSocket = some ⟨client.fd, [], false⟩ := by
  cases haccepted : nnd.listening.accepted pass with
  | none =>
    refine ⟨r, none, fun _ _ => acceptRequest_none haccepted, rfl, ?_, fun client hclient => ?_⟩
    · exact (or_iff_left (Listening.not_asks haccepted)).symm
    · cases hclient
  | some client =>
    have hsocket : ∀ client', some client = some client' →
        some (⟨client.fd, [], false⟩ : UnixSocket) = some ⟨client'.fd, [], false⟩ := by
      intro client' hclient'
      cases hclient'
      rfl
    have hasks := Listening.asks_iff haccepted
    rcases (Listening.clientEnds_iff haccepted).mp h with ⟨pending, hresult⟩ | ⟨hresult, hlogger⟩
    · refine ⟨_, _, fun _ _ => acceptRequest_read haccepted hresult, rfl, ?_, hsocket⟩
      dsimp only
      rw [Bool.or_eq_true, decide_eq_true_iff, hasks, hresult]
      simp [NetworkNeighborDiscoverer.listening]
    · subst hlogger
      refine ⟨_, _, fun _ => acceptRequest_unlogged haccepted hresult, rfl, ?_, hsocket⟩
      dsimp only
      rw [Bool.or_false, hasks, hresult]
      simp

/-- Where the search for a client does not end, the read failed or is still waited for. -/
theorem acceptRequest_fault {logging : Bool} (h : ¬ nnd.listening.ClientEnds pass logging) :
    ∃ e, (∀ logger : Logger, logger.isSome = logging →
        Logging.Yields (acceptRequest nnd pass r) logger (.error e)) ∧
      (∀ handle, e ≠ .nullDereference handle) ∧
      (e = .badOptionalAccess ↔ nnd.listening.ReadFails pass ∧ logging = true) := by
  cases haccepted : nnd.listening.accepted pass with
  | none =>
    refine absurd (fun client hclient => ?_) h
    rw [haccepted] at hclient
    cases hclient
  | some client =>
    rw [Listening.clientEnds_iff haccepted] at h
    rw [Listening.readFails_iff haccepted]
    by_cases hfailed : client.result = some .failed
    · have hlogging : logging = true :=
        Bool.eq_true_of_not_eq_false fun hfalse => h (Or.inr ⟨hfailed, hfalse⟩)
      refine ⟨.badOptionalAccess, fun _ hlogger => ?_, fun handle he => ?_, fun _ => ?_,
        fun _ => rfl⟩
      · exact acceptRequest_unread haccepted hfailed (hlogger.trans hlogging)
      · cases he
      · exact ⟨hfailed, hlogging⟩
    · have hread : ∀ pending, client.result ≠ some (.read pending) := by
        intro pending hresult
        exact h (Or.inl ⟨pending, hresult⟩)
      refine ⟨.waiting, fun _ _ => acceptRequest_waits haccepted hread hfailed,
        fun handle he => ?_, fun he => ?_, fun hboth => absurd hboth.1 hfailed⟩
      · cases he
      · cases he

end Clients

/-! ## A pass -/

namespace Listening

variable (l : Listening) (nifs : List NetInterface) (host : Host) (pass : Pass) (bytes : Int)
  (logging : Bool)

structure PassEnds : Prop where
  ipv6 : l.HalfEnds nifs host pass bytes .inet6
  ipv4 : l.HalfEnds nifs host pass (bytes + l.gained nifs pass .inet6) .inet
  client : l.ClientEnds pass logging

/-- The bytes received after a pass. -/
def received : Int := bytes + l.gained nifs pass .inet6 + l.gained nifs pass .inet

/-- A read fails in a pass that gets as far, and a logger asks for its message. -/
def Unexplained : Prop :=
  l.HalfEnds nifs host pass bytes .inet6 ∧
    l.HalfEnds nifs host pass (bytes + l.gained nifs pass .inet6) .inet ∧ l.ReadFails pass ∧
    logging = true

/-- The fault of a pass that does not end. -/
structure PassFault (e : Fault) : Prop where
  ipv6 : e = .nullDereference .ipv6receiver ↔ l.LacksReceiver nifs .inet6
  ipv4 : e = .nullDereference .ipv4receiver ↔
    l.HalfEnds nifs host pass bytes .inet6 ∧ l.LacksReceiver nifs .inet
  others : ∀ handle, e = .nullDereference handle → handle = .ipv6receiver ∨ handle = .ipv4receiver
  unread : e = .badOptionalAccess ↔ l.Unexplained nifs host pass bytes logging

variable {l nifs host pass bytes logging}

/-- A pass that ends has used no receiver that is missing. -/
theorem PassEnds.receivers (h : l.PassEnds nifs host pass bytes logging) (T : Family) :
    ¬ l.LacksReceiver nifs T := by
  cases T
  · exact h.ipv4.receiver
  · exact h.ipv6.receiver

theorem PassFault.lacks {e : Fault} {handle : Handle}
    (h : l.PassFault nifs host pass bytes logging e) (he : e = .nullDereference handle) :
    l.LacksReceiver nifs .inet6 ∨
      (l.HalfEnds nifs host pass bytes .inet6 ∧ l.LacksReceiver nifs .inet) := by
  rcases h.others handle he with rfl | rfl
  · exact Or.inl (h.ipv6.mp he)
  · exact Or.inr (h.ipv4.mp he)

/-- A pass whose failed read goes unexplained does not end. -/
theorem Unexplained.not_ends (h : l.Unexplained nifs host pass bytes logging) :
    ¬ l.PassEnds nifs host pass bytes logging := by
  intro hends
  obtain ⟨-, -, ⟨client, haccepted, hfailed⟩, hlogging⟩ := h
  have hclient := (clientEnds_iff haccepted).mp hends.client
  rw [hfailed, hlogging] at hclient
  simp at hclient

theorem passFault_null6 (h : l.LacksReceiver nifs .inet6) :
    l.PassFault nifs host pass bytes logging (.nullDereference .ipv6receiver) := by
  refine ⟨⟨fun _ => h, fun _ => rfl⟩, ⟨fun he => ?_, fun hboth => absurd h hboth.1.receiver⟩,
    fun handle he => ?_, ⟨fun he => ?_, fun hread => absurd h hread.1.receiver⟩⟩
  · cases he
  · cases he
    exact Or.inl rfl
  · cases he

theorem passFault_null4 (h6 : l.HalfEnds nifs host pass bytes .inet6)
    (h : l.LacksReceiver nifs .inet) :
    l.PassFault nifs host pass bytes logging (.nullDereference .ipv4receiver) := by
  refine ⟨⟨fun he => ?_, fun hlacks => absurd hlacks h6.receiver⟩,
    ⟨fun _ => ⟨h6, h⟩, fun _ => rfl⟩, fun handle he => ?_,
    ⟨fun he => ?_, fun hread => absurd h hread.2.1.receiver⟩⟩
  · cases he
  · cases he
    exact Or.inr rfl
  · cases he

/-- Any other fault, in a pass that uses no receiver which is missing. -/
theorem passFault_other {e : Fault} (h6 : ¬ l.LacksReceiver nifs .inet6)
    (h4 : l.HalfEnds nifs host pass bytes .inet6 → ¬ l.LacksReceiver nifs .inet)
    (hnull : ∀ handle, e ≠ .nullDereference handle)
    (hread : e = .badOptionalAccess ↔ l.Unexplained nifs host pass bytes logging) :
    l.PassFault nifs host pass bytes logging e :=
  ⟨⟨fun he => absurd he (hnull _), fun h => absurd h h6⟩,
    ⟨fun he => absurd he (hnull _), fun h => absurd h.2 (h4 h.1)⟩,
    fun _ he => absurd he (hnull _), hread⟩

end Listening

section Passes

variable {host : Host} {nnd : NetworkNeighborDiscoverer} {nifs : List NetInterface} {pass : Pass}
  {r : Reception} {logging : Bool}

theorem receivePass_ends (h : nnd.listening.PassEnds nifs host pass r.receivedBytes logging) :
    ∃ r', (∀ logger : Logger, logger.isSome = logging →
        Logging.Yields (receivePass host nnd nifs pass r) logger (.ok r')) ∧
      r'.receivedBytes = nnd.listening.received nifs pass r.receivedBytes ∧
      (r'.receivedRequestFromCliClient = true ↔
        r.receivedRequestFromCliClient = true ∨ nnd.listening.Asks pass) ∧
      ∀ client, nnd.listening.accepted pass = some client →
        r'.clientSocket = some ⟨client.fd, [], false⟩ := by
  obtain ⟨r₁, h₁, hbytes₁, hrequest₁, -⟩ := receiveHalf_ends h.ipv6
  have hends := h.ipv4
  rw [← hbytes₁] at hends
  obtain ⟨r₂, h₂, hbytes₂, hrequest₂, -⟩ := receiveHalf_ends hends
  obtain ⟨r₃, accepted, h₃, hbytes₃, hrequest₃, hsocket⟩ := acceptRequest_ends (r := r₂) h.client
  refine ⟨{ r₃ with passes := r₃.passes ++ [⟨nnd.listening.buffer nifs pass .inet6,
    nnd.listening.buffer nifs pass .inet, accepted⟩] }, fun logger hlogger => ?_, ?_, ?_, hsocket⟩
  · unfold receivePass
    refine (h₁ logger).bind fun logger₁ hlogger₁ => (h₂ logger₁).bind fun logger₂ hlogger₂ => ?_
    exact (h₃ logger₂ (hlogger₂.trans (hlogger₁.trans hlogger))).bind fun _ _ =>
      Logging.yields_pure _
  · show r₃.receivedBytes = _
    rw [hbytes₃, hbytes₂, hbytes₁]
    rfl
  · show r₃.receivedRequestFromCliClient = true ↔ _
    rw [hrequest₃, hrequest₂, hrequest₁]

theorem receivePass_fault (h : ¬ nnd.listening.PassEnds nifs host pass r.receivedBytes logging) :
    ∃ e, (∀ logger : Logger, logger.isSome = logging →
        Logging.Yields (receivePass host nnd nifs pass r) logger (.error e)) ∧
      nnd.listening.PassFault nifs host pass r.receivedBytes logging e := by
  by_cases hlacks6 : nnd.listening.LacksReceiver nifs .inet6
  · exact ⟨_, fun logger _ => (receiveHalf_null hlacks6.1 hlacks6.2).fault, Listening.passFault_null6 hlacks6⟩
  · by_cases h6 : nnd.listening.HalfEnds nifs host pass r.receivedBytes .inet6
    · obtain ⟨r₁, hrun₁, hbytes₁, -, -⟩ := receiveHalf_ends h6
      by_cases hlacks4 : nnd.listening.LacksReceiver nifs .inet
      · exact ⟨_, fun logger _ => (hrun₁ logger).bind fun _ _ => (receiveHalf_null hlacks4.1 hlacks4.2).fault,
          Listening.passFault_null4 h6 hlacks4⟩
      · by_cases h4 : nnd.listening.HalfEnds nifs host pass r₁.receivedBytes .inet
        · -- Both halves end, so it is the client that keeps the pass from ending.
          obtain ⟨r₂, hrun₂, -, -, -⟩ := receiveHalf_ends h4
          rw [hbytes₁] at h4
          have hclient : ¬ nnd.listening.ClientEnds pass logging := fun hends =>
            h ⟨h6, h4, hends⟩
          obtain ⟨e, hrun₃, hnull, hread⟩ := acceptRequest_fault (r := r₂) hclient
          refine ⟨e, fun logger hlogger => (hrun₁ logger).bind fun logger₁ hlogger₁ =>
            (hrun₂ logger₁).bind fun logger₂ hlogger₂ =>
              (hrun₃ logger₂ (hlogger₂.trans (hlogger₁.trans hlogger))).fault, ?_⟩
          exact Listening.passFault_other hlacks6 (fun _ => hlacks4) hnull
            ⟨fun he => ⟨h6, h4, hread.mp he⟩, fun hboth => hread.mpr hboth.2.2⟩
        · obtain ⟨e, hinput, hrun₂⟩ := receiveHalf_fault hlacks4 h4
          rw [hbytes₁] at h4
          refine ⟨e, fun logger _ => (hrun₁ logger).bind fun logger₁ _ =>
            (hrun₂ logger₁).fault, ?_⟩
          exact Listening.passFault_other hlacks6 (fun _ => hlacks4) hinput.not_null
            ⟨fun he => absurd he hinput.not_optional, fun hread => absurd hread.2.1 h4⟩
    · obtain ⟨e, hinput, hrun₁⟩ := receiveHalf_fault hlacks6 h6
      refine ⟨e, fun logger _ => (hrun₁ logger).fault, ?_⟩
      exact Listening.passFault_other hlacks6 (fun hends => absurd hends h6) hinput.not_null
        ⟨fun he => absurd he hinput.not_optional, fun hread => absurd hread.1 h6⟩

end Passes

end NeighborDiscovery
