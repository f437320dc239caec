/-
Half a pass of the receive loop.

The two halves differ in the handle they use and in what they do first with a buffer
that data arrived in.  Behind its gate, which is the sender, a half uses the receiver
first of all; then it takes the buffer, and the decoder may end it.
-/
import NeighborDiscovery.Network.Discovery

namespace NeighborDiscovery

/-- The half of a pass that reads the receiver of a family. -/
def receiveHalf (host : Host) (T : Family) (nnd : NetworkNeighborDiscoverer) (canUse : Bool)
    (pass : Pass) (r : Reception) : Logging (Reception × Option Bytes) :=
  match T with
  | .inet => receiveIPv4 host nnd canUse pass r
  | .inet6 => receiveIPv6 host nnd canUse pass r

def receiverOf : Family → Handle
  | .inet => .ipv4receiver
  | .inet6 => .ipv6receiver

section ReceiveHalf

variable {host : Host}

/-! ## Decoding -/

theorem decode_eq_ok {b : Bytes} {r : FunctionReturn (List NetInterface)} :
    decode host b = .ok r ↔
      ∃ o, (deserializeNetInterfaces host.order host.lim b).run 0 = .ok (r, o) := by
  show Prod.fst <$> (deserializeNetInterfaces host.order host.lim b).run 0 = .ok r ↔ _
  cases (deserializeNetInterfaces host.order host.lim b).run 0 with
  | error e =>
    constructor
    · intro h
      cases h
    · intro h
      obtain ⟨o, h⟩ := h
      cases h
  | ok p =>
    obtain ⟨r', o⟩ := p
    constructor
    · intro h
      cases h
      exact ⟨o, rfl⟩
    · intro h
      obtain ⟨o', h⟩ := h
      cases h
      rfl

theorem decode_fault {b : Bytes} {e : Fault} (h : decode host b = .error e) : e.OfInput := by
  have h : Prod.fst <$> (deserializeNetInterfaces host.order host.lim b).run 0 = .error e := h
  rw [map_eq_pure_bind] at h
  rcases Fallible.bind_eq_error.mp h with hrun | ⟨p, -, h⟩
  · exact netInterfaces_faultsOfInput host.order host.lim b 0 e hrun
  · cases h

theorem storeReceived_yields {b : Bytes} {desReturn : FunctionReturn (List NetInterface)}
    (hdecode : decode host b = .ok desReturn) (m : KeyedMap.Map Bytes NetInterface)
    (logger : Logger) :
    Logging.Yields (storeReceived host b m) logger (.ok (storeNifs m (decodedNifs host b))) := by
  have hnifs : decodedNifs host b = desReturn.toOption.getD [] := by
    unfold decodedNifs
    rw [hdecode]
  rw [hnifs]
  unfold storeReceived
  refine (Logging.yields_lift hdecode).bind fun logger₁ hlogger₁ => ?_
  by_cases hok : desReturn.isOk = true
  · obtain ⟨nifs, hdata⟩ := data_of_isOk hok
    rw [if_pos hok, hdata, FunctionReturn.toOption_eq_some.mpr ⟨hok, hdata⟩]
    exact Logging.yields_pure _
  · obtain ⟨o, hrun⟩ := decode_eq_ok.mp hdecode
    obtain ⟨m', hmsg⟩ :=
      (netInterfaces_failsWithMsg host.order host.lim b 0 desReturn o hrun).resolve_left hok
    rw [if_neg hok, hmsg, FunctionReturn.isOk_eq_false.mp (Bool.eq_false_iff.mpr hok)]
    exact (Logging.yields_guarded fun _ => ⟨_, rfl⟩).bind fun _ _ => Logging.yields_pure _

theorem storeReceived_fault {b : Bytes} {e : Fault} (hdecode : decode host b = .error e)
    (m : KeyedMap.Map Bytes NetInterface) (logger : Logger) :
    Logging.Yields (storeReceived host b m) logger (.error e) :=
  (Logging.yields_lift hdecode).fault

/-! ## Taking a buffer -/

variable {T : Family} {nnd : NetworkNeighborDiscoverer} {use : Bool} {pass : Pass}
  {r : Reception} {logger : Logger}

/-- What a half of a pass does with a buffer that data arrived in. -/
def takeBuffer (host : Host) (T : Family) (rbuff : Bytes) (n : Int) (r : Reception) :
    Logging (Reception × Option Bytes) :=
  match T with
  | .inet => do
    let receivedBytes ← liftM (addInt r.receivedBytes n)
    let receivedNifs ← storeReceived host rbuff r.receivedNifs
    pure ({ r with receivedNifs := receivedNifs, receivedBytes := receivedBytes }, some rbuff)
  | .inet6 => do
    let receivedNifs ← storeReceived host rbuff r.receivedNifs
    let receivedBytes ← liftM (addInt r.receivedBytes n)
    pure ({ r with receivedNifs := receivedNifs, receivedBytes := receivedBytes }, some rbuff)

theorem takeBuffer_yields {buff : Bytes} {desReturn : FunctionReturn (List NetInterface)}
    {n sum : Int} (hdecode : decode host buff = .ok desReturn)
    (hsum : addInt r.receivedBytes n = .ok sum) :
    Logging.Yields (takeBuffer host T buff n r) logger (.ok ({ r with
      receivedNifs := storeNifs r.receivedNifs (decodedNifs host buff)
      receivedBytes := sum }, some buff)) := by
  cases T with
  | inet =>
    exact (Logging.yields_lift hsum).bind fun _ _ =>
      (storeReceived_yields hdecode _ _).bind fun _ _ => Logging.yields_pure _
  | inet6 =>
    exact (storeReceived_yields hdecode _ _).bind fun _ _ =>
      (Logging.yields_lift hsum).bind fun _ _ => Logging.yields_pure _

theorem addInt_fault {a b : Int} {e : Fault} (h : addInt a b = .error e) : e.OfInput := by
  unfold addInt at h
  split at h
  · cases h
  · cases h
    trivial

/-- A buffer that is not taken well is the reason for a fault. -/
theorem takeBuffer_fault {buff : Bytes} {n : Int}
    (h : ¬ ((∃ desReturn, decode host buff = .ok desReturn) ∧
      ∃ sum, addInt r.receivedBytes n = .ok sum)) :
    ∃ e : Fault, e.OfInput ∧ ∀ logger,
      Logging.Yields (takeBuffer host T buff n r) logger (.error e) := by
  cases hsum : addInt r.receivedBytes n with
  | error e =>
    cases hdecode : decode host buff with
    | error e' =>
      cases T with
      | inet => exact ⟨e, addInt_fault hsum, fun _ => (Logging.yields_lift hsum).fault⟩
      | inet6 =>
        exact ⟨e', decode_fault hdecode, fun _ => (storeReceived_fault hdecode _ _).fault⟩
    | ok desReturn =>
      refine ⟨e, addInt_fault hsum, fun logger => ?_⟩
      cases T with
      | inet => exact (Logging.yields_lift hsum).fault
      | inet6 =>
        exact (storeReceived_yields hdecode _ _).bind fun _ _ => (Logging.yields_lift hsum).fault
  | ok sum =>
    cases hdecode : decode host buff with
    | error e =>
      refine ⟨e, decode_fault hdecode, fun logger => ?_⟩
      cases T with
      | inet =>
        exact (Logging.yields_lift hsum).bind fun _ _ => (storeReceived_fault hdecode _ _).fault
      | inet6 => exact (storeReceived_fault hdecode _ _).fault
    | ok desReturn => exact absurd ⟨⟨desReturn, hdecode⟩, sum, hsum⟩ h

theorem addInt_ok {a b sum : Int} (h : addInt a b = .ok sum) : sum = a + b := by
  unfold addInt at h
  split at h
  · cases h
    rfl
  · cases h

/-! ## The halves -/

theorem receiveHalf_ok {T : Family} {nnd : NetworkNeighborDiscoverer} {use : Bool} {pass : Pass}
    {r r' : Reception} {buff : Option Bytes} {logger logger' : Logger}
    (h : receiveHalf host T nnd use pass r logger = .ok ((r', buff), logger')) :
    r'.receivedNifs = storeNifs r.receivedNifs (decodedAll host
      (filled nnd.settings.maxBufferSize (use && (nnd.sender T).isSome)
        (pass.incoming T)).toList) := by
  cases T
  · exact (receiveIPv4_ok host h).nifs
  · exact (receiveIPv6_ok host h).nifs

/-- The halves, the receiver of the family being the first they use. -/
theorem receiveHalf_eq : receiveHalf host T nnd use pass r =
    if (use && (nnd.sender T).isSome) = true then do
      let _ ← liftM (deref (receiverOf T) (nnd.receiver T))
      if toInt (IPMulticastReceiver.receive nnd.settings.maxBufferSize (pass.incoming T)).2 > 0 then do
        Logging.guarded (.ok (receivedLine
          (toInt (IPMulticastReceiver.receive nnd.settings.maxBufferSize (pass.incoming T)).2)
          (pass.incoming T)))
        takeBuffer host T
          (IPMulticastReceiver.receive nnd.settings.maxBufferSize (pass.incoming T)).1
          (toInt (IPMulticastReceiver.receive nnd.settings.maxBufferSize (pass.incoming T)).2) r
      else pure (r, none)
    else pure (r, none) := by
  cases T
  · rfl
  · rfl

theorem receiveHalf_null (hused : (use && (nnd.sender T).isSome) = true)
    (hreceiver : (nnd.receiver T).isSome = false) :
    Logging.Yields (receiveHalf host T nnd use pass r) logger
      (.error (.nullDereference (receiverOf T))) := by
  have hnull : deref (receiverOf T) (nnd.receiver T) = .error (.nullDereference (receiverOf T)) := by
    rw [Option.isSome_eq_false_iff, Option.isNone_iff_eq_none] at hreceiver
    rw [hreceiver]
    rfl
  rw [receiveHalf_eq, if_pos hused]
  exact (Logging.yields_lift hnull).fault

theorem deref_receiver (hreceiver : (nnd.receiver T).isSome = true) :
    ∃ receiver, deref (receiverOf T) (nnd.receiver T) = .ok receiver := by
  obtain ⟨receiver, hr⟩ := Option.isSome_iff_exists.mp hreceiver
  rw [hr]
  exact ⟨receiver, rfl⟩

/-- A half of a pass that reads nothing changes nothing. -/
theorem receiveHalf_empty
    (hreceiver : (use && (nnd.sender T).isSome) = true → (nnd.receiver T).isSome = true)
    (hbuffer : filled nnd.settings.maxBufferSize (use && (nnd.sender T).isSome)
      (pass.incoming T) = none) :
    Logging.Yields (receiveHalf host T nnd use pass r) logger (.ok (r, none)) := by
  rw [receiveHalf_eq]
  by_cases hused : (use && (nnd.sender T).isSome) = true
  · obtain ⟨receiver, hr⟩ := deref_receiver (hreceiver hused)
    rw [if_pos hused]
    refine (Logging.yields_lift hr).bind fun _ _ => ?_
    have hsize : ¬ toInt (IPMulticastReceiver.receive nnd.settings.maxBufferSize
        (pass.incoming T)).2 > 0 := by
      intro hsize
      unfold filled at hbuffer
      rw [if_pos ⟨hused, hsize⟩] at hbuffer
      cases hbuffer
    rw [if_neg hsize]
    exact Logging.yields_pure _
  · rw [if_neg hused]
    exact Logging.yields_pure _

/-- A half of a pass that finds data goes on with its buffer. -/
theorem receiveHalf_takes {buff : Bytes} {o : Except Fault (Reception × Option Bytes)}
    (hreceiver : (nnd.receiver T).isSome = true)
    (hbuffer : filled nnd.settings.maxBufferSize (use && (nnd.sender T).isSome)
      (pass.incoming T) = some buff)
    (htakes : ∀ logger', logger'.isSome = logger.isSome → Logging.Yields
      (takeBuffer host T buff
        (toInt (IPMulticastReceiver.receive nnd.settings.maxBufferSize (pass.incoming T)).2) r)
      logger' o) :
    Logging.Yields (receiveHalf host T nnd use pass r) logger o := by
  unfold filled at hbuffer
  split at hbuffer
  · rename_i hused
    cases hbuffer
    obtain ⟨receiver, hr⟩ := deref_receiver hreceiver
    rw [receiveHalf_eq, if_pos hused.1]
    refine (Logging.yields_lift hr).bind fun logger₁ hlogger₁ => ?_
    rw [if_pos (show toInt (IPMulticastReceiver.receive nnd.settings.maxBufferSize
      (pass.incoming T)).2 > 0 from hused.2)]
    exact (Logging.yields_guarded fun _ => ⟨_, rfl⟩).bind fun logger₂ hlogger₂ =>
      htakes logger₂ (hlogger₂.trans hlogger₁)
  · cases hbuffer

end ReceiveHalf

end NeighborDiscovery
