/-
The handles of the daemon that may be null.

Which sockets exist is settled by the constructor, and no iteration changes it.  The
sockets that could not be made are left out by tests, with two gaps: the receivers
are used behind tests of the senders, and the line about a reply that was sent is
written without a test of the logger.
-/
import NeighborDiscovery.Network.IterationFaults

namespace NeighborDiscovery

/-! ## What the constructor makes -/

section Setup

variable {logger : Logger}

theorem setupSocket_yields {S : Type} {funcReturn : FunctionReturn S} (failure : Bytes)
    (h : funcReturn.isOk = true ∨ ∃ m, funcReturn.msg = some m) :
    Logging.Yields (setupSocket funcReturn failure) logger (.ok funcReturn.toOption) := by
  unfold setupSocket
  by_cases hok : funcReturn.isOk = true
  · obtain ⟨s, hdata⟩ := data_of_isOk hok
    rw [if_pos hok, hdata, FunctionReturn.toOption_eq_some.mpr ⟨hok, hdata⟩]
    exact (Logging.yields_lift rfl).bind fun _ _ => Logging.yields_pure _
  · obtain ⟨m, hm⟩ := h.resolve_left hok
    rw [if_neg hok, hm, FunctionReturn.isOk_eq_false.mp (Bool.eq_false_iff.mpr hok)]
    exact (Logging.yields_guarded fun _ => ⟨_, rfl⟩).bind fun _ _ => Logging.yields_pure _

theorem senderFactory_explained (T : Family) (fd : Option Nat) :
    (IPMulticastSender.factory T fd).isOk = true ∨
      ∃ m, (IPMulticastSender.factory T fd).msg = some m := by
  cases fd with
  | none => exact Or.inr ⟨_, rfl⟩
  | some fd => exact Or.inl rfl

theorem receiverFactory_explained (T : Family) (port : UInt16) (calls : ReceiverCalls) :
    (IPMulticastReceiver.factory T port calls).isOk = true ∨
      ∃ m, (IPMulticastReceiver.factory T port calls).msg = some m := by
  unfold IPMulticastReceiver.factory
  split
  · exact Or.inr ⟨_, rfl⟩
  · split
    · exact Or.inr ⟨_, rfl⟩
    · split
      · exact Or.inr ⟨_, rfl⟩
      · exact Or.inl rfl

theorem serverFactory_explained (path : Bytes) (calls : ServerCalls) :
    (UnixSocket.serverFactory path calls).isOk = true ∨
      ∃ m, (UnixSocket.serverFactory path calls).msg = some m := by
  unfold UnixSocket.serverFactory
  split
  · exact Or.inr ⟨_, rfl⟩
  · split
    · exact Or.inr ⟨_, rfl⟩
    · split
      · exact Or.inr ⟨_, rfl⟩
      · exact Or.inl rfl

/-- What the five factories make. -/
def SetupCalls.listening (calls : SetupCalls) (settings : DiscoverySettings)
    (localSettings : UnixDomainSettings) : Listening where
  settings := settings
  requestString := localSettings.requestString
  server := (UnixSocket.serverFactory localSettings.socketPath calls.unixDomain).toOption
  hasSender T := (IPMulticastSender.factory T (calls.senderSocket T)).toOption.isSome
  hasReceiver T :=
    (IPMulticastReceiver.factory T settings.port (calls.receiver T)).toOption.isSome

/-- The constructor returns whatever the factories do. -/
theorem construct_returns (logger : Logger) (settings : DiscoverySettings)
    (localSettings : UnixDomainSettings) (calls : SetupCalls) :
    ∃ nnd, construct logger settings localSettings calls = .ok nnd ∧
      nnd.listening = calls.listening settings localSettings ∧
      nnd.logger.isSome = logger.isSome := by
  have h4 : ∀ logger, Logging.Yields (setupIPv4Sockets settings calls) logger (.ok
      ((IPMulticastSender.factory .inet (calls.senderSocket .inet)).toOption,
        (IPMulticastReceiver.factory .inet settings.port (calls.receiver .inet)).toOption)) :=
    fun _ => (setupSocket_yields _ (senderFactory_explained _ _)).bind fun _ _ =>
      (setupSocket_yields _ (receiverFactory_explained _ _ _)).bind fun _ _ =>
        Logging.yields_pure _
  have h6 : ∀ logger, Logging.Yields (setupIPv6Sockets settings calls) logger (.ok
      ((IPMulticastSender.factory .inet6 (calls.senderSocket .inet6)).toOption,
        (IPMulticastReceiver.factory .inet6 settings.port (calls.receiver .inet6)).toOption)) :=
    fun _ => (setupSocket_yields _ (senderFactory_explained _ _)).bind fun _ _ =>
      (setupSocket_yields _ (receiverFactory_explained _ _ _)).bind fun _ _ =>
        Logging.yields_pure _
  have hunix : ∀ logger, Logging.Yields (setupUnixDomainSockets localSettings calls) logger (.ok
      (UnixSocket.serverFactory localSettings.socketPath calls.unixDomain).toOption) :=
    fun _ => setupSocket_yields _ (serverFactory_explained _ _)
  obtain ⟨logger₁, hrun₁, hsome₁⟩ := h4 logger
  obtain ⟨logger₂, hrun₂, hsome₂⟩ := h6 logger₁
  obtain ⟨logger₃, hrun₃, hsome₃⟩ := hunix logger₂
  unfold construct
  rw [hrun₁, Fallible.ok_bind]
  dsimp only
  rw [hrun₂, Fallible.ok_bind]
  dsimp only
  rw [hrun₃]
  refine ⟨_, rfl, ?_, hsome₃.trans (hsome₂.trans hsome₁)⟩
  show Listening.mk _ _ _ _ _ = Listening.mk _ _ _ _ _
  congr 1
  · funext T
    cases T <;> rfl
  · funext T
    cases T <;> rfl

end Setup

/-! ## Runs -/

section Runs

variable {host : Host} {init s : NetworkNeighborDiscoverer} {h : List Iteration}

theorem DaemonRun.listening_eq (hrun : DaemonRun host init h s) :
    s.listening = init.listening ∧ s.logger.isSome = init.logger.isSome :=
  hrun.invariant
    (fun _ s => s.listening = init.listening ∧ s.logger.isSome = init.logger.isSome)
    ⟨rfl, rfl⟩ fun _ _ _ _ _ _ hstep ih =>
      ⟨(runIteration_listening hstep).1.trans ih.1, (runIteration_listening hstep).2.trans ih.2⟩

/-- No null pointer is used, in any iteration of any run, but for the two gaps. -/
theorem no_null_dereference_iff {logger : Logger} {settings : DiscoverySettings}
    {localSettings : UnixDomainSettings} {calls : SetupCalls}
    (hinit : construct logger settings localSettings calls = .ok init)
    (hrun : DaemonRun host init h s) (env : Env) :
    (∀ handle, runIteration host env s ≠ .error (.nullDereference handle)) ↔
      ¬ FirstPassLacks host env (calls.listening settings localSettings) ∧
        (logger = none → env.nifs ≠ [] → ¬ Answers host env s false) := by
  obtain ⟨nnd, hmade, hlistening, hlogger⟩ := construct_returns logger settings localSettings calls
  rw [hinit] at hmade
  cases hmade
  have hsome : s.logger.isSome = logger.isSome := hrun.listening_eq.2.trans hlogger
  have hiff := @runIteration_null_iff host env s
  rw [hrun.listening_eq.1, hlistening, hsome, Option.isSome_eq_false_iff,
    Option.isNone_iff_eq_none] at hiff
  rw [← not_exists, hiff, not_or]
  refine and_congr_right fun _ => ?_
  constructor
  · intro hnot hnone hnifs hanswers
    exact hnot ⟨hnone, hnifs, hanswers⟩
  · intro hnot hall
    exact hnot hall.1 hall.2.1 hall.2.2

end Runs

set_option maxRecDepth 10000 in
theorem no_null_dereference_iff_small :
    ∃ s h, DaemonRun Small.host Small.init h s ∧ h ≠ [] ∧
      ((∀ handle, runIteration Small.host Small.asks s ≠ .error (.nullDereference handle)) ↔
        ¬ FirstPassLacks Small.host Small.asks
            (Small.calls.listening Small.settings Small.localSettings) ∧
          (some ([] : List LogLine) = none → Small.asks.nifs ≠ [] →
            ¬ Answers Small.host Small.asks s false)) := by
  have hmade : ∃ e, iterations Small.host Small.init [Small.learns] = some [e] := ⟨_, rfl⟩
  obtain ⟨e, hmade⟩ := hmade
  obtain ⟨s, hrun⟩ := Small.run hmade
  exact ⟨s, [e], hrun, List.cons_ne_nil _ _,
    no_null_dereference_iff Small.construct_init hrun Small.asks⟩

/-- The set-up of a host on which the IPv6 receiver cannot be bound. -/
def Small.unbound : SetupCalls where
  senderSocket
    | .inet => some 3
    | .inet6 => some 5
  receiver
    | .inet => ⟨some 4, true, true⟩
    | .inet6 => ⟨some 6, true, false⟩
  unixDomain := ⟨some 6, true, true⟩

set_option maxRecDepth 10000 in
/-- A receiver that could not be made is used, and so is a logger that is not there. -/
theorem null_dereferenced :
    (∃ nnd, construct (some []) Small.settings Small.localSettings Small.unbound = .ok nnd ∧
      runIteration Small.host (Small.quiet [Small.eth0]) nnd =
        .error (.nullDereference .ipv6receiver)) ∧
    ∃ nnd, construct none Small.settings Small.localSettings Small.calls = .ok nnd ∧
      runIteration Small.host Small.asks nnd = .error (.nullDereference .logger) :=
  ⟨⟨_, rfl, rfl⟩, ⟨_, rfl, rfl⟩⟩

end NeighborDiscovery
