/-
The daemon program.

`main` makes the discoverer, turns the process into a daemon and runs an iteration in
every turn of `Process::run`.  What it runs is a run of the daemon, so whatever holds
of all runs of the discoverer holds of the program.
-/
import NeighborDiscovery.Cli.CppCliNeighborRequestor
import NeighborDiscovery.Network.DaemonRun
import NeighborDiscovery.Processes.Process

namespace NeighborDiscovery

/-! ## Constants of `Config` -/

def PORT : UInt16 := 5320

def SENDING_PERIOD_SECONDS : UInt32 := 30

def NEIGHBOR_ACTIVITY_PERIOD_SECONDS : UInt32 := 30

def STD_REDIRECT_PATH : Bytes := text "/tmp/cppneighbordiscovery.log"

def ITERATION_PERIOD_SECONDS : UInt32 := 20

namespace Processes

/-! ## `main` -/

def netSettings : DiscoverySettings where
  port := PORT
  sendingPeriodS := SENDING_PERIOD_SECONDS
  neighborActivityPeriodS := NEIGHBOR_ACTIVITY_PERIOD_SECONDS
  maxBufferSize := SINGLE_MESSAGE_MAX_SIZE_BYTES.toUInt32

def localCommSettings : UnixDomainSettings where
  requestString := UNIX_DOMAIN_REQUEST_COMMAND
  socketPath := UNIX_DOMAIN_SOCKET_PATH

def service : Process where
  cyclic := true
  iterationPeriodS := ITERATION_PERIOD_SECONDS
  logPath := STD_REDIRECT_PATH

/-- The discoverer when `run` is called.  What `daemonize` returns is not used, and the
logger is not null. -/
def started (netSettings : DiscoverySettings) (localCommSettings : UnixDomainSettings)
    (calls : SetupCalls) : Except Fault NetworkNeighborDiscoverer := do
  let discoverer ← construct (some []) netSettings localCommSettings calls
  let ((), logger) ← Logging.unguarded (.info (text "Service started")) discoverer.logger
  return { discoverer with logger := logger }

abbrev ServiceTurn := TurnEvent NetworkNeighborDiscoverer Env Output

/-- The turns that the program has made with some settings, and the discoverer after them. -/
def ServiceRun (process : Process) (netSettings : DiscoverySettings)
    (localCommSettings : UnixDomainSettings) (host : Host) (calls : SetupCalls)
    (h : List ServiceTurn) (s : NetworkNeighborDiscoverer) : Prop :=
  ∃ discoverer, started netSettings localCommSettings calls = .ok discoverer ∧
    process.Run (some fun nnd env => runIteration host env nnd) discoverer h ⟨s, true⟩

/-- The turns of `main`. -/
abbrev MainRun := ServiceRun service netSettings localCommSettings

/-- The iteration of a turn. -/
def iterationOf (e : ServiceTurn) : Iteration := e.map Loop.state Turn.input Turned.output

/-! ## Runs of the service -/

theorem turn_iterates {process : Process} {host : Host} {p p' : Loop NetworkNeighborDiscoverer}
    {t : Turn Env} {out : Turned Output}
    (h : process.Turns (some fun nnd env => runIteration host env nnd) p t out p') :
    Iterates host p.state t.input out.output p'.state := by
  obtain ⟨-, f, hf, hturn⟩ := h
  obtain rfl := Option.some.inj hf
  unfold Process.turn at hturn
  obtain ⟨⟨nnd', out'⟩, hstep, hturn⟩ := Fallible.bind_eq_ok.mp hturn
  cases hturn
  exact hstep

theorem started_initial {settings : DiscoverySettings} {localSettings : UnixDomainSettings}
    {calls : SetupCalls} {discoverer : NetworkNeighborDiscoverer}
    (h : started settings localSettings calls = .ok discoverer) :
    Initial settings localSettings discoverer := by
  unfold started at h
  obtain ⟨made, hmade, h⟩ := Fallible.bind_eq_ok.mp h
  obtain ⟨⟨_, logger⟩, -, h⟩ := Fallible.bind_eq_ok.mp h
  cases h
  have hinit := construct_ok hmade
  exact ⟨hinit.settings, hinit.localSettings, hinit.neighbors, hinit.prevNifs, hinit.targets,
    hinit.groups⟩

section Runs

variable {process : Process} {settings : DiscoverySettings}
  {localSettings : UnixDomainSettings} {host : Host} {calls : SetupCalls}
  {h : List ServiceTurn} {s : NetworkNeighborDiscoverer}

/-- What the program runs is a run of the daemon. -/
theorem ServiceRun.daemonRun (hrun : ServiceRun process settings localSettings host calls h s) :
    ∃ init, Initial settings localSettings init ∧
      DaemonRun host init (h.map iterationOf) s := by
  obtain ⟨discoverer, hstarted, hrun⟩ := hrun
  exact ⟨discoverer, started_initial hstarted,
    hrun.map Loop.state Turn.input Turned.output fun _ _ _ _ => turn_iterates⟩

/-- The last turn of a run, and what was run before it. -/
theorem ServiceRun.last {e : ServiceTurn}
    (hrun : ServiceRun process settings localSettings host calls (h ++ [e]) s) :
    ServiceRun process settings localSettings host calls h e.before.state ∧
      Iterates host e.before.state e.input.input e.output.output s ∧
      e.before.state.settings = settings ∧ e.after.state = s := by
  obtain ⟨discoverer, hstarted, hrun⟩ := hrun
  obtain ⟨hbefore, hturn, hs⟩ := hrun.last
  have hstate : e.after.state = s := congrArg Loop.state hs.symm
  have hloop : e.before = ⟨e.before.state, true⟩ := by rw [← hturn.1]
  have hrest : ServiceRun process settings localSettings host calls h e.before.state :=
    ⟨discoverer, hstarted, hloop ▸ hbefore⟩
  obtain ⟨init, hinit, hdaemon⟩ := hrest.daemonRun
  exact ⟨hrest, hstate ▸ turn_iterates hturn, hdaemon.settings_eq.trans hinit.settings, hstate⟩

end Runs

end Processes

end NeighborDiscovery
