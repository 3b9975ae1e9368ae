import Mathlib.Tactic.Common

/-! The night-light controller: a probe for a foreign hyprsunset, an owned daemon, and the commands
sent to it. Every event is handled to its end before the next one. -/
namespace HyprShelld.Hyprsunset

inductive ProcessState
  | notRunning | starting | running
  deriving DecidableEq, Repr

inductive State
  | disabled | probing | externalDaemon | starting | applying | ready | retryWaiting | stopping | failed
  deriving DecidableEq, Repr

inductive CommandKind
  | none | temperature | identity
  deriving DecidableEq, Repr

structure Options where
  neutralTemperature : Int := 6500
  maximumStartupAttempts : Int := 3
  maximumCommandAttempts : Int := 3
  retryBaseDelayMs : Int := 150
  daemonSettleDelayMs : Int := 300
  probeTimeoutMs : Int := 3000
  commandTimeoutMs : Int := 5000
  stopTimeoutMs : Int := 1000
  externalProbeIntervalMs : Int := 5000

def minimumTemperature : Int := 1

/-- Whether the three programs are executable files is read from the file system at every call. -/
def optionsAreValid (o : Options) (executables : Bool) : Bool :=
  executables && decide (minimumTemperature ≤ o.neutralTemperature) && decide (1 ≤ o.maximumStartupAttempts) &&
    decide (1 ≤ o.maximumCommandAttempts) && decide (0 ≤ o.retryBaseDelayMs) && decide (0 ≤ o.daemonSettleDelayMs) &&
    decide (1 ≤ o.probeTimeoutMs) && decide (1 ≤ o.commandTimeoutMs) && decide (1 ≤ o.stopTimeoutMs) &&
    decide (1 ≤ o.externalProbeIntervalMs)

/-- Whether each program can be spawned when it is started; one that cannot reports its failure from
within the call that starts it. -/
structure Starts where
  probe : Bool
  daemon : Bool
  command : Bool
  deriving DecidableEq

structure Controller where
  probeProcess : ProcessState := .notRunning
  daemonProcess : ProcessState := .notRunning
  commandProcess : ProcessState := .notRunning
  startupRetryTimer : Bool := false
  commandRetryTimer : Bool := false
  daemonSettleTimer : Bool := false
  probeTimeoutTimer : Bool := false
  commandTimeoutTimer : Bool := false
  stopTimeoutTimer : Bool := false
  externalProbeTimer : Bool := false
  /-- Calls of `beginProbe` and of `dispatchDesiredCommand` that the event loop has yet to make. -/
  queuedProbes : Nat := 0
  queuedDispatches : Nat := 0
  state : State := .disabled
  currentTemperature : Int := 0
  desiredTemperature : Int := 6500
  startupAttempts : Int := 0
  commandAttempts : Int := 0
  desiredGeneration : UInt64 := 0
  commandGeneration : UInt64 := 0
  commandTemperature : Int := 0
  commandKind : CommandKind := .none
  enabled : Bool := false
  ownsDaemon : Bool := false
  stopRequested : Bool := false
  probeCompletionHandled : Bool := false
  probeRestartRequested : Bool := false
  daemonFailureHandled : Bool := false
  commandCompletionHandled : Bool := false
  commandTimedOut : Bool := false

namespace Controller

def setState (c : Controller) (state : State) : Controller :=
  if state = c.state then
    if state = .externalDaemon && c.enabled && !c.externalProbeTimer then { c with externalProbeTimer := true } else c
  else { c with state, externalProbeTimer := state = .externalDaemon && c.enabled }

def setCurrentTemperature (c : Controller) (temperature : Int) : Controller :=
  { c with currentTemperature := temperature }

def setOwnsDaemon (c : Controller) (owns : Bool) : Controller := { c with ownsDaemon := owns }

def handleProbeFailure (c : Controller) : Controller :=
  let c := { c with probeCompletionHandled := true, probeTimeoutTimer := false }
  if !c.enabled then c else c.setState .failed

def beginProbe (starts : Starts) (c : Controller) : Controller :=
  if !c.enabled || c.ownsDaemon then c
  else if c.probeProcess ≠ .notRunning then
    if c.probeCompletionHandled then { c with probeRestartRequested := true } else c
  else
    let c := { c with probeCompletionHandled := false, probeRestartRequested := false }
    let c := if c.state ≠ .externalDaemon then c.setState .probing else c
    let c := if starts.probe then { c with probeProcess := .starting } else c.handleProbeFailure
    { c with probeTimeoutTimer := true }

def scheduleStartupRetry (o : Options) (c : Controller) : Controller :=
  let c := (({ c with daemonSettleTimer := false }).setOwnsDaemon false).setCurrentTemperature 0
  if !c.enabled then c.setState .disabled
  else if c.startupAttempts ≥ o.maximumStartupAttempts then c.setState .failed
  else { c.setState .retryWaiting with startupRetryTimer := true }

def handleDaemonFailedToStart (o : Options) (c : Controller) : Controller :=
  if c.daemonFailureHandled then c
  else scheduleStartupRetry o (({ c with daemonFailureHandled := true }).setOwnsDaemon false)

def startOwnedDaemon (o : Options) (starts : Starts) (c : Controller) : Controller :=
  if !c.enabled then c
  else if c.startupAttempts ≥ o.maximumStartupAttempts then c.setState .failed
  else
    let c := { c with startupAttempts := c.startupAttempts + 1, stopRequested := false, daemonFailureHandled := false }
    let c := (c.setOwnsDaemon true).setState .starting
    if starts.daemon then { c with daemonProcess := .starting } else handleDaemonFailedToStart o c

/-- Only the exit status is read: the diagnostics of the probe go into the reported text. -/
def handleProbeFinished (o : Options) (starts : Starts) (exitCode : Int) (normalExit : Bool) (c : Controller) : Controller :=
  if c.probeCompletionHandled then
    let restartRequested := c.probeRestartRequested
    let c := { c with probeRestartRequested := false }
    if !c.enabled && c.state = .stopping then c.setState .disabled
    else if restartRequested && c.enabled && !c.ownsDaemon then { c with queuedProbes := c.queuedProbes + 1 }
    else c
  else
    let c := { c with probeCompletionHandled := true, probeTimeoutTimer := false }
    if !c.enabled then c
    else if !normalExit then c.handleProbeFailure
    else if exitCode = 0 then
      ((({ c with startupAttempts := 0 }).setOwnsDaemon false).setCurrentTemperature 0).setState .externalDaemon
    else if exitCode = 1 then startOwnedDaemon o starts c
    else c.handleProbeFailure

def finishStoppedDaemon (starts : Starts) (c : Controller) : Controller :=
  let c := (({ c with stopRequested := false }).setOwnsDaemon false).setCurrentTemperature 0
  if c.enabled then c.beginProbe starts else c.setState .disabled

def stopOwnedDaemon (starts : Starts) (c : Controller) : Controller :=
  let c := { c with daemonSettleTimer := false, commandRetryTimer := false }
  if c.daemonProcess = .notRunning then c.finishStoppedDaemon starts
  else { ({ c with stopRequested := true }).setState .stopping with stopTimeoutTimer := true }

def scheduleCommandRetry (o : Options) (starts : Starts) (c : Controller) : Controller :=
  if !c.ownsDaemon || c.daemonProcess ≠ .running then c
  else if c.commandAttempts < o.maximumCommandAttempts then
    ({ c with commandRetryTimer := true }).setState (if c.enabled then .applying else .stopping)
  else if !c.enabled then c.stopOwnedDaemon starts
  else c.setState .failed

def handleCommandFailure (o : Options) (starts : Starts) (c : Controller) : Controller :=
  if c.commandCompletionHandled then c
  else
    let c := { c with commandCompletionHandled := true, commandTimeoutTimer := false, commandKind := .none }
    if c.commandGeneration ≠ c.desiredGeneration then { c with queuedDispatches := c.queuedDispatches + 1 }
    else c.scheduleCommandRetry o starts

def dispatchDesiredCommand (o : Options) (starts : Starts) (c : Controller) : Controller :=
  if !c.ownsDaemon || c.stopRequested || c.daemonProcess ≠ .running || c.commandProcess ≠ .notRunning then c
  else
    let c := { c with
      commandKind := if c.enabled then .temperature else .identity
      commandGeneration := c.desiredGeneration
      commandTemperature := if c.enabled then c.desiredTemperature else 0
      commandCompletionHandled := false
      commandTimedOut := false
      commandAttempts := c.commandAttempts + 1 }
    let c := c.setState (if c.commandKind = .temperature then .applying else .stopping)
    let c := if starts.command then { c with commandProcess := .starting } else c.handleCommandFailure o starts
    { c with commandTimeoutTimer := true }

def handleCommandFinished (o : Options) (starts : Starts) (exitCode : Int) (normalExit : Bool) (c : Controller) : Controller :=
  if c.commandCompletionHandled then c
  else
    let completedKind := c.commandKind
    let c := { c with commandCompletionHandled := true, commandTimeoutTimer := false, commandKind := .none }
    if c.commandGeneration ≠ c.desiredGeneration then { c with queuedDispatches := c.queuedDispatches + 1 }
    else if normalExit && exitCode = 0 && !c.commandTimedOut then
      let c := { c with commandAttempts := 0, startupAttempts := 0 }
      if completedKind = .temperature && c.enabled then (c.setCurrentTemperature c.commandTemperature).setState .ready
      else if completedKind = .identity && !c.enabled then (c.setCurrentTemperature 0).stopOwnedDaemon starts
      else c
    else c.scheduleCommandRetry o starts

def handleDaemonStarted (o : Options) (starts : Starts) (c : Controller) : Controller :=
  if !c.enabled then (c.setState .stopping).dispatchDesiredCommand o starts else { c with daemonSettleTimer := true }

def handleDaemonFinished (o : Options) (c : Controller) : Controller :=
  if c.daemonFailureHandled then c
  else
    let c := { c with daemonSettleTimer := false, stopTimeoutTimer := false }
    let expectedStop := c.stopRequested || !c.enabled
    let c := (({ c with stopRequested := false, daemonFailureHandled := true }).setOwnsDaemon false).setCurrentTemperature 0
    let c :=
      if c.commandProcess ≠ .notRunning then { c with desiredGeneration := c.desiredGeneration + 1, commandAttempts := 0 } else c
    if expectedStop then
      if c.enabled then { c with queuedProbes := c.queuedProbes + 1 } else c.setState .disabled
    else c.scheduleStartupRetry o

def setEnabled (o : Options) (executables : Bool) (starts : Starts) (enabled : Bool) (c : Controller) : Controller :=
  if enabled = c.enabled then c
  else
    let c := { c with
      enabled
      desiredGeneration := c.desiredGeneration + 1
      commandAttempts := 0
      startupRetryTimer := false
      commandRetryTimer := false
      daemonSettleTimer := false }
    if c.enabled then
      if !optionsAreValid o executables then c.setState .failed
      else
        let c := { c with startupAttempts := 0 }
        if c.ownsDaemon && c.daemonProcess ≠ .notRunning then
          if !c.stopRequested then c.dispatchDesiredCommand o starts else c
        else c.beginProbe starts
    else
      let c := { c with probeTimeoutTimer := false }
      let stoppingProbe := decide (c.probeProcess ≠ .notRunning)
      let c := if stoppingProbe then { c with probeCompletionHandled := true, probeRestartRequested := false } else c
      if !c.ownsDaemon then
        (c.setCurrentTemperature 0).setState (if stoppingProbe then .stopping else .disabled)
      else
        match c.daemonProcess with
        | .running => (c.setState .stopping).dispatchDesiredCommand o starts
        | .starting => c.setState .stopping
        | .notRunning => c.stopOwnedDaemon starts

def setTemperature (o : Options) (starts : Starts) (temperature : Int) (c : Controller) : Controller :=
  if temperature < minimumTemperature then c
  else
    let changed := decide (temperature ≠ c.desiredTemperature)
    let c :=
      if changed then
        { c with
          desiredTemperature := temperature
          desiredGeneration := c.desiredGeneration + 1
          commandAttempts := 0
          commandRetryTimer := false }
      else c
    if c.enabled && c.ownsDaemon && c.daemonProcess = .running && !c.stopRequested &&
        (changed || c.currentTemperature ≠ c.desiredTemperature || c.state ≠ .ready) &&
        c.state ≠ .failed && !c.commandRetryTimer then
      c.dispatchDesiredCommand o starts
    else c

def retry (o : Options) (starts : Starts) (c : Controller) : Controller :=
  if !c.enabled then c
  else
    let c := { c with startupRetryTimer := false, commandRetryTimer := false }
    if c.ownsDaemon && c.daemonProcess = .running && !c.stopRequested then
      ({ c with commandAttempts := 0 }).dispatchDesiredCommand o starts
    else ({ c with startupAttempts := 0 }).beginProbe starts

end Controller

/-- What can happen to the controller: calls of its methods, what its processes report, expiries of
its timers, and calls made from the event loop. Output of the processes is only read when one ends. -/
inductive Event
  | setEnabled (executables : Bool) (starts : Starts) (enabled : Bool)
  | setTemperature (starts : Starts) (temperature : Int)
  | retry (starts : Starts)
  | probeStarted
  | probeFailedToStart
  | probeFinished (starts : Starts) (exitCode : Int) (normalExit : Bool)
  | daemonStarted (starts : Starts)
  | daemonFailedToStart
  | daemonFinished
  | commandStarted
  | commandFailedToStart (starts : Starts)
  | commandFinished (starts : Starts) (exitCode : Int) (normalExit : Bool)
  | output
  | startupRetryTimeout (starts : Starts)
  | commandRetryTimeout (starts : Starts)
  | daemonSettleTimeout (starts : Starts)
  | probeTimeout
  | commandTimeout
  | stopTimeout
  | externalProbeTimeout (starts : Starts)
  | queuedProbe (starts : Starts)
  | queuedDispatch (starts : Starts)
  deriving DecidableEq

/-- A process that was started either starts or fails to, and one that runs ends; a timer that is
armed expires once. -/
def Possible (c : Controller) : Event → Prop
  | .probeStarted | .probeFailedToStart => c.probeProcess = .starting
  | .probeFinished .. => c.probeProcess = .running
  | .daemonStarted _ | .daemonFailedToStart => c.daemonProcess = .starting
  | .daemonFinished => c.daemonProcess = .running
  | .commandStarted | .commandFailedToStart _ => c.commandProcess = .starting
  | .commandFinished .. => c.commandProcess = .running
  | .startupRetryTimeout _ => c.startupRetryTimer = true
  | .commandRetryTimeout _ => c.commandRetryTimer = true
  | .daemonSettleTimeout _ => c.daemonSettleTimer = true
  | .probeTimeout => c.probeTimeoutTimer = true
  | .commandTimeout => c.commandTimeoutTimer = true
  | .stopTimeout => c.stopTimeoutTimer = true
  | .externalProbeTimeout _ => c.externalProbeTimer = true
  | .queuedProbe _ => 0 < c.queuedProbes
  | .queuedDispatch _ => 0 < c.queuedDispatches
  | .setEnabled .. | .setTemperature .. | .retry _ | .output => True

def step (o : Options) (c : Controller) : Event → Controller
  | .setEnabled executables starts enabled => c.setEnabled o executables starts enabled
  | .setTemperature starts temperature => c.setTemperature o starts temperature
  | .retry starts => c.retry o starts
  | .probeStarted => { c with probeProcess := .running }
  | .probeFailedToStart => ({ c with probeProcess := .notRunning }).handleProbeFailure
  | .probeFinished starts exitCode normalExit =>
    ({ c with probeProcess := .notRunning }).handleProbeFinished o starts exitCode normalExit
  | .daemonStarted starts => ({ c with daemonProcess := .running }).handleDaemonStarted o starts
  | .daemonFailedToStart => ({ c with daemonProcess := .notRunning }).handleDaemonFailedToStart o
  | .daemonFinished => ({ c with daemonProcess := .notRunning }).handleDaemonFinished o
  | .commandStarted => { c with commandProcess := .running }
  | .commandFailedToStart starts => ({ c with commandProcess := .notRunning }).handleCommandFailure o starts
  | .commandFinished starts exitCode normalExit =>
    ({ c with commandProcess := .notRunning }).handleCommandFinished o starts exitCode normalExit
  | .output => c
  | .startupRetryTimeout starts => ({ c with startupRetryTimer := false }).beginProbe starts
  | .commandRetryTimeout starts => ({ c with commandRetryTimer := false }).dispatchDesiredCommand o starts
  | .daemonSettleTimeout starts => ({ c with daemonSettleTimer := false }).dispatchDesiredCommand o starts
  | .probeTimeout =>
    let c := { c with probeTimeoutTimer := false }
    if c.probeProcess = .notRunning then c
    else ({ c with probeCompletionHandled := true, probeRestartRequested := false }).handleProbeFailure
  | .commandTimeout =>
    let c := { c with commandTimeoutTimer := false }
    if c.commandProcess = .notRunning then c else { c with commandTimedOut := true }
  -- The daemon is killed: that shows when it ends.
  | .stopTimeout => { c with stopTimeoutTimer := false }
  | .externalProbeTimeout starts => ({ c with externalProbeTimer := false }).beginProbe starts
  | .queuedProbe starts => ({ c with queuedProbes := c.queuedProbes - 1 }).beginProbe starts
  | .queuedDispatch starts => ({ c with queuedDispatches := c.queuedDispatches - 1 }).dispatchDesiredCommand o starts

def constructed (o : Options) (executables : Bool) : Controller :=
  let c : Controller := { desiredTemperature := o.neutralTemperature }
  if !optionsAreValid o executables then c.setState .failed else c

/-- No process is starting or running, no timer is armed and no call is queued. -/
def Quiescent (c : Controller) : Prop :=
  (c.probeProcess = .notRunning ∧ c.daemonProcess = .notRunning ∧ c.commandProcess = .notRunning) ∧
    (c.startupRetryTimer = false ∧ c.commandRetryTimer = false ∧ c.daemonSettleTimer = false ∧ c.probeTimeoutTimer = false ∧
      c.commandTimeoutTimer = false ∧ c.stopTimeoutTimer = false ∧ c.externalProbeTimer = false) ∧
    c.queuedProbes = 0 ∧ c.queuedDispatches = 0

end HyprShelld.Hyprsunset
