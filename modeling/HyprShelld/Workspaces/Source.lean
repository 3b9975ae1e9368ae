import HyprShelld.Support.Run
import HyprShelld.Workspaces.Protocol

/-! The workspace source: its event stream, its request cycle, its timers and what it defers. -/
namespace HyprShelld.Workspaces

/-- The requests of one cycle, j/status, j/workspaces, j/monitors and j/clients, in their order. -/
inductive Command where
  | status
  | workspaces
  | monitors
  | clients
  deriving DecidableEq

def commands : List Command := [.status, .workspaces, .monitors, .clients]

structure Timer where
  running : Bool := false
  interval : Nat := 0

def Timer.stop (t : Timer) : Timer := { t with running := false }
def Timer.start (t : Timer) : Timer := { t with running := true }
def Timer.restart (interval : Nat) : Timer := ⟨true, interval⟩

structure Stream where
  id : Nat
  ready : Bool

structure Request where
  id : Nat
  command : Command

/-- What Qt.callLater holds back. A closure is new every time, while the function itself waits once. -/
inductive Deferred where
  | queueRefresh
  | startRequest (command : Command)
  | commitCycle
  deriving DecidableEq

inductive Cause where
  | connected
  | oversizedLine
  | relevantLine
  | failure

/-- What happened to the source, which no handler reads back. -/
inductive Mark where
  | advanced (cause : Cause)
  | began (generation : Int)
  | accepted (generation : Int) (command : Command) (payload : QString)
  | committed (generation : Int) (snapshot : Snapshot)
  | failed
  | discarded

/-- The source. `created` numbers the objects it makes and `history` holds its marks, newest first. -/
structure Source where
  requestSocketPath : QString := []
  eventSocketPath : QString := []
  snapshot : Snapshot := emptySnapshot
  urgentAddresses : UrgentAddresses := []
  available : Bool := false
  lastError : QString := []
  usingLua : Bool := false
  configProvider : QString := qstr "unknown"
  consecutiveFailures : Int := 0
  retryAttempt : Int := 0
  started : Bool := false
  eventStream : Option Stream := none
  eventGeneration : Int := 0
  eventReconnectAttempt : Int := 0
  cycleActive : Bool := false
  refreshQueued : Bool := false
  cycleEventGeneration : Int := 0
  cycleStage : Nat := 0
  cyclePayloads : Command → Option QString := fun _ => none
  activeRequest : Option Request := none
  refreshTimer : Timer := {}
  retryTimer : Timer := {}
  eventReconnectTimer : Timer := {}
  eventLossTimer : Timer := { interval := 3000 }
  deferred : List Deferred := []
  destroyed : Bool := false
  created : Nat := 0
  history : List Mark := []

namespace Source

def live (s : Source) : Bool := s.eventStream.any (·.ready)

def actionsAvailable (s : Source) : Bool :=
  s.available && s.live && !s.cycleActive && !s.refreshQueued && !s.refreshTimer.running && !s.retryTimer.running

/-- An int of QML, which wraps. -/
def wrapped (n : Int) : Int := n.bmod (2 ^ 32)

def orElse (message text : QString) : QString := if message.isEmpty then text else message

def maximumLine : Nat := 256 * 1024

section Refresh

/-- Another event generation, for the reason given. -/
def advance (s : Source) (cause : Cause) : Source :=
  { s with eventGeneration := wrapped (s.eventGeneration + 1), history := .advanced cause :: s.history }

def queueRefresh (s : Source) (delay : Nat) : Source :=
  let s := { s with refreshQueued := true }
  if !s.started || !s.live || s.cycleActive then s
  else if s.refreshTimer.running && decide (s.refreshTimer.interval ≤ delay) then s
  else { s with refreshTimer := .restart delay }

def retryDelays : List Nat := [100, 250, 500, 1000, 2000]

def failCycle (s : Source) (message : QString) : Source :=
  let s := { s with
    activeRequest := none
    cycleActive := false
    refreshQueued := false
    lastError := orElse message (qstr "Hyprland workspace state is temporarily unavailable.")
    consecutiveFailures := wrapped (s.consecutiveFailures + 1)
    available := s.available && decide (wrapped (s.consecutiveFailures + 1) < 3)
    history := .failed :: s.history }
  if !s.started || !s.live then s
  -- An attempt that has wrapped has no delay, and the timer throws at an interval that is undefined.
  else if s.retryAttempt < 0 then s
  else { s with
    retryTimer := .restart (retryDelays.getD (min s.retryAttempt 4).toNat 2000)
    retryAttempt := wrapped (s.retryAttempt + 1) }

def discardInvalidatedCycle (s : Source) : Source :=
  let s := { s with activeRequest := none, cycleActive := false, refreshQueued := true, history := .discarded :: s.history }
  if s.live then s.queueRefresh 0 else s

end Refresh

section Cycle

def startRequest (s : Source) (command : Command) (created : Bool) : Source :=
  if !s.cycleActive || s.activeRequest.isSome then s
  else if s.requestSocketPath.isEmpty then s.failCycle (qstr "Hyprland request socket is unavailable.")
  else if !created then s.failCycle (qstr "Hyprland request could not be created.")
  else { s with activeRequest := some ⟨s.created, command⟩, created := s.created + 1 }

def beginCycle (s : Source) (created : Bool) : Source :=
  if !s.started || !s.live then s
  else if s.cycleActive then { s with refreshQueued := true }
  else
    startRequest { s with
      retryTimer := s.retryTimer.stop
      cycleActive := true
      refreshQueued := false
      cycleEventGeneration := s.eventGeneration
      cycleStage := 0
      cyclePayloads := fun _ => none
      history := .began s.eventGeneration :: s.history } .status created

def defer (s : Source) (d : Deferred) : Source := { s with deferred := s.deferred ++ [d] }

/-- The function waits once, however often it was deferred. -/
def deferCommit (s : Source) : Source := if .commitCycle ∈ s.deferred then s else s.defer .commitCycle

def acceptResponse (s : Source) (command : Command) (payload : QString) : Source :=
  if !s.cycleActive then s
  else if s.cycleEventGeneration ≠ s.eventGeneration ∨ s.live = false then s.discardInvalidatedCycle
  else
    let s := { s with
      cyclePayloads := Function.update s.cyclePayloads command (some payload)
      cycleStage := s.cycleStage + 1
      history := .accepted s.eventGeneration command payload :: s.history }
    match commands[s.cycleStage]? with
    | some next => s.defer (.startRequest next)
    | none => s.deferCommit

def requestSucceeded (s : Source) (id : Nat) (payload : QString) : Source :=
  match s.activeRequest with
  | some request => if request.id = id then acceptResponse { s with activeRequest := none } request.command payload else s
  | none => s

def requestFailed (s : Source) (id : Nat) (message : QString) : Source :=
  match s.activeRequest with
  | some request => if request.id = id then s.failCycle message else s
  | none => s

/-- The snapshot of a cycle with its provider, and what is left of the urgency. -/
def buildCycle (engine : Engine) (payloads : Command → Option QString) (addresses : UrgentAddresses) (revision : Int) :
    Except Failure (Snapshot × UrgentAddresses) :=
  match parseStatus engine (payloads .status) with
  | .error message => .error (.returned message)
  | .ok status =>
    match buildSnapshot engine (payloads .workspaces) (payloads .monitors) (payloads .clients) addresses revision with
    | .error failure => .error failure
    | .ok (snapshot, reconciled) =>
      .ok ({ snapshot with configProvider := status.configProvider, usingLua := status.usingLua }, reconciled)

def commitCycle (engine : Engine) (s : Source) : Source :=
  if !s.cycleActive then s
  else if s.cycleEventGeneration ≠ s.eventGeneration ∨ s.live = false then s.discardInvalidatedCycle
  else
    match buildCycle engine s.cyclePayloads s.urgentAddresses (s.snapshot.revision + 1) with
    | .error (.returned message) => s.failCycle message
    -- The exception leaves the cycle active.
    | .error .thrown => s
    | .ok (snapshot, urgentAddresses) =>
      let s := { s with
        usingLua := snapshot.usingLua
        configProvider := snapshot.configProvider
        snapshot, urgentAddresses
        cycleActive := false
        available := true
        lastError := []
        consecutiveFailures := 0
        retryAttempt := 0
        history := .committed s.eventGeneration snapshot :: s.history }
      if s.refreshQueued then s.queueRefresh 0 else s

end Cycle

section Events

def eventUnavailable : QString := qstr "Hyprland event connection is unavailable."

/-- How long a reconnection waits. An attempt that has wrapped asks for a fraction of the shortest time. -/
def reconnectDelay (attempt : Int) : Nat :=
  if attempt < 0 then 100 / 2 ^ attempt.natAbs else min (100 * 2 ^ min attempt.toNat 5) 2000

/-- A failure of the stream, or of making one when there is none. -/
def handleEventFailure (s : Source) (message : QString) : Source :=
  let s := advance { s with eventStream := none } .failure
  let s := { s with
    refreshQueued := true, lastError := orElse message eventUnavailable, refreshTimer := s.refreshTimer.stop }
  let s := if s.activeRequest.isSome || s.cycleActive then s.failCycle s.lastError else s
  if !s.started then s
  else { s with
    eventLossTimer := s.eventLossTimer.start
    eventReconnectTimer := .restart (reconnectDelay s.eventReconnectAttempt)
    eventReconnectAttempt := wrapped (s.eventReconnectAttempt + 1) }

def connectEventSocket (s : Source) (created : Bool) : Source :=
  if !s.started || s.eventStream.isSome || s.eventSocketPath.isEmpty then s
  else if !created then s.handleEventFailure (qstr "Hyprland event connection could not be created.")
  else { s with eventStream := some ⟨s.created, false⟩, created := s.created + 1 }

/-- The socket has connected, and the handler of that signal runs. -/
def eventConnected (s : Source) (id : Nat) : Source :=
  let s := { s with eventStream := some ⟨id, true⟩ }
  let s := { s with
    eventReconnectTimer := s.eventReconnectTimer.stop, eventLossTimer := s.eventLossTimer.stop, eventReconnectAttempt := 0 }
  defer { s.advance .connected with refreshQueued := true } .queueRefresh

def handleEventLine (engine : Engine) (s : Source) (line : QString) : Source :=
  if maximumLine < line.length then (s.advance .oversizedLine).queueRefresh 0
  else
    let event := parseEvent line
    if !event.relevant then s
    else
      queueRefresh { s.advance .relevantLine with
        urgentAddresses := applyUrgentEvent engine s.urgentAddresses event s.snapshot } (if event.valid then 40 else 0)

def eventSocketPathChanged (s : Source) : Source :=
  if !s.started then s
  else if s.eventStream.isSome then s.handleEventFailure (qstr "Hyprland event socket changed.")
  else if s.eventSocketPath.isEmpty then s
  else { s with eventReconnectTimer := .restart 0 }

def eventLost (s : Source) : Source := if s.live then s else { s with available := false, lastError := eventUnavailable }

end Events

section Steps

/-- One thing that the engine does to the source. Where a handler makes an object, `created` says whether it could. -/
inductive Action where
  | completed (created : Bool)
  | connected (id : Nat)
  | eventLine (id : Nat) (line : QString)
  | streamFailed (id : Nat) (message : QString)
  | requestSucceeded (id : Nat) (payload : QString)
  | requestFailed (id : Nat) (message : QString)
  | refreshTriggered (created : Bool)
  | retryTriggered
  | reconnectTriggered (created : Bool)
  | lossTriggered
  | deferredCall (index : Nat) (created : Bool)
  | refreshNow
  | setRequestSocketPath (path : QString)
  | setEventSocketPath (path : QString)
  | destruction

def ofStream (s : Source) (id : Nat) : Bool := s.eventStream.any (·.id = id)

def callDeferred (engine : Engine) (s : Source) (created : Bool) : Deferred → Source
  | .queueRefresh => s.queueRefresh 0
  | .startRequest command => s.startRequest command created
  | .commitCycle => s.commitCycle engine

def destruct (s : Source) : Source :=
  { s with
    started := false
    refreshTimer := s.refreshTimer.stop
    retryTimer := s.retryTimer.stop
    eventReconnectTimer := s.eventReconnectTimer.stop
    eventLossTimer := s.eventLossTimer.stop
    activeRequest := none
    eventStream := none
    destroyed := true }

/-- The action on a source that is still there. A timer that triggers has stopped. -/
def handle (engine : Engine) (s : Source) : Action → Source
  | .completed created => if s.started then s else connectEventSocket { s with started := true } created
  | .connected id => if s.ofStream id then s.eventConnected id else s
  | .eventLine id line => if s.ofStream id then s.handleEventLine engine line else s
  | .streamFailed id message => if s.ofStream id then s.handleEventFailure message else s
  | .requestSucceeded id payload => s.requestSucceeded id payload
  | .requestFailed id message => s.requestFailed id message
  | .refreshTriggered created =>
    if s.refreshTimer.running then beginCycle { s with refreshTimer := s.refreshTimer.stop } created else s
  | .retryTriggered => if s.retryTimer.running then queueRefresh { s with retryTimer := s.retryTimer.stop } 0 else s
  | .reconnectTriggered created =>
    if s.eventReconnectTimer.running then
      connectEventSocket { s with eventReconnectTimer := s.eventReconnectTimer.stop } created
    else s
  | .lossTriggered => if s.eventLossTimer.running then eventLost { s with eventLossTimer := s.eventLossTimer.stop } else s
  | .deferredCall index created =>
    match s.deferred[index]? with
    | some d => callDeferred engine { s with deferred := s.deferred.eraseIdx index } created d
    | none => s
  | .refreshNow => s.queueRefresh 0
  | .setRequestSocketPath path => { s with requestSocketPath := path }
  | .setEventSocketPath path =>
    if s.eventSocketPath = path then s else eventSocketPathChanged { s with eventSocketPath := path }
  | .destruction => s.destruct

/-- Nothing reaches an object that was destroyed. -/
def step (engine : Engine) (s : Source) (action : Action) : Source :=
  if s.destroyed then s else s.handle engine action

end Steps

section Exceptions

/-- The end of a cycle in failure throws. -/
def failThrows (s : Source) : Bool := s.started && s.live && decide (s.retryAttempt < 0)

/-- No request can be made. -/
def requestFails (s : Source) (created : Bool) : Bool := s.activeRequest.isNone && (s.requestSocketPath.isEmpty || !created)

/-- Four replies of which the one on workspaces has a record whose id is no text. -/
def idsThrow (engine : Engine) (payloads : Command → Option QString) : Bool :=
  (parseStatus engine (payloads .status)).isOk && (parseArray engine (payloads .monitors) "monitor").isOk &&
    (parseArray engine (payloads .clients) "client").isOk &&
    (parseArray engine (payloads .workspaces) "workspace").toOption.any fun rawWorkspaces => rawWorkspaces.any fun v => !idConverts v

def commitThrows (engine : Engine) (s : Source) : Bool :=
  s.cycleActive && decide (s.cycleEventGeneration = s.eventGeneration) && s.live &&
    (idsThrow engine s.cyclePayloads || s.failThrows &&
      !(buildCycle engine s.cyclePayloads s.urgentAddresses (s.snapshot.revision + 1)).isOk)

/-- The handler of the action ends in an exception. -/
def throws (engine : Engine) (s : Source) : Action → Bool
  | .requestFailed id _ => s.activeRequest.any (·.id = id) && s.failThrows
  | .refreshTriggered created => s.refreshTimer.running && !s.cycleActive && s.requestFails created && s.failThrows
  | .deferredCall index created =>
    match s.deferred[index]? with
    | some (.startRequest _) => s.cycleActive && s.requestFails created && s.failThrows
    | some .commitCycle => s.commitThrows engine
    | _ => false
  | _ => false

end Exceptions
end Source
end HyprShelld.Workspaces
