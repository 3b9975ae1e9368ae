import HyprShelld.Support.OrderedMap
import HyprShelld.Support.Run
import HyprShelld.Text.Strings

/-! The manager of the systemd units of the shell, between the bus and the unit states it watches. -/
namespace HyprShelld.UnitMonitor

section Policy

def allowedUnits : List QString :=
  ["hyprshelld-configd.service", "hyprshelld-componentd.service", "hyprshelld-compositord.service",
    "hyprshelld-surfaced.service"].map qstr

def isKnown (unitName : QString) : Bool := allowedUnits.contains unitName

/-- A unit that is neither failed nor active keeps its place. -/
def applyUnit (activeStates : QMap QString) (failedUnits : List QString) (unitName : QString) : List QString :=
  match activeStates.lookup unitName with
  | none => failedUnits
  | some state =>
    if state = qstr "failed" then
      if failedUnits.contains unitName then failedUnits else failedUnits ++ [unitName]
    else if state = qstr "active" then failedUnits.filter (· ≠ unitName)
    else failedUnits

/-- CoordinatorPolicy::applySnapshot. -/
def applySnapshot (activeStates : QMap QString) (failedUnits : List QString) : List QString :=
  allowedUnits.foldl (applyUnit activeStates) failedUnits

end Policy

section Messages

/-- What ListUnitsByNames says of a unit, as far as it is read. -/
structure SystemdUnitRecord where
  name : QString
  activeState : QString
  unitPath : QString

inductive Signal where
  | unitNew (unitName unitPath : QString)
  | unitRemoved (unitName unitPath : QString)
  | jobRemoved (unitName : QString)
  | propertiesChanged (path interfaceName : QString) (changed invalidated : List QString)
  deriving DecidableEq

/-- What the bus is asked to deliver. -/
inductive Rule where
  | unitNew
  | unitRemoved
  | jobRemoved
  | propertiesChanged (path : QString)
  deriving DecidableEq

def managerRules : List Rule := [.unitNew, .unitRemoved, .jobRemoved]

def Signal.rule : Signal → Rule
  | .unitNew _ _ => .unitNew
  | .unitRemoved _ _ => .unitRemoved
  | .jobRemoved _ => .jobRemoved
  | .propertiesChanged path _ _ _ => .propertiesChanged path

inductive Call where
  | subscribe
  | listUnitsByNames
  deriving DecidableEq

/-- What the manager sends, in order: the bus keeps the first two and hands a call on. -/
inductive Request where
  | addMatch (rule : Rule)
  | removeMatch (rule : Rule)
  | call (c : Call)
  deriving DecidableEq

/-- The name and the message of a failed call. -/
structure Failure where
  name : QString
  message : QString

inductive Message where
  | signal (s : Signal)
  | subscribed (reply : Except Failure Unit)
  | units (reply : Except Failure (List SystemdUnitRecord))

end Messages

section States

structure UnitState where
  activeState : QString
  unitPath : QString
  deriving DecidableEq

/-- What happened to the manager, which no slot reads back. -/
inductive Mark where
  | changed
  | requested
  | snapshotReady (activeStates : QMap QString)
  | monitoringFailed (error : QString)

structure State where
  unitPaths : QMap QString := []
  subscribeWatcher : Bool := false
  /-- The call that is awaited, known by the serial it was sent at. -/
  snapshotWatcher : Option UInt64 := none
  changeSerial : UInt64 := 0
  refreshScheduled : Bool := false
  stopped : Bool := false
  /-- The unit paths whose PropertiesChanged is connected to the manager. -/
  hooks : List QString := []
  /-- The deferred calls of requestSnapshot. -/
  timers : Nat := 0
  outgoing : List Request := []
  rules : List Rule := []
  toSystemd : List Call := []
  fromSystemd : List Message := []
  incoming : List Message := []
  units : QString → UnitState
  subscribed : Bool := false
  failedUnits : List QString := []
  history : List Mark := []

end States

namespace State

section Code

def send (s : State) (request : Request) : State := { s with outgoing := s.outgoing ++ [request] }

def mark (s : State) (m : Mark) : State := { s with history := s.history ++ [m] }

def fail (s : State) (error : QString) : State :=
  if s.stopped then s else { s with stopped := true }.mark (.monitoringFailed error)

def requestSnapshot (s : State) : State :=
  let s := { s with refreshScheduled := false }
  if s.stopped || s.snapshotWatcher.isSome then s
  else ({ s with snapshotWatcher := some s.changeSerial }.send (.call .listUnitsByNames)).mark .requested

def scheduleRefresh (s : State) : State :=
  if s.stopped then s
  else
    let s := { s with changeSerial := s.changeSerial + 1 }.mark .changed
    if s.snapshotWatcher.isSome || s.refreshScheduled then s
    else { s with refreshScheduled := true, timers := s.timers + 1 }

/-- The path of a known unit is another than the announced one. -/
def elsewhere (s : State) (unitName unitPath : QString) : Bool :=
  isKnown unitName && (s.unitPaths.lookup unitName).any fun path => path ≠ unitPath

def managerUnitNew (s : State) (unitName unitPath : QString) : State :=
  if s.elsewhere unitName unitPath then s.scheduleRefresh else s

def managerUnitRemoved (s : State) (unitName unitPath : QString) : State :=
  if s.elsewhere unitName unitPath then s.scheduleRefresh else s

def managerJobRemoved (s : State) (unitName : QString) : State := if isKnown unitName then s.scheduleRefresh else s

/-- The properties of a unit changed, its active state among them. -/
def tellsActiveState (interfaceName : QString) (changed invalidated : List QString) : Bool :=
  interfaceName = qstr "org.freedesktop.systemd1.Unit" &&
    (changed.contains (qstr "ActiveState") || invalidated.contains (qstr "ActiveState"))

def unitPropertiesChanged (s : State) (interfaceName : QString) (changed invalidated : List QString) : State :=
  if tellsActiveState interfaceName changed invalidated then s.scheduleRefresh else s

def subscribe (s : State) : State := { s with subscribeWatcher := true }.send (.call .subscribe)

def failureText (f : Failure) : QString := f.name ++ qstr ": " ++ f.message

def subscribeFinished (s : State) (reply : Except Failure Unit) : State :=
  let s := { s with subscribeWatcher := false }
  match reply with
  | .error f => s.fail (qstr "Cannot subscribe to the systemd user manager: " ++ failureText f)
  | .ok _ => s.requestSnapshot

/-- The states and the paths of the records, unit by unit. -/
def readRecords : QMap QString → QMap QString → List SystemdUnitRecord → Except QString (QMap QString × QMap QString)
  | states, paths, [] => .ok (states, paths)
  | states, paths, record :: rest =>
    if !isKnown record.name || states.contains record.name then .error (qstr "systemd returned an invalid unit snapshot")
    else if record.unitPath.isEmpty then .error (qstr "systemd returned an empty unit object path")
    else readRecords (QMap.insert record.name record.activeState states) (QMap.insert record.name record.unitPath paths) rest

/-- QDBusConnection::disconnect: the rule goes with its only hook. -/
def disconnect (s : State) (path : QString) : State :=
  if s.hooks.contains path then { s with hooks := s.hooks.erase path }.send (.removeMatch (.propertiesChanged path)) else s

/-- QDBusConnection::connect, which makes no second connection of a path. -/
def connect (s : State) (path : QString) : Option State :=
  if s.hooks.contains path then none
  else some ({ s with hooks := s.hooks ++ [path] }.send (.addMatch (.propertiesChanged path)))

def pathOf (paths : QMap QString) (unitName : QString) : QString := (paths.lookup unitName).getD []

def disconnectChanged (paths : QMap QString) (s : State) : QMap QString → State
  | [] => s
  | (unitName, path) :: rest =>
    disconnectChanged paths (if pathOf paths unitName = path then s else s.disconnect path) rest

def connectChanged (s : State) : QMap QString → State × Option QString
  | [] => (s, none)
  | (unitName, path) :: rest =>
    if pathOf s.unitPaths unitName = path then connectChanged s rest
    else
      match s.connect path with
      | none => (s, some (qstr "Cannot monitor systemd unit " ++ unitName))
      | some s => connectChanged s rest

/-- The error, when there is one, with the state it leaves. -/
def updateUnitConnections (s : State) (paths : QMap QString) : State × Option QString :=
  match connectChanged (disconnectChanged paths s s.unitPaths) paths with
  | (s, some error) => (s, some error)
  | (s, none) => ({ s with unitPaths := paths }, none)

/-- The snapshot is emitted, and the coordinator applies it. -/
def snapshotReady (s : State) (states : QMap QString) : State :=
  { s with failedUnits := applySnapshot states s.failedUnits }.mark (.snapshotReady states)

def snapshotFinished (s : State) (reply : Except Failure (List SystemdUnitRecord)) (serial : UInt64) : State :=
  let s := { s with snapshotWatcher := none }
  if s.stopped then s
  else
    match reply with
    | .error f => s.fail (qstr "Cannot read systemd unit state: " ++ failureText f)
    | .ok records =>
      if serial ≠ s.changeSerial then s.requestSnapshot
      else
        match readRecords [] [] records with
        | .error error => s.fail error
        | .ok (states, paths) =>
          if states.length ≠ allowedUnits.length then s.fail (qstr "systemd returned an incomplete unit snapshot")
          else if paths ≠ s.unitPaths then
            match s.updateUnitConnections paths with
            | (s, some error) => s.fail error
            | (s, none) => s.requestSnapshot
          else s.snapshotReady states

/-- SystemdUserManager::start: nothing of it has reached the bus yet. -/
def start (units : QString → UnitState) : State :=
  let s : State := { units }
  ((s.send (.addMatch .unitNew)).send (.addMatch .unitRemoved)).send (.addMatch .jobRemoved) |>.subscribe

end Code

section Steps

/-- A signal reaches its slot. One for a path that is no longer hooked still does when it had been posted before. -/
def receive (s : State) (posted : Bool) : Signal → State
  | .unitNew unitName unitPath => s.managerUnitNew unitName unitPath
  | .unitRemoved unitName unitPath => s.managerUnitRemoved unitName unitPath
  | .jobRemoved unitName => s.managerJobRemoved unitName
  | .propertiesChanged path interfaceName changed invalidated =>
    if s.hooks.contains path || posted then s.unitPropertiesChanged interfaceName changed invalidated else s

def deliver (s : State) (posted : Bool) : Message → State
  | .signal sg => s.receive posted sg
  | .subscribed reply => s.subscribeFinished reply
  | .units reply =>
    match s.snapshotWatcher with
    | none => s
    | some serial => s.snapshotFinished reply serial

def reports (units : QString → UnitState) : List SystemdUnitRecord :=
  allowedUnits.map fun name => ⟨name, (units name).activeState, (units name).unitPath⟩

/-- systemd answers a call, unless that fails. -/
def answer (s : State) (failure : Option Failure) : Call → State
  | .subscribe =>
    match failure with
    | some f => { s with fromSystemd := s.fromSystemd ++ [.subscribed (.error f)] }
    | none => { s with subscribed := true, fromSystemd := s.fromSystemd ++ [.subscribed (.ok ())] }
  | .listUnitsByNames =>
    match failure with
    | some f => { s with fromSystemd := s.fromSystemd ++ [.units (.error f)] }
    | none => { s with fromSystemd := s.fromSystemd ++ [.units (.ok (reports s.units))] }

/-- The bus keeps the rules, and hands calls on. -/
def accept (s : State) : Request → State
  | .addMatch rule => { s with rules := s.rules ++ [rule] }
  | .removeMatch rule => { s with rules := s.rules.erase rule }
  | .call c => { s with toSystemd := s.toSystemd ++ [c] }

/-- The bus delivers replies, and the signals that a rule asks for. -/
def routed (s : State) : Message → Bool
  | .signal sg => s.rules.contains sg.rule
  | _ => true

end Steps

end State

inductive Event where
  /-- Units change in systemd, which sends signals about it. -/
  | change (units : QString → UnitState) (signals : List Signal)
  /-- The bus handles what the manager sent. -/
  | accept
  /-- systemd handles a call. -/
  | answer (failure : Option Failure)
  /-- The bus handles what systemd sent. -/
  | route
  /-- The manager handles what it received. -/
  | deliver (posted : Bool)
  | timeout

def step (s : State) : Event → State
  | .change units signals => { s with units, fromSystemd := s.fromSystemd ++ signals.map .signal }
  | .accept =>
    match s.outgoing with
    | [] => s
    | request :: rest => { s with outgoing := rest }.accept request
  | .answer failure =>
    match s.toSystemd with
    | [] => s
    | c :: rest => { s with toSystemd := rest }.answer failure c
  | .route =>
    match s.fromSystemd with
    | [] => s
    | message :: rest =>
      if s.routed message then { s with fromSystemd := rest, incoming := s.incoming ++ [message] }
      else { s with fromSystemd := rest }
  | .deliver posted =>
    match s.incoming with
    | [] => s
    | message :: rest => { s with incoming := rest }.deliver posted message
  | .timeout => if s.timers = 0 then s else { s with timers := s.timers - 1 }.requestSnapshot

section Assumptions

/-- The signal says that the active state of the unit at a path changed. -/
def Signal.tells (path : QString) : Signal → Bool
  | .propertiesChanged path' interfaceName changed invalidated =>
    path' = path && State.tellsActiveState interfaceName changed invalidated
  | _ => false

/-- A unit that changes its state says so by PropertiesChanged or by JobRemoved. One that appears at another path is
newly loaded, which UnitNew says. -/
def Announced (signals : List Signal) (name : QString) (before after : UnitState) : Prop :=
  before = after ∨ .jobRemoved name ∈ signals ∨
    if before.unitPath = after.unitPath then signals.any (·.tells before.unitPath) = true
    else .unitNew name after.unitPath ∈ signals

instance (signals : List Signal) (name : QString) (before after : UnitState) : Decidable (Announced signals name before after) :=
  inferInstanceAs (Decidable (_ ∨ _ ∨ _))

/-- Once the manager is subscribed, systemd announces every change of a unit. -/
def allowed (s : State) : Event → Prop
  | .change units signals => s.subscribed = true → ∀ name ∈ allowedUnits, Announced signals name (s.units name) (units name)
  | _ => True

instance (s : State) : (e : Event) → Decidable (allowed s e)
  | .change _ _ => inferInstanceAs (Decidable (_ → _))
  | .accept => isTrue trivial
  | .answer _ => isTrue trivial
  | .route => isTrue trivial
  | .deliver _ => isTrue trivial
  | .timeout => isTrue trivial

end Assumptions

end HyprShelld.UnitMonitor
