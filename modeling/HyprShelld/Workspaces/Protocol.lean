import HyprShelld.Support.OrderedMap
import HyprShelld.Text.Strings
import HyprShelld.Json.Value

/-! What the workspace source reads in the replies and the event lines of Hyprland. -/
namespace HyprShelld.Workspaces

/-- JSON.parse, none where it throws, and Number of a text, none where that is no integer. -/
structure Engine where
  parseJson : QString → Option QJsonValue
  integerOf : QString → Option Int

/-- White space that String.trim removes. -/
def isBlank (u : UInt16) : Bool := (isSpace u && u ≠ 0x85) || u = 0xfeff

def trim (s : QString) : QString := ((s.dropWhile isBlank).reverse.dropWhile isBlank).reverse

/-- What every object inherits, under names that are then no free keys. -/
def inheritedNames : List QString :=
  ["constructor", "hasOwnProperty", "isPrototypeOf", "propertyIsEnumerable", "toLocaleString", "toString", "valueOf",
    "__defineGetter__", "__defineSetter__", "__lookupGetter__", "__lookupSetter__", "__proto__"].map qstr

section Values

def isInteger : QJsonValue → Option Int
  | .double (.finite q) => if q.den = 1 then some q.num else none
  | _ => none

def asString : QJsonValue → Option QString
  | .string s => some s
  | _ => none

def asBoolean : QJsonValue → Option Bool
  | .bool b => some b
  | _ => none

def asObject : QJsonValue → Option QJsonObject
  | .object o => some o
  | _ => none

def integerAt (o : QJsonObject) (key : String) : Option Int := isInteger (o.value (qstr key))
def stringAt (o : QJsonObject) (key : String) : Option QString := asString (o.value (qstr key))
def booleanAt (o : QJsonObject) (key : String) : Option Bool := asBoolean (o.value (qstr key))
def objectAt (o : QJsonObject) (key : String) : Option QJsonObject := asObject (o.value (qstr key))

mutual
/-- String of a value does not throw. A toString that an object has of its own is no function, and valueOf gives the object
back. -/
def convertsToString : QJsonValue → Bool
  | .object o => !QJsonObject.contains o (qstr "toString")
  | .array items => itemsConvert items
  | _ => true

def itemsConvert : List QJsonValue → Bool
  | [] => true
  | item :: rest => convertsToString item && itemsConvert rest
end

/-- A text that is not empty. -/
def nonEmpty (s : QString) : Option QString := if s.isEmpty then none else some s

def isHexUnit (u : UInt16) : Bool :=
  (unit '0' ≤ u && u ≤ unit '9') || (unit 'a' ≤ u && u ≤ unit 'f') || (unit 'A' ≤ u && u ≤ unit 'F')

def lowerUnit (u : UInt16) : UInt16 := if unit 'A' ≤ u ∧ u ≤ unit 'Z' then u + 0x20 else u

/-- `^0x` of either case is optional in front of one to sixteen digits. -/
def normalizeAddress (s : QString) : QString :=
  let text := trim s
  let digits := if (text.take 2).map lowerUnit = qstr "0x" then text.drop 2 else text
  if digits.isEmpty || 16 < digits.length || !digits.all isHexUnit then [] else qstr "0x" ++ digits.map lowerUnit

end Values

section Records

structure Monitor where
  id : Int
  name : QString
  focused : Bool
  activeWorkspaceId : Int
  activeWorkspaceName : QString
  specialWorkspaceId : Int
  specialWorkspaceName : QString
  deriving DecidableEq

def Monitor.visibleWorkspaceId (m : Monitor) : Int := if m.specialWorkspaceId ≠ 0 then m.specialWorkspaceId else m.activeWorkspaceId

def Monitor.visibleWorkspaceName (m : Monitor) : QString :=
  if m.specialWorkspaceId ≠ 0 then m.specialWorkspaceName else m.activeWorkspaceName

structure Workspace where
  id : Int
  name : QString
  monitorName : QString
  monitorId : Int
  windowCount : Int
  hasFullscreen : Bool
  persistent : Bool
  lastWindowAddress : QString
  urgent : Bool := false
  deriving DecidableEq

structure Client where
  address : QString
  workspaceId : Int
  workspaceName : QString
  monitorId : Int
  applicationId : QString
  initialApplicationId : QString
  title : QString
  mapped : Bool
  hidden : Bool
  visible : Bool
  floating : Bool
  fullscreenMode : Int
  fullscreenHandler : QString
  focusHistoryId : Int
  urgent : Bool := false
  deriving DecidableEq

def Client.active (c : Client) : Bool := c.focusHistoryId = 0

structure Snapshot where
  revision : Int := 0
  configProvider : QString := qstr "unknown"
  usingLua : Bool := false
  monitors : List Monitor := []
  workspaces : List Workspace := []
  clients : List Client := []
  deriving DecidableEq

def emptySnapshot : Snapshot := {}

/-- Windows that asked for attention, with the snapshots they may be missing from. -/
abbrev UrgentAddresses := QMap Nat

/-- The values read one after another, each with those before it; none when one is skipped. -/
def normalizeAll {α : Type} (read : List α → QJsonValue → Option α) : List α → List QJsonValue → Option (List α)
  | seen, [] => some seen
  | seen, v :: rest => (read seen v).bind fun a => normalizeAll read (seen ++ [a]) rest

def special : QString := qstr "special:"

def readMonitor (seen : List Monitor) (v : QJsonValue) : Option Monitor := do
  let monitor ← asObject v
  let id ← integerAt monitor "id"
  let name ← (stringAt monitor "name").bind nonEmpty
  guard (¬ (inheritedNames.contains name || (seen.map (·.name)).contains name))
  let focused ← booleanAt monitor "focused"
  let activeWorkspace ← objectAt monitor "activeWorkspace"
  let activeWorkspaceId ← integerAt activeWorkspace "id"
  let activeWorkspaceName ← (stringAt activeWorkspace "name").bind nonEmpty
  let specialWorkspace ← objectAt monitor "specialWorkspace"
  let specialWorkspaceId ← integerAt specialWorkspace "id"
  let specialWorkspaceName ← stringAt specialWorkspace "name"
  guard (if specialWorkspaceId ≠ 0 then startsWith specialWorkspaceName special else specialWorkspaceName.isEmpty)
  return { id, name, focused, activeWorkspaceId, activeWorkspaceName, specialWorkspaceId, specialWorkspaceName }

def readWorkspace (seen : List Workspace) (v : QJsonValue) : Option Workspace := do
  let workspace ← asObject v
  let id ← integerAt workspace "id"
  guard (¬ (seen.map (·.id)).contains id)
  let name ← (stringAt workspace "name").bind nonEmpty
  let monitorName ← (stringAt workspace "monitor").bind nonEmpty
  let monitorId ← integerAt workspace "monitorID"
  let windowCount ← integerAt workspace "windows"
  guard (0 ≤ windowCount)
  let hasFullscreen ← booleanAt workspace "hasfullscreen"
  let persistent ← booleanAt workspace "ispersistent"
  let lastWindowAddress := normalizeAddress ((stringAt workspace "lastwindow").getD [])
  return { id, name, monitorName, monitorId, windowCount, hasFullscreen, persistent, lastWindowAddress }

/-- String of the id of a record, which comes before the record is looked at. -/
def idConverts (v : QJsonValue) : Bool :=
  match asObject v with
  | some workspace => convertsToString (workspace.value (qstr "id"))
  | none => true

def readClient (seen : List Client) (v : QJsonValue) : Option Client := do
  let client ← asObject v
  let address ← nonEmpty (normalizeAddress ((stringAt client "address").getD []))
  guard (¬ (seen.map (·.address)).contains address)
  let workspace ← objectAt client "workspace"
  let workspaceId ← integerAt workspace "id"
  let workspaceName ← stringAt workspace "name"
  let monitorId ← integerAt client "monitor"
  let mapped ← booleanAt client "mapped"
  let hidden ← booleanAt client "hidden"
  let visible ← booleanAt client "visible"
  let floating ← booleanAt client "floating"
  let fullscreenMode ← integerAt client "fullscreen"
  guard (0 ≤ fullscreenMode ∧ fullscreenMode ≤ 2)
  let fullscreenHandler ← stringAt client "fullscreenHandler"
  let name ← stringAt client "class"
  let initialApplicationId ← stringAt client "initialClass"
  let focusHistoryId ← integerAt client "focusHistoryID"
  guard (-1 ≤ focusHistoryId)
  let applicationId := if name.isEmpty then initialApplicationId else name
  let title := (stringAt client "title").getD []
  return {
    address, workspaceId, workspaceName, monitorId, applicationId, initialApplicationId, title, mapped, hidden,
    visible, floating, fullscreenMode, fullscreenHandler, focusHistoryId }

end Records

section Replies
variable (engine : Engine)

structure Status where
  configProvider : QString
  usingLua : Bool

/-- What keeps a snapshot from being built: an error that is returned, or an exception. -/
inductive Failure where
  | returned (error : QString)
  | thrown

def returning {α : Type} (result : Except QString α) : Except Failure α := result.mapError .returned

omit engine in
@[simp] theorem returning_ok_iff {α : Type} {result : Except QString α} {a : α} : returning result = .ok a ↔ result = .ok a := by
  cases result <;> simp [returning, Except.mapError]

def parseStatus (payload : Option QString) : Except QString Status :=
  let text := trim (payload.getD [])
  if text = qstr "unknown request" then .ok ⟨qstr "legacy", false⟩
  else
    match engine.parseJson text with
    | none => .error (qstr "Hyprland returned malformed status JSON.")
    | some v =>
      match (asObject v).bind (stringAt · "configProvider") with
      | some provider =>
        if provider = qstr "lua" ∨ provider = qstr "hyprlang" then .ok ⟨provider, provider = qstr "lua"⟩
        else .error (qstr "Hyprland returned an unknown configuration provider.")
      | none => .error (qstr "Hyprland returned an unknown configuration provider.")

def parseArray (payload : Option QString) (label : String) : Except QString (List QJsonValue) :=
  match engine.parseJson (payload.getD []) with
  | none => .error (qstr ("Hyprland returned malformed " ++ label ++ " JSON."))
  | some (.array items) => .ok items
  | some _ => .error (qstr ("Hyprland " ++ label ++ " response is not an array."))

def requireAll {α : Type} (items : List α) (ok : α → Bool) (message : String) : Except QString Unit :=
  if items.all ok then .ok () else .error (qstr message)

def findById (workspaces : List Workspace) (id : Int) : Option Workspace := workspaces.find? (·.id = id)

/-- The workspace that a monitor shows. -/
def showsWorkspace (workspaces : List Workspace) (monitor : Monitor) (id : Int) (name : QString) : Bool :=
  (findById workspaces id).any fun w => w.monitorName = monitor.name && w.name = name

def clientPlaced (workspaces : List Workspace) (client : Client) : Bool :=
  (findById workspaces client.workspaceId).any fun w =>
    !client.mapped || (client.workspaceName = w.name && client.monitorId = w.monitorId)

def handlerKnown (client : Client) : Bool :=
  client.fullscreenMode = 0 || client.fullscreenHandler = qstr "default" || client.fullscreenHandler = qstr "scrolling"

def handlerConsistent (client : Client) : Bool :=
  client.fullscreenMode = 0 || !client.floating || client.fullscreenHandler = qstr "default"

/-- The checks on one client, in their order. -/
def checkClients (workspaces : List Workspace) : List Client → Except QString Unit
  | [] => .ok ()
  | client :: rest =>
    if !clientPlaced workspaces client then .error (qstr "Hyprland returned a client outside its workspace.")
    else if !handlerKnown client then .error (qstr "Hyprland returned an unknown fullscreen handler.")
    else if !handlerConsistent client then .error (qstr "Hyprland returned an inconsistent fullscreen handler.")
    else checkClients workspaces rest

def checkMonitors (workspaces : List Workspace) : List Monitor → Except QString Unit
  | [] => .ok ()
  | monitor :: rest =>
    if !showsWorkspace workspaces monitor monitor.activeWorkspaceId monitor.activeWorkspaceName then
      .error (qstr "Hyprland returned incomplete active workspace state.")
    else if monitor.specialWorkspaceId ≠ 0 ∧
        showsWorkspace workspaces monitor monitor.specialWorkspaceId monitor.specialWorkspaceName = false then
      .error (qstr "Hyprland returned incomplete special workspace state.")
    else checkMonitors workspaces rest

def copyAddressSet (addresses : UrgentAddresses) : UrgentAddresses :=
  .ofList ((addresses.map fun e => (normalizeAddress e.1, e.2)).filter fun e => !e.1.isEmpty && e.2 ≠ 0)

/-- A window that is missing is remembered for a few snapshots. -/
def ageMissing (current : List QString) (addresses : UrgentAddresses) : UrgentAddresses :=
  addresses.filterMap fun e =>
    if current.contains e.1 then some e else if 1 < e.2 then some (e.1, e.2 - 1) else none

def reconcileUrgency (addresses : UrgentAddresses) (monitors : List Monitor) (clients : List Client) : UrgentAddresses :=
  let focusedWorkspaceId := (monitors.find? (·.focused)).map (·.activeWorkspaceId)
  let seen := (clients.filter fun c => c.active || some c.workspaceId = focusedWorkspaceId).map (·.address)
  ageMissing (clients.map (·.address)) ((copyAddressSet addresses).filter fun e => !seen.contains e.1)

def applyUrgency (snapshot : Snapshot) (addresses : UrgentAddresses) : Snapshot :=
  let urgentWorkspaces := (snapshot.clients.filter fun c => addresses.contains c.address).map (·.workspaceId)
  { snapshot with
    clients := snapshot.clients.map fun c => { c with urgent := addresses.contains c.address }
    workspaces := snapshot.workspaces.map fun w => { w with urgent := urgentWorkspaces.contains w.id } }

/-- One record may throw although another one, or itself, is skipped. -/
def normalizeWorkspaces (rawWorkspaces : List QJsonValue) : Except Failure (Option (List Workspace)) :=
  if rawWorkspaces.all idConverts then .ok (normalizeAll readWorkspace [] rawWorkspaces) else .error .thrown

def incomplete : QString := qstr "Hyprland returned incomplete workspace state."

def buildSnapshot (workspacePayload monitorPayload clientPayload : Option QString) (urgentAddresses : UrgentAddresses)
    (revision : Int) : Except Failure (Snapshot × UrgentAddresses) := do
  let rawWorkspaces ← returning (parseArray engine workspacePayload "workspace")
  let rawMonitors ← returning (parseArray engine monitorPayload "monitor")
  let rawClients ← returning (parseArray engine clientPayload "client")
  let normalized ← normalizeWorkspaces rawWorkspaces
  match normalizeAll readMonitor [] rawMonitors, normalized, normalizeAll readClient [] rawClients with
  | some monitors, some workspaces, some clients => do
    returning (requireAll [monitors] (!·.isEmpty) "Hyprland returned no valid monitors.")
    returning (requireAll workspaces (fun w => monitors.any fun m => m.name = w.monitorName && m.id = w.monitorId)
      "Hyprland returned a workspace without its monitor.")
    returning (checkMonitors workspaces monitors)
    returning (checkClients workspaces clients)
    let reconciled := reconcileUrgency urgentAddresses monitors clients
    return (applyUrgency { revision, monitors, workspaces, clients } reconciled, reconciled)
  | _, _, _ => .error (.returned incomplete)

end Replies

section Events
variable (engine : Engine)

def relevantEvents : List QString :=
  ["workspace", "workspacev2", "focusedmon", "focusedmonv2", "monitoradded", "monitoraddedv2", "monitorremoved",
    "monitorremovedv2", "createworkspace", "createworkspacev2", "destroyworkspace", "destroyworkspacev2",
    "moveworkspace", "moveworkspacev2", "renameworkspace", "changeworkspaceid", "openwindow", "closewindow",
    "movewindow", "movewindowv2", "changefloatingmode", "fullscreen", "activespecial", "activespecialv2", "minimized",
    "pin", "togglegroup", "moveintogroup", "moveoutofgroup", "activewindow", "activewindowv2", "urgent",
    "configreloaded"].map qstr

structure Event where
  valid : Bool
  relevant : Bool
  name : QString
  data : QString

/-- Every inherited name is found in the table too. -/
def isRelevant (name : QString) : Bool := relevantEvents.contains name || inheritedNames.contains name

/-- The text in front of the first separator, and the text behind it. -/
def splitEvent : QString → Option (QString × QString)
  | [] => none
  | u :: rest =>
    if (u :: rest).take 2 = qstr ">>" then some ([], rest.drop 1) else (splitEvent rest).map fun r => (u :: r.1, r.2)

def parseEvent (line : QString) : Event :=
  let text := if line.getLast? = some 0x0d then line.dropLast else line
  match splitEvent text with
  | none => { valid := false, relevant := isRelevant (trim text), name := trim text, data := [] }
  | some (name, data) => { valid := !name.isEmpty, relevant := isRelevant name, name, data }

def firstField (data : QString) : QString := data.takeWhile (· ≠ unit ',')
def secondField (data : QString) : QString := firstField ((data.dropWhile (· ≠ unit ',')).drop 1)

def clearWorkspaceUrgency (addresses : UrgentAddresses) (snapshot : Snapshot) (workspaceId : Option Int) (name : QString) :
    UrgentAddresses :=
  let cleared := snapshot.clients.filter fun c =>
    match workspaceId with
    | some id => c.workspaceId = id
    | none => !name.isEmpty && c.workspaceName = name
  addresses.filter fun e => !(cleared.map (·.address)).contains e.1

def applyUrgentEvent (addresses : UrgentAddresses) (event : Event) (snapshot : Snapshot) : UrgentAddresses :=
  let next := copyAddressSet addresses
  let address := normalizeAddress (firstField event.data)
  if !event.valid then next
  else if event.name = qstr "urgent" then if address.isEmpty then next else next.insert address 3
  else if event.name = qstr "closewindow" ∨ event.name = qstr "activewindowv2" then next.remove address
  else if event.name = qstr "workspacev2" then
    clearWorkspaceUrgency next snapshot (engine.integerOf (firstField event.data)) (secondField event.data)
  else if event.name = qstr "workspace" then clearWorkspaceUrgency next snapshot none event.data
  else if event.name = qstr "focusedmonv2" then
    clearWorkspaceUrgency next snapshot (engine.integerOf (secondField event.data)) []
  else if event.name = qstr "focusedmon" then clearWorkspaceUrgency next snapshot none (secondField event.data)
  else next

end Events

end HyprShelld.Workspaces
