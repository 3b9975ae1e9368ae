import HyprShelld.Renderer.Modules
import HyprShelld.Support.OrderedMap
import HyprShelld.Desired.CrossChecks

/-! Rendering of a whole desired state, module by module. -/
namespace HyprShelld.Compositor
open Hyprland

variable (p : Platform)

def luaCall (function : String) (arguments : List QByteArray) : LuaStatement := .call ⟨function, arguments⟩

def callOn (function : String) (object : QJsonObject) : LuaStatement := luaCall function [luaObject p object]

/-- The scalar overrides, nested by option path and grouped by module. -/
def scalarConfig (catalog : Catalog) : QJsonObject → QMap QJsonObject → Reads (QMap QJsonObject)
  | [], config => pure config
  | (key, v) :: rest, config =>
    match (findOption catalog key).filter fun option => !option.luaPath.isEmpty with
    | none => do
      addError (qstr "$.overrides." ++ key) "renderer.missing-catalog-path"
        "The scalar override has no pinned Lua output path."
      scalarConfig catalog rest config
    | some option =>
      let modulePath := moduleForCatalogModule option.module
      let v := if option.type = .cssGap then .object (cssGapObject v.toArray) else v
      scalarConfig catalog rest
        (config.insert modulePath (insertNested (config.value modulePath) option.luaPath v))

def environmentStatements : Nat → List EnvironmentConfiguration → Reads (List LuaStatement)
  | _, [] => pure []
  | index, record :: rest =>
    if record.scope = .uwsm then do
      addError (field (element (qstr "$.environment") index) (qstr "scope")) "renderer.uwsm-unavailable"
        "UWSM environment integration is deferred and cannot be silently emitted as hl.env."
      environmentStatements (index + 1) rest
    else do
      let statements ← environmentStatements (index + 1) rest
      return luaCall "hl.env" [luaString record.name, luaString record.value] :: statements

def gestureStatements (actionCatalog : ActionCatalog) : Nat → List GestureConfiguration → Reads (List LuaStatement)
  | _, [] => pure []
  | index, record :: rest => do
    let object ← gestureObject p actionCatalog record (element (qstr "$.gestures") index)
    let statements ← gestureStatements actionCatalog (index + 1) rest
    return callOn p "hl.gesture" object :: statements

/-- Hyprland keeps curves across reloads, so the built-in ones are registered again first. -/
def builtinCurves : List LuaStatement :=
  [luaCall "hl.curve" [bytes "\"default\"",
      bytes "\x7b points = \x7b \x7b 0, 0.75 \x7d, \x7b 0.15, 1 \x7d \x7d, type = \"bezier\" \x7d"],
    luaCall "hl.curve" [bytes "\"default\"",
      bytes "\x7b dampening = 25, mass = 1, stiffness = 250, type = \"spring\" \x7d"],
    luaCall "hl.curve" [bytes "\"linear\"",
      bytes "\x7b points = \x7b \x7b 0, 0 \x7d, \x7b 1, 1 \x7d \x7d, type = \"bezier\" \x7d"]]

def animationStatements (state : DesiredState) : List LuaStatement :=
  builtinCurves ++
    (state.curves.map fun record =>
      luaCall "hl.curve" [luaString record.name, luaObject p (curveObject record)]) ++
    (state.animations.map fun record => callOn p "hl.animation" (animationObject state.curves record))

def ruleStatements (state : DesiredState) : List LuaStatement :=
  (state.windowRules.map fun record => callOn p "hl.window_rule"
    (ruleObject (marshalledWindowEffects p record.effects) record.name record.enabled record.ruleMatch)) ++
  (state.layerRules.map fun record => callOn p "hl.layer_rule"
    (ruleObject record.effects record.name record.enabled record.ruleMatch))

def bindingChord (record : BindingConfiguration) : QString :=
  let modifiers := modifierString p record.modifiers
  if modifiers.isEmpty then record.key else modifiers ++ (qstr " + " ++ record.key)

def dispatcherExpression (actionCatalog : ActionCatalog) (record : BindingConfiguration) (path : QString) :
    Reads (Option QByteArray) :=
  match findAction actionCatalog .dispatcher record.action with
  | none => ⟨none, [issue path "renderer.unknown-action" "The dispatcher action is not in the pinned catalog."]⟩
  | some action =>
    let function := bytes "hl" ++ action.luaPath.flatMap (bytes "." ++ toUtf8 ·)
    let call (argument : QByteArray) : Reads (Option QByteArray) :=
      pure (some (function ++ bytes "(" ++ argument ++ bytes ")"))
    match action.invocation.kind with
    | .none => call []
    | .table => call (luaObject p record.arguments)
    | .scalar => call (luaValue p (QJsonObject.value record.arguments action.invocation.scalarField))
    | .emptyObjectNoneOtherwiseTable => call (if record.arguments.isEmpty then [] else luaObject p record.arguments)
    | .broker | .gestureTable => ⟨none, [issue path "renderer.invalid-invocation"
        "The action has an invocation incompatible with a dispatcher binding."]⟩

def optionFlags (options : BindingOptions) : List (String × Bool) :=
  [("repeating", options.repeating), ("locked", options.locked), ("release", options.release),
    ("non_consuming", options.nonConsuming), ("auto_consuming", options.autoConsuming),
    ("transparent", options.transparent), ("ignore_mods", options.ignoreMods),
    ("dont_inhibit", options.dontInhibit), ("long_press", options.longPress),
    ("submap_universal", options.submapUniversal), ("click", options.click), ("drag", options.drag),
    ("allow_input_capture", options.allowInputCapture)]

def bindingOptions (record : BindingConfiguration) : QJsonObject :=
  .ofList ([(qstr "description", QJsonValue.string record.description)] ++
    ((optionFlags record.options).filter (·.2)).map (fun flag => (qstr flag.1, .bool true)) ++
    match record.options.device with
    | some device => [(qstr "device", .object (QJsonObject.ofList
        [(qstr "inclusive", .bool device.inclusive), (qstr "list", stringArray device.list)]))]
    | none => [])

/-- A binding that is disabled, or has no action to bind, has no statement. -/
def bindingStatement (actionCatalog : ActionCatalog) (record : BindingConfiguration) (path : QString) :
    Reads (Option LuaCall) :=
  if !record.enabled then pure none
  else if record.actionType ≠ .dispatcher then
    ⟨none, [issue (field path (qstr "action")) "renderer.broker-unavailable"
      "The fixed typed action broker is not available in this slice."]⟩
  else do
    let action ← dispatcherExpression p actionCatalog record (field path (qstr "action"))
    return action.map fun action =>
      ⟨"hl.bind", [luaString (bindingChord p record), action, luaObject p (bindingOptions record)]⟩

/-- The calls of the kept records, each with its submap; a record passed over keeps its index. -/
def bindingCalls (actionCatalog : ActionCatalog) (kept : BindingConfiguration → Bool) (path : QString) :
    Nat → List BindingConfiguration → Reads (List (QString × LuaCall))
  | _, [] => pure []
  | index, record :: rest =>
    if kept record then do
      let statement ← bindingStatement p actionCatalog record (element path index)
      let calls ← bindingCalls actionCatalog kept path (index + 1) rest
      return match statement with
        | some call => (record.submap, call) :: calls
        | none => calls
    else bindingCalls actionCatalog kept path (index + 1) rest

def shippedStatements (actionCatalog : ActionCatalog) (bindings : List BindingConfiguration) :
    Reads (List LuaStatement) := do
  let replaced := replacedDefaultBindings p bindings
  let calls ← bindingCalls p actionCatalog (fun record => !replaced.contains record.id) (qstr "$.shippedBindings") 0
    (shippedDefaultKeybindings p)
  return .comment "-- Shipped HyprShelld defaults (managed baseline)" :: calls.map (fun call => .call call.2) ++
    [.comment "\n-- Persisted user overrides, disabled defaults, and custom shortcuts"]

/-- The bindings collected for one submap, the top level being the empty name. -/
def submapBindings (calls : List (QString × LuaCall)) (submap : QString) : List LuaCall :=
  (calls.filter (·.1 = submap)).map (·.2)

/-- A submap body runs when it is defined, so the top level comes after every submap. -/
def keybindStatements (actionCatalog : ActionCatalog) (state : DesiredState) (includeShippedDefaults : Bool) :
    Reads (List LuaStatement) := do
  let shipped ← (if includeShippedDefaults then shippedStatements p actionCatalog state.bindings else pure [])
  let calls ← bindingCalls p actionCatalog (fun _ => true) (qstr "$.bindings") 0 state.bindings
  let submaps := (state.submaps.filter (·.enabled)).map fun submap =>
    LuaStatement.defineSubmap submap.name submap.reset (submapBindings calls submap.name)
  return shipped ++ submaps ++ (submapBindings calls []).map .call

structure SemanticLuaPayload where
  moduleBodies : QMap (List LuaStatement)
  activationRequirement : ActivationRequirement

def surfacesInUse (state : DesiredState) : List QString :=
  ([("monitors", state.monitors.isEmpty), ("environment", state.environment.isEmpty),
    ("devices", state.devices.isEmpty), ("gestures", state.gestures.isEmpty),
    ("workspaceRules", state.workspaceRules.isEmpty), ("curves", state.curves.isEmpty),
    ("animations", state.animations.isEmpty), ("windowRules", state.windowRules.isEmpty),
    ("layerRules", state.layerRules.isEmpty), ("submaps", state.submaps.isEmpty),
    ("bindings", state.bindings.isEmpty), ("permissions", state.permissions.isEmpty)].filter (!·.2)).map
    (qstr ·.1)

/-- Publishing always needs a reload at least. -/
def requiredActivation (catalog : Catalog) (state : DesiredState) : ActivationRequirement :=
  let options := (state.overrides.filterMap fun entry => findOption catalog entry.1).filter fun option =>
    !option.luaPath.isEmpty
  (surfacesInUse state).foldl (includeSurfaceRequirement catalog)
    (options.foldl (fun current option => includeRequirement current option.applyMode) .reload)

/-- Every module path is present from the start. -/
def appendStatements (bodies : QMap (List LuaStatement)) (addition : QString × List LuaStatement) :
    QMap (List LuaStatement) :=
  bodies.map fun body => if body.1 = addition.1 then (body.1, body.2 ++ addition.2) else body

def renderSemanticLuaPayload (state : DesiredState) (catalog : Catalog) (actionCatalog : ActionCatalog)
    (includeShippedDefaults : Bool) : ValidationResult SemanticLuaPayload :=
  Checked.result do
    let config ← scalarConfig catalog state.overrides []
    let environment ← environmentStatements 0 state.environment
    let gestures ← gestureStatements p actionCatalog 0 state.gestures
    let keybinds ← keybindStatements p actionCatalog state includeShippedDefaults
    let sections := (config.map fun entry => (entry.1, [callOn p "hl.config" entry.2])) ++ [
      (monitorsModule, state.monitors.map fun record => callOn p "hl.monitor" (monitorObject record)),
      (environmentModule, environment),
      (inputModule, state.devices.map fun record => callOn p "hl.device" (deviceObject record)),
      (gesturesModule, gestures),
      (workspacesModule, state.workspaceRules.map fun record =>
        callOn p "hl.workspace_rule" (workspaceObject record)),
      (animationsModule, animationStatements p state),
      (rulesModule, ruleStatements p state),
      (keybindsModule, keybinds),
      (permissionsModule, state.permissions.map fun record => luaCall "hl.permission"
        [luaString record.binary, luaString record.type, luaString record.mode])]
    return {
      moduleBodies := sections.foldl appendStatements (modulePaths.map fun path => (path, []))
      activationRequirement := requiredActivation catalog state }

end HyprShelld.Compositor
