import HyprShelld.Desired.Parse

/-! The durable form of a desired state: compact JSON and one line feed. -/
namespace HyprShelld.Hyprland

variable (p : Platform)

def number (q : ℚ) : QJsonValue := .double (.finite q)
def integer (n : Int) : QJsonValue := .double (.finite n)
def stringArray (texts : List QString) : QJsonValue := .array (texts.map .string)

@[simp] theorem number_ne_undefined (q : ℚ) : number q ≠ .undefined := by simp [number]
@[simp] theorem integer_ne_undefined (n : Int) : integer n ≠ .undefined := by simp [integer]
@[simp] theorem stringArray_ne_undefined (texts : List QString) : stringArray texts ≠ .undefined := by
  simp [stringArray]

def scaleValue : MonitorScale → QJsonValue
  | .number q => number q
  | .text s => .string s

@[simp] theorem scaleValue_ne_undefined (scale : MonitorScale) : scaleValue scale ≠ .undefined := by
  cases scale <;> simp [scaleValue]

def monitorMembers (record : MonitorConfiguration) : List (QString × QJsonValue) :=
  [(qstr "id", .string record.id), (qstr "selector", .string record.selector),
    (qstr "enabled", .bool record.enabled), (qstr "mode", .string record.mode),
    (qstr "position", .string record.position), (qstr "scale", scaleValue record.scale),
    (qstr "reserved", .array [integer record.reserved.1, integer record.reserved.2.1,
      integer record.reserved.2.2.1, integer record.reserved.2.2.2]),
    (qstr "transform", integer record.transform), (qstr "mirror", .string record.mirror),
    (qstr "bitdepth", integer record.bitdepth), (qstr "cm", .string record.colorManagement),
    (qstr "sdrEotf", .string record.sdrEotf), (qstr "sdrBrightness", number record.sdrBrightness),
    (qstr "sdrSaturation", number record.sdrSaturation), (qstr "vrr", integer record.vrr),
    (qstr "icc", .string record.icc), (qstr "supportsWideColor", integer record.supportsWideColor),
    (qstr "supportsHdr", integer record.supportsHdr), (qstr "sdrMinLuminance", number record.sdrMinLuminance),
    (qstr "sdrMaxLuminance", integer record.sdrMaxLuminance), (qstr "minLuminance", number record.minLuminance),
    (qstr "maxLuminance", integer record.maxLuminance),
    (qstr "maxAvgLuminance", integer record.maxAvgLuminance)]

def deviceMembers (record : DeviceConfiguration) : List (QString × QJsonValue) :=
  [(qstr "id", .string record.id), (qstr "selector", .string record.selector), (qstr "kind", .string record.kind),
    (qstr "enabled", .bool record.enabled), (qstr "overrides", .object record.overrides)]

def pointValue (point : ℚ × ℚ) : QJsonValue := .array [number point.1, number point.2]

def curveMembers (record : AnimationCurve) : List (QString × QJsonValue) :=
  [(qstr "id", .string record.id), (qstr "name", .string record.name)] ++
    match record.parameters with
    | .bezier bezier => [(qstr "type", .string (qstr "bezier")),
        (qstr "points", .array [pointValue bezier.points.1, pointValue bezier.points.2])]
    | .spring spring => [(qstr "type", .string (qstr "spring")), (qstr "stiffness", number spring.stiffness),
        (qstr "dampening", number spring.dampening), (qstr "mass", number spring.mass)]

def animationMembers (record : AnimationConfiguration) : List (QString × QJsonValue) :=
  [(qstr "id", .string record.id), (qstr "name", .string record.name), (qstr "enabled", .bool record.enabled),
    (qstr "speed", number record.speed), (qstr "curve", .string record.curve), (qstr "style", .string record.style)]

def gestureMembers (record : GestureConfiguration) : List (QString × QJsonValue) :=
  [(qstr "id", .string record.id), (qstr "fingers", integer record.fingers),
    (qstr "direction", .string record.direction), (qstr "modifiers", stringArray record.modifiers),
    (qstr "scale", number record.scale), (qstr "disableInhibit", .bool record.disableInhibit),
    (qstr "action", .object record.action.payload)]

def workspaceRuleMembers (record : WorkspaceRule) : List (QString × QJsonValue) :=
  [(qstr "id", .string record.id), (qstr "selector", .string record.selector),
    (qstr "enabled", .bool record.enabled), (qstr "monitor", .string record.monitor),
    (qstr "persistent", .bool record.persistent), (qstr "isDefault", .bool record.isDefault),
    (qstr "layout", .string record.layout), (qstr "overrides", .object record.overrides)]

def windowRuleMembers (record : WindowRule) : List (QString × QJsonValue) :=
  [(qstr "id", .string record.id), (qstr "name", .string record.name), (qstr "enabled", .bool record.enabled),
    (qstr "match", .object record.ruleMatch), (qstr "effects", .object record.effects)]

def layerRuleMembers (record : LayerRule) : List (QString × QJsonValue) :=
  [(qstr "id", .string record.id), (qstr "name", .string record.name), (qstr "enabled", .bool record.enabled),
    (qstr "match", .object record.ruleMatch), (qstr "effects", .object record.effects)]

def submapMembers (record : SubmapConfiguration) : List (QString × QJsonValue) :=
  [(qstr "id", .string record.id), (qstr "name", .string record.name), (qstr "reset", .string record.reset),
    (qstr "enabled", .bool record.enabled)]

def deviceFilterMembers (filter : BindingDeviceFilter) : List (QString × QJsonValue) :=
  [(qstr "inclusive", .bool filter.inclusive), (qstr "list", stringArray filter.list)]

def bindingOptionMembers (options : BindingOptions) : List (QString × QJsonValue) :=
  [(qstr "repeating", .bool options.repeating), (qstr "locked", .bool options.locked),
    (qstr "release", .bool options.release), (qstr "nonConsuming", .bool options.nonConsuming),
    (qstr "autoConsuming", .bool options.autoConsuming), (qstr "transparent", .bool options.transparent),
    (qstr "ignoreMods", .bool options.ignoreMods), (qstr "dontInhibit", .bool options.dontInhibit),
    (qstr "longPress", .bool options.longPress), (qstr "submapUniversal", .bool options.submapUniversal),
    (qstr "click", .bool options.click), (qstr "drag", .bool options.drag),
    (qstr "allowInputCapture", .bool options.allowInputCapture)] ++
  match options.device with
  | some filter => [(qstr "device", .object (QJsonObject.ofList (deviceFilterMembers filter)))]
  | none => []

def bindingMembers (record : BindingConfiguration) : List (QString × QJsonValue) :=
  [(qstr "id", .string record.id), (qstr "modifiers", stringArray record.modifiers),
    (qstr "key", .string record.key), (qstr "actionType", .string record.actionType.toString),
    (qstr "action", .string record.action), (qstr "arguments", .object record.arguments),
    (qstr "description", .string record.description), (qstr "enabled", .bool record.enabled),
    (qstr "submap", .string record.submap),
    (qstr "options", .object (QJsonObject.ofList (bindingOptionMembers record.options)))]

def permissionMembers (record : PermissionConfiguration) : List (QString × QJsonValue) :=
  [(qstr "id", .string record.id), (qstr "binary", .string record.binary), (qstr "type", .string record.type),
    (qstr "mode", .string record.mode)]

def EnvironmentScope.toString : EnvironmentScope → QString
  | .hyprland => qstr "hyprland"
  | .uwsm => qstr "uwsm"

def environmentMembers (record : EnvironmentConfiguration) : List (QString × QJsonValue) :=
  [(qstr "id", .string record.id), (qstr "name", .string record.name), (qstr "value", .string record.value),
    (qstr "scope", .string record.scope.toString)]

def recordArray {α : Type} (members : α → List (QString × QJsonValue)) (records : List α) : QJsonValue :=
  .array (records.map fun record => .object (QJsonObject.ofList (members record)))

def stateMembers (state : DesiredState) : List (QString × QJsonValue) :=
  [(qstr "formatVersion", integer state.formatVersion),
    (qstr "revision", .string (decimal state.revision.toNat)),
    (qstr "targetHyprland", .string state.targetHyprland), (qstr "catalogDigest", .string state.catalogDigest),
    (qstr "actionCatalogDigest", .string state.actionCatalogDigest),
    (qstr "overrides", .object (QJsonObject.ofList state.overrides)),
    (qstr "monitors", recordArray monitorMembers state.monitors),
    (qstr "devices", recordArray deviceMembers state.devices),
    (qstr "curves", recordArray curveMembers state.curves),
    (qstr "animations", recordArray animationMembers state.animations),
    (qstr "gestures", recordArray gestureMembers state.gestures),
    (qstr "workspaceRules", recordArray workspaceRuleMembers state.workspaceRules),
    (qstr "windowRules", recordArray windowRuleMembers state.windowRules),
    (qstr "layerRules", recordArray layerRuleMembers state.layerRules),
    (qstr "submaps", recordArray submapMembers state.submaps),
    (qstr "bindings", recordArray bindingMembers state.bindings),
    (qstr "permissions", recordArray permissionMembers state.permissions),
    (qstr "environment", recordArray environmentMembers state.environment)]

/-- The object written for a state; a kept future document is written as it is. -/
def stateObject (state : DesiredState) : QJsonObject :=
  match state.opaqueFutureDocument with
  | some document => document
  | none => QJsonObject.ofList (stateMembers state)

def serializeDesiredState (state : DesiredState) : QByteArray :=
  canonicalJson p (.object (stateObject state)) ++ [0x0a]

end HyprShelld.Hyprland
