import HyprShelld.Renderer.Lua

/-! The statements of the managed modules. -/
namespace HyprShelld.Compositor
open Hyprland

inductive ActivationRequirement where
  | none | reload | restart | session
  deriving DecidableEq

def activationRank : ActivationRequirement → Nat
  | .none => 0
  | .reload => 1
  | .restart => 2
  | .session => 3

def includeRequirement (current : ActivationRequirement) (applyMode : ApplyMode) : ActivationRequirement :=
  let candidate := match applyMode with
    | .reload => .reload
    | .restart => .restart
    | .session => .session
  if activationRank current < activationRank candidate then candidate else current

def includeSurfaceRequirement (catalog : Catalog) (current : ActivationRequirement) (surfaceId : QString) :
    ActivationRequirement :=
  match catalog.complexSurfaces.find? (·.id = surfaceId) with
  | some surface => includeRequirement current surface.applyMode
  | none => current

def sessionModule : QString := qstr "modules/00-session.lua"
def monitorsModule : QString := qstr "modules/10-monitors.lua"
def environmentModule : QString := qstr "modules/20-environment.lua"
def inputModule : QString := qstr "modules/30-input.lua"
def gesturesModule : QString := qstr "modules/31-gestures.lua"
def cursorModule : QString := qstr "modules/32-cursor.lua"
def generalModule : QString := qstr "modules/40-general.lua"
def layoutsModule : QString := qstr "modules/41-layouts.lua"
def workspacesModule : QString := qstr "modules/42-workspaces.lua"
def groupsModule : QString := qstr "modules/43-groups.lua"
def decorationsModule : QString := qstr "modules/50-decorations.lua"
def animationsModule : QString := qstr "modules/51-animations.lua"
def rulesModule : QString := qstr "modules/60-rules.lua"
def keybindsModule : QString := qstr "modules/70-keybinds.lua"
def permissionsModule : QString := qstr "modules/80-permissions.lua"
def advancedModule : QString := qstr "modules/90-advanced.lua"

def modulePaths : List QString :=
  [sessionModule, monitorsModule, environmentModule, inputModule, gesturesModule, cursorModule, generalModule,
    layoutsModule, workspacesModule, groupsModule, decorationsModule, animationsModule, rulesModule,
    keybindsModule, permissionsModule, advancedModule]

def moduleForCatalogModule (module : QString) : QString :=
  if module = qstr "input" then inputModule
  else if module = qstr "gestures" then gesturesModule
  else if module = qstr "cursor" then cursorModule
  else if module = qstr "general" then generalModule
  else if memberOf ["dwindle", "master", "scrolling", "layout"] module then layoutsModule
  else if module = qstr "group" then groupsModule
  else if module = qstr "decoration" then decorationsModule
  else if module = qstr "animations" then animationsModule
  else if module = qstr "binds" then keybindsModule
  else advancedModule

def insertNested (object : QJsonObject) : List QString → QJsonValue → QJsonObject
  | [], _ => object
  | [key], v => object.insert key v
  | key :: rest, v =>
    object.insert key (.object (insertNested (QJsonValue.toObject (QJsonObject.value object key)) rest v))

/-- QJsonArray::at of an index out of range is undefined. -/
def itemAt (values : QJsonArray) (index : Nat) : QJsonValue := values.getD index .undefined

def cssGapObject (values : QJsonArray) : QJsonObject :=
  .ofList [(qstr "top", itemAt values 0), (qstr "right", itemAt values 1), (qstr "bottom", itemAt values 2),
    (qstr "left", itemAt values 3)]

def normalizeWorkspaceCssGap (object : QJsonObject) (key : QString) : QJsonObject :=
  if !object.contains key then object
  else object.insert key (.object (cssGapObject (QJsonObject.value object key).toArray))

def toInt (v : QJsonValue) : Int :=
  (v.finite?.bind fun q => if q.den = 1 ∧ -2 ^ 31 ≤ q ∧ q < 2 ^ 31 then some q.num else none).getD 0

def modifierString (p : Platform) (modifiers : List QString) : QString :=
  join (modifiers.map p.toUpper) (qstr " + ")

section Records
variable (p : Platform)

def monitorObject (record : MonitorConfiguration) : QJsonObject :=
  let reserved := cssGapObject [integer record.reserved.1, integer record.reserved.2.1,
    integer record.reserved.2.2.1, integer record.reserved.2.2.2]
  let object := QJsonObject.ofList [
    (qstr "output", .string record.selector), (qstr "disabled", .bool !record.enabled),
    (qstr "mode", .string record.mode), (qstr "position", .string record.position),
    (qstr "reserved", .object reserved), (qstr "transform", integer record.transform),
    (qstr "mirror", .string record.mirror), (qstr "bitdepth", integer record.bitdepth),
    (qstr "cm", .string record.colorManagement), (qstr "sdr_eotf", .string record.sdrEotf),
    (qstr "sdrbrightness", number record.sdrBrightness), (qstr "sdrsaturation", number record.sdrSaturation),
    (qstr "vrr", integer record.vrr), (qstr "supports_wide_color", integer record.supportsWideColor),
    (qstr "supports_hdr", integer record.supportsHdr), (qstr "sdr_min_luminance", number record.sdrMinLuminance),
    (qstr "sdr_max_luminance", integer record.sdrMaxLuminance),
    (qstr "min_luminance", number record.minLuminance), (qstr "max_luminance", integer record.maxLuminance),
    (qstr "max_avg_luminance", integer record.maxAvgLuminance)]
  -- an empty profile path would be opened and rejected
  let object := if record.icc.isEmpty then object else object.insert (qstr "icc") (.string record.icc)
  object.insert (qstr "scale") (scaleValue record.scale)

def fullscreenStateText (state : QJsonObject) : QString :=
  signedDecimal (toInt (QJsonObject.value state (qstr "internal"))) ++
    if state.contains (qstr "client") then
      unit ' ' :: signedDecimal (toInt (QJsonObject.value state (qstr "client")))
    else []

def targetText (target : QJsonObject) : QString :=
  (QJsonObject.value target (qstr "target")).toString ++
    if (QJsonObject.value target (qstr "silent")).toBool then qstr " silent" else []

/-- Three levels, each with its own override mark; the last two default to the first. -/
def opacityText (opacity : QJsonObject) : QByteArray :=
  let level (key : String) := (QJsonObject.value opacity (qstr key)).toDouble
  let mark (key : String) :=
    if (QJsonObject.value opacity (qstr key)).toBool then bytes " override" else []
  let orActive (key : String) := if opacity.contains (qstr key) then level key else level "active"
  luaNumber p (level "active") ++ mark "overrideActive" ++
    bytes " " ++ luaNumber p (orActive "inactive") ++ mark "overrideInactive" ++
    bytes " " ++ luaNumber p (orActive "fullscreen") ++ mark "overrideFullscreen"

def replaceObject (key : String) (text : QJsonObject → QString) (effects : QJsonObject) : QJsonObject :=
  match QJsonObject.value effects (qstr key) with
  | .object object => effects.insert (qstr key) (.string (text object))
  | _ => effects

def marshalledWindowEffects (effects : QJsonObject) : QJsonObject :=
  let effects := replaceObject "fullscreen_state" fullscreenStateText effects
  let effects := replaceObject "monitor" targetText effects
  let effects := replaceObject "workspace" targetText effects
  let effects := match QJsonObject.value effects (qstr "suppress_event") with
    | .array events =>
      effects.insert (qstr "suppress_event") (.string (join (events.map (·.toString)) (qstr " ")))
    | _ => effects
  replaceObject "opacity" (fun opacity => (opacityText p opacity).map fun byte => UInt16.ofNat byte.toNat) effects

/-- A gesture with the arguments its action takes, under the fields Lua reads. -/
def gestureObject (actionCatalog : ActionCatalog) (record : GestureConfiguration) (path : QString) :
    Reads QJsonObject :=
  let result := QJsonObject.ofList [(qstr "fingers", integer record.fingers),
    (qstr "direction", .string record.direction),
    (qstr "mods", .string (join (record.modifiers.map p.toUpper) (qstr " "))),
    (qstr "scale", number record.scale), (qstr "disable_inhibit", .bool record.disableInhibit)]
  let refuse : Reads QJsonObject := ⟨result, [issue (field path (qstr "action")) "renderer.invalid-gesture-action"
    "The gesture action has no pinned Lua marshalling."]⟩
  match findAction actionCatalog .gesture record.action.id with
  | none => refuse
  | some action =>
    match action.luaPath, action.invocation.kind with
    | [luaAction], .gestureTable => pure <|
      action.invocation.parameters.foldl
        (fun object parameter =>
          object.insert parameter.field (QJsonObject.value record.action.payload parameter.argument))
        (result.insert action.invocation.actionField (.string luaAction))
    | _, _ => refuse

def curveObject (record : AnimationCurve) : QJsonObject :=
  match record.parameters with
  | .bezier bezier => .ofList [(qstr "type", .string (qstr "bezier")),
      (qstr "points", .array [pointValue bezier.points.1, pointValue bezier.points.2])]
  | .spring spring => .ofList [(qstr "type", .string (qstr "spring")), (qstr "stiffness", number spring.stiffness),
      (qstr "dampening", number spring.dampening), (qstr "mass", number spring.mass)]

/-- The last curve of a name decides its kind. -/
def isSpring (curves : List AnimationCurve) (name : QString) : Bool :=
  match curves.reverse.find? (·.name = name) with
  | some ⟨_, _, .spring _⟩ => true
  | _ => false

def animationObject (curves : List AnimationCurve) (record : AnimationConfiguration) : QJsonObject :=
  let object := QJsonObject.ofList [(qstr "leaf", .string record.name), (qstr "enabled", .bool record.enabled),
    (qstr "speed", number record.speed)]
  let object := object.insert (if isSpring curves record.curve then qstr "spring" else qstr "bezier")
    (.string record.curve)
  if record.style.isEmpty then object else object.insert (qstr "style") (.string record.style)

def deviceObject (record : DeviceConfiguration) : QJsonObject :=
  (record.overrides.insert (qstr "name") (.string record.selector)).insert (qstr "enabled") (.bool record.enabled)

def workspaceObject (record : WorkspaceRule) : QJsonObject :=
  let object := normalizeWorkspaceCssGap (normalizeWorkspaceCssGap
    (normalizeWorkspaceCssGap record.overrides (qstr "gaps_in")) (qstr "gaps_out")) (qstr "float_gaps")
  [(qstr "workspace", .string record.selector), (qstr "enabled", .bool record.enabled),
    (qstr "monitor", .string record.monitor), (qstr "persistent", .bool record.persistent),
    (qstr "default", .bool record.isDefault), (qstr "layout", .string record.layout)].foldl
    (fun object member => object.insert member.1 member.2) object

def ruleObject (effects : QJsonObject) (name : QString) (enabled : Bool) (ruleMatch : QJsonObject) : QJsonObject :=
  ((effects.insert (qstr "name") (.string name)).insert (qstr "enabled") (.bool enabled)).insert
    (qstr "match") (.object ruleMatch)

end Records

end HyprShelld.Compositor
