import HyprShelld.Desired.Chord

/-! The parsers of the twelve record collections. -/
namespace HyprShelld.Hyprland

variable (p : Platform)

def memberOf (choices : List String) (text : QString) : Bool := (choices.map qstr).contains text

/-- A non-empty text outside its closed set of choices. -/
def rejectChoice (text : QString) (choices : List String) (path : QString) (code message : String) : Reads Unit :=
  .rejectIf (!text.isEmpty && !memberOf choices text) (issue path code message)

def readId (object : QJsonObject) (path : QString) : Reads QString := do
  let id ← readString p object (qstr "id") path 128
  validateStableId id (field path (qstr "id"))
  return id

def monitorFields : List QString :=
  [qstr "id", qstr "selector", qstr "enabled", qstr "mode", qstr "position", qstr "scale", qstr "reserved",
    qstr "transform", qstr "mirror", qstr "bitdepth", qstr "cm", qstr "sdrEotf", qstr "sdrBrightness",
    qstr "sdrSaturation", qstr "vrr", qstr "icc", qstr "supportsWideColor", qstr "supportsHdr",
    qstr "sdrMinLuminance", qstr "sdrMaxLuminance", qstr "minLuminance", qstr "maxLuminance",
    qstr "maxAvgLuminance"]

/-- The largest finite float. -/
def maximumFloat : ℚ := (2 ^ 24 - 1) * 2 ^ 104

def readScale (object : QJsonObject) (path : QString) : Reads MonitorScale :=
  let invalid : Reads MonitorScale := ⟨.number 1, [issue (field path (qstr "scale"))
    "state.invalid-monitor-scale" "Scale must be at least 0.25 or exactly auto."]⟩
  match object.value (qstr "scale") with
  | .double (.finite q) => if 1 / 4 ≤ q ∧ q ≤ maximumFloat then pure (.number q) else invalid
  | .string text => if text = qstr "auto" then pure (.text text) else invalid
  | _ => invalid

def readReserved (object : QJsonObject) (path : QString) : Reads (Int × Int × Int × Int) :=
  let invalid : Reads (Int × Int × Int × Int) := ⟨(0, 0, 0, 0), [issue (field path (qstr "reserved"))
    "state.invalid-css-gap" "Reserved area must contain four bounded integers."]⟩
  match object.value (qstr "reserved") with
  | .array [a, b, c, d] =>
    match a.integer?, b.integer?, c.integer?, d.integer? with
    | some a, some b, some c, some d => pure (a, b, c, d)
    | _, _, _, _ => invalid
  | _ => invalid

/-- A monitor selector that may be left empty. -/
def validateOptionalSelector (selector path : QString) : Reads Unit :=
  if selector.isEmpty then pure () else validateStaticMonitorSelector p selector path

def parseMonitor (object : QJsonObject) (path : QString) : Reads MonitorConfiguration := do
  rejectUnknownFields object monitorFields path
  let id ← readId p object path
  let selector ← readString p object (qstr "selector") path 261
  validateStaticMonitorSelector p selector (field path (qstr "selector"))
  let enabled ← readBoolean object (qstr "enabled") path true
  let mode ← readString p object (qstr "mode") path 24
  .rejectIf (!mode.isEmpty && !memberOf ["preferred", "highrr", "highres", "maxwidth"] mode &&
      !hasMatch explicitMode mode)
    (issue (field path (qstr "mode")) "state.invalid-monitor-mode"
      "The monitor mode is outside the managed mode grammar.")
  let position ← readString p object (qstr "position") path 17
  .rejectIf (!position.isEmpty && !memberOf ["auto", "auto-right", "auto-left", "auto-up", "auto-down",
      "auto-center-right", "auto-center-left", "auto-center-up", "auto-center-down"] position &&
      !hasMatch explicitPosition position)
    (issue (field path (qstr "position")) "state.invalid-monitor-position"
      "The monitor position is outside the managed coordinate grammar.")
  let scale ← readScale object path
  let reserved ← readReserved object path
  let transform ← readInteger object (qstr "transform") path 0 7 0
  let mirror ← readString p object (qstr "mirror") path 261 true
  validateOptionalSelector p mirror (field path (qstr "mirror"))
  let bitdepth ← readInteger object (qstr "bitdepth") path 8 10 8
  .rejectIf (bitdepth ≠ 8 && bitdepth ≠ 10)
    (issue (field path (qstr "bitdepth")) "state.invalid-monitor-bitdepth"
      "Only 8-bit and 10-bit outputs are supported.")
  let colorManagement ← readString p object (qstr "cm") path 32
  rejectChoice colorManagement
    ["auto", "srgb", "wide", "edid", "hdr", "hdredid", "dcip3", "dp3", "adobe"] (field path (qstr "cm"))
    "state.invalid-monitor-color-mode" "The color-management mode is unsupported."
  let sdrEotf ← readString p object (qstr "sdrEotf") path 32
  rejectChoice sdrEotf ["default", "auto", "srgb", "gamma22", "gamma22force"] (field path (qstr "sdrEotf"))
    "state.invalid-monitor-eotf" "The SDR transfer function is unsupported."
  let sdrBrightness ← readNumber object (qstr "sdrBrightness") path 0 10 1
  let sdrSaturation ← readNumber object (qstr "sdrSaturation") path 0 10 1
  let vrr ← readInteger object (qstr "vrr") path (-1) 3 0
  let icc ← readString p object (qstr "icc") path 256 true
  let supportsWideColor ← readInteger object (qstr "supportsWideColor") path (-1) 1 0
  let supportsHdr ← readInteger object (qstr "supportsHdr") path (-1) 1 0
  let sdrMinLuminance ← readNumber object (qstr "sdrMinLuminance") path 0 10000 (dyadic 3602879701896397 54)
  let sdrMaxLuminance ← readInteger object (qstr "sdrMaxLuminance") path (-1) maximumInt32 80
  let minLuminance ← readNumber object (qstr "minLuminance") path (-1) 10000 (-1)
  let maxLuminance ← readInteger object (qstr "maxLuminance") path (-1) maximumInt32 (-1)
  let maxAvgLuminance ← readInteger object (qstr "maxAvgLuminance") path (-1) maximumInt32 (-1)
  return {
    id, selector, enabled, mode, position, scale, reserved, transform, mirror, bitdepth, colorManagement,
    sdrEotf, sdrBrightness, sdrSaturation, vrr, icc, supportsWideColor, supportsHdr, sdrMinLuminance,
    sdrMaxLuminance, minLuminance, maxLuminance, maxAvgLuminance }

def deviceConfigurationFields : List QString :=
  [qstr "id", qstr "selector", qstr "kind", qstr "enabled", qstr "overrides"]

def parseDevice (object : QJsonObject) (path : QString) : Reads DeviceConfiguration := do
  rejectUnknownFields object deviceConfigurationFields path
  let id ← readId p object path
  let selector ← readString p object (qstr "selector") path 256
  let kind ← readString p object (qstr "kind") path 64
  rejectChoice kind
    ["keyboard", "pointer", "touchpad", "touch", "tablet", "tabletTool", "switch", "other"]
    (field path (qstr "kind")) "state.invalid-device-kind"
    "The device kind is not supported by the pinned contract."
  let enabled ← readBoolean object (qstr "enabled") path true
  let overrides ← readClosedMap p object (qstr "overrides") path deviceFields
  validateDeviceOverrides overrides (field path (qstr "overrides"))
  return { id, selector, kind, enabled, overrides }

/-- Records with an identity that an earlier record of the collection has. -/
def rejectDuplicateIdentities (identities : List QString) (surface key : String) : Reads Unit :=
  .rejectRepeated (fun index => issue (field (element (qstr ("$." ++ surface)) index) (qstr key))
      "state.duplicate-natural-identity" "The managed collection contains a duplicate natural identity.")
    0 [] (identities.map fun identity => if identity.isEmpty then none else some identity)

def parseDesiredInputDevices (snapshot : QJsonObject) : ValidationResult (List DeviceConfiguration) :=
  Checked.result do
    let devices ← parseRecordArray snapshot (qstr "devices") maximumDevices DeviceConfiguration.id (parseDevice p)
    rejectDuplicateIdentities
      (devices.map fun device => replaceUnit device.selector (unit ' ') [unit '-']) "devices" "selector"
    return devices

def bezierCoordinate (v : QJsonValue) (path : QString) (fallback : ℚ) : Reads ℚ :=
  match v.finite?.filter fun q => -1 ≤ q ∧ q ≤ 2 with
  | some q => pure q
  | none => ⟨fallback, [issue path "state.invalid-curve" "Bezier coordinates must lie between -1 and 2."]⟩

def bezierPoint (v : Option QJsonValue) (path : QString) (fallback : ℚ × ℚ) : Reads (ℚ × ℚ) :=
  match v with
  | none => pure fallback
  | some (.array [x, y]) => do
    let x ← bezierCoordinate x (element path 0) fallback.1
    let y ← bezierCoordinate y (element path 1) fallback.2
    return (x, y)
  | some _ => ⟨fallback, [issue path "state.invalid-curve"
      "A curve point must contain exactly two coordinates."]⟩

def parseBezier (object : QJsonObject) (path : QString) : Reads AnimationCurveParameters := do
  rejectUnknownFields object [qstr "id", qstr "name", qstr "type", qstr "points"] path
  let points ← readArray object (qstr "points") path
  let pointsPath := field path (qstr "points")
  .rejectIf (points.length ≠ 2)
    (issue pointsPath "state.invalid-curve" "Bezier curves require exactly two points.")
  let first ← bezierPoint points[0]? (element pointsPath 0) (0, 0)
  let second ← bezierPoint points[1]? (element pointsPath 1) (1, 1)
  return .bezier { points := (first, second) }

def readSpring (object : QJsonObject) (key path : QString) : Reads ℚ := do
  let q ← readNumber object key path 0 1000000 1
  .rejectIf (q ≤ 1 / 2) (issue (field path key) "state.invalid-curve" "Spring parameters must be greater than 0.5.")
  return if q ≤ 1 / 2 then 1 else q

def parseSpring (object : QJsonObject) (path : QString) : Reads AnimationCurveParameters := do
  rejectUnknownFields object
    [qstr "id", qstr "name", qstr "type", qstr "stiffness", qstr "dampening", qstr "mass"] path
  let stiffness ← readSpring object (qstr "stiffness") path
  let dampening ← readSpring object (qstr "dampening") path
  let mass ← readSpring object (qstr "mass") path
  return .spring { stiffness, dampening, mass }

def parseCurve (object : QJsonObject) (path : QString) : Reads AnimationCurve := do
  let id ← readId p object path
  let name ← readString p object (qstr "name") path 256
  let type ← readString p object (qstr "type") path 16
  let parameters ←
    (if type = qstr "bezier" then parseBezier object path
    else if type = qstr "spring" then parseSpring object path
    else do
      .rejectIf (!type.isEmpty) (issue (field path (qstr "type")) "state.invalid-curve-type"
        "Only bezier and spring curves are supported.")
      return .bezier {})
  return { id, name, parameters }

def animationLeaves : List String :=
  ["global", "windows", "layers", "fade", "border", "borderangle", "shadowangle", "glowangle", "workspaces",
    "zoomFactor", "monitorAdded", "layersIn", "layersOut", "windowsIn", "windowsOut", "windowsMove", "fadeIn",
    "fadeOut", "fadeSwitch", "fadeShadow", "fadeGlow", "fadeDim", "fadeLayers", "fadeLayersIn",
    "fadeLayersOut", "fadePopups", "fadePopupsIn", "fadePopupsOut", "fadeDpms", "workspacesIn",
    "workspacesOut", "specialWorkspace", "specialWorkspaceIn", "specialWorkspaceOut"]

/-- Whether a style suits an animation leaf; a name outside the leaves has its own error. -/
def isAnimationStyle (name style : QString) : Bool :=
  if style.isEmpty then true
  else if memberOf ["windows", "windowsIn", "windowsOut", "windowsMove"] name then hasMatch windowStyle style
  else if memberOf ["workspaces", "workspacesIn", "workspacesOut", "specialWorkspace", "specialWorkspaceIn",
      "specialWorkspaceOut"] name then hasMatch workspaceStyle style
  else if memberOf ["borderangle", "shadowangle", "glowangle"] name then memberOf ["loop", "once"] style
  else if memberOf ["layers", "layersIn", "layersOut"] name then hasMatch layerStyle style
  else false

def animationFields : List QString :=
  [qstr "id", qstr "name", qstr "enabled", qstr "speed", qstr "curve", qstr "style"]

def parseAnimation (object : QJsonObject) (path : QString) : Reads AnimationConfiguration := do
  rejectUnknownFields object animationFields path
  let id ← readId p object path
  let name ← readString p object (qstr "name") path 128
  rejectChoice name animationLeaves (field path (qstr "name")) "state.invalid-animation-name"
    "The animation name is not a pinned Hyprland animation leaf."
  let enabled ← readBoolean object (qstr "enabled") path true
  let speed ← readNumber object (qstr "speed") path 0 100 1
  .rejectIf (speed ≤ 0) (issue (field path (qstr "speed")) "state.animation-speed"
    "Animation speed must be greater than zero.")
  let curve ← readString p object (qstr "curve") path 256
  let style ← readString p object (qstr "style") path 128 true
  .rejectIf (!isAnimationStyle name style) (issue (field path (qstr "style")) "state.invalid-animation-style"
    "The style is not valid for this animation leaf.")
  return { id, name, enabled, speed, curve, style }

def gestureFields : List QString :=
  [qstr "id", qstr "fingers", qstr "direction", qstr "modifiers", qstr "scale", qstr "disableInhibit",
    qstr "action"]

def readGestureAction (actionCatalog : ActionCatalog) (object : QJsonObject) (path : QString) :
    Reads GestureAction := do
  let action ← readObject object (qstr "action") path
  let actionPath := field path (qstr "action")
  let type ← readString p action (qstr "type") actionPath 32
  (match findAction actionCatalog .gesture type with
    | some definition => validateActionPayload p definition (.object action) actionPath
    | none => .rejectIf (!type.isEmpty) (issue (field actionPath (qstr "type")) "state.unknown-gesture-action"
        "Only pinned declarative gesture actions are accepted."))
  return { id := type, payload := action }

def parseGesture (actionCatalog : ActionCatalog) (object : QJsonObject) (path : QString) :
    Reads GestureConfiguration := do
  rejectUnknownFields object gestureFields path
  let id ← readId p object path
  let fingers ← readInteger object (qstr "fingers") path 2 9 3
  let direction ← readString p object (qstr "direction") path 32
  rejectChoice direction
    ["swipe", "pinch", "pinchIn", "pinchOut", "horizontal", "vertical", "left", "right", "up", "down"]
    (field path (qstr "direction")) "state.invalid-gesture-direction" "The gesture direction is not supported."
  let modifiers ← readStringArray p object (qstr "modifiers") path maximumBindingModifiers false
  let modifiersPath := field path (qstr "modifiers")
  validatePersistedModifiers modifiers modifiersPath
  .reportAll ((normalizeBindingChord p modifiers (qstr "A")).errors.map fun error =>
    { error with path := modifiersPath ++ error.path.drop (qstr "$.modifiers").length })
  let scale ← readNumber object (qstr "scale") path (dyadic 3602879701896397 55) 10 1
  let disableInhibit ← readBoolean object (qstr "disableInhibit") path
  let action ← readGestureAction p actionCatalog object path
  return { id, fingers, direction, modifiers, scale, disableInhibit, action }

def workspaceRuleFields : List QString :=
  [qstr "id", qstr "selector", qstr "enabled", qstr "monitor", qstr "persistent", qstr "isDefault",
    qstr "layout", qstr "overrides"]

/-- The overrides of the protected rule. -/
def sharedSpacingOverrides : QJsonObject :=
  [(qstr "gaps_out", .array (List.replicate 4 (.double (.finite 0))))]

def parseWorkspaceRule (object : QJsonObject) (path : QString) : Reads WorkspaceRule := do
  rejectUnknownFields object workspaceRuleFields path
  let id ← readId p object path
  let selector ← readString p object (qstr "selector") path 256
  validateWorkspaceRuleSelector selector id (field path (qstr "selector"))
  let enabled ← readBoolean object (qstr "enabled") path true
  let monitor ← readString p object (qstr "monitor") path 261 true
  validateOptionalSelector p monitor (field path (qstr "monitor"))
  let persistent ← readBoolean object (qstr "persistent") path
  let isDefault ← readBoolean object (qstr "isDefault") path
  let layout ← readString p object (qstr "layout") path 256 true
  .rejectIf (!memberOf ["", "dwindle", "master", "scrolling", "monocle"] layout)
    (issue (field path (qstr "layout")) "state.invalid-workspace-layout"
      "The layout is not a pinned built-in Hyprland layout.")
  let overrides ← readClosedMap p object (qstr "overrides") path workspaceFields
  validateWorkspaceOverrides overrides (field path (qstr "overrides"))
  .rejectIf (id = sharedSpacingWorkspaceRuleId && (selector ≠ sharedSpacingWorkspaceRuleSelector || !enabled ||
      !monitor.isEmpty || persistent || isDefault || !layout.isEmpty || overrides ≠ sharedSpacingOverrides))
    (issue path "state.invalid-protected-workspace-rule"
      "The protected maximized-workspace rule must match the exact HyprShelld contract.")
  return { id, selector, enabled, monitor, persistent, isDefault, layout, overrides }

def ruleFields : List QString := [qstr "id", qstr "name", qstr "enabled", qstr "match", qstr "effects"]

def parseWindowRule (object : QJsonObject) (path : QString) : Reads WindowRule := do
  rejectUnknownFields object ruleFields path
  let id ← readId p object path
  let name ← readString p object (qstr "name") path 256
  let enabled ← readBoolean object (qstr "enabled") path true
  let ruleMatch ← readClosedMap p object (qstr "match") path windowMatchFields
  validateWindowMatch p ruleMatch (field path (qstr "match"))
  let effects ← readClosedMap p object (qstr "effects") path windowEffectFields
  validateWindowEffects p effects (field path (qstr "effects"))
  .rejectIf ruleMatch.isEmpty (issue (field path (qstr "match")) "state.empty-rule-match"
    "A window rule requires at least one matcher.")
  .rejectIf effects.isEmpty (issue (field path (qstr "effects")) "state.empty-rule-effects"
    "A window rule requires at least one effect.")
  return { id, name, enabled, ruleMatch, effects }

def parseLayerRule (object : QJsonObject) (path : QString) : Reads LayerRule := do
  rejectUnknownFields object ruleFields path
  let id ← readId p object path
  let name ← readString p object (qstr "name") path 256
  let enabled ← readBoolean object (qstr "enabled") path true
  let ruleMatch ← readClosedMap p object (qstr "match") path layerMatchFields
  validateLayerMatch p ruleMatch (field path (qstr "match"))
  let effects ← readClosedMap p object (qstr "effects") path layerEffectFields
  validateLayerEffects effects (field path (qstr "effects"))
  .rejectIf ruleMatch.isEmpty (issue (field path (qstr "match")) "state.empty-rule-match"
    "A layer rule requires at least one matcher.")
  .rejectIf effects.isEmpty (issue (field path (qstr "effects")) "state.empty-rule-effects"
    "A layer rule requires at least one effect.")
  return { id, name, enabled, ruleMatch, effects }

def submapFields : List QString := [qstr "id", qstr "name", qstr "reset", qstr "enabled"]

def parseSubmap (object : QJsonObject) (path : QString) : Reads SubmapConfiguration := do
  rejectUnknownFields object submapFields path
  let id ← readId p object path
  let name ← readString p object (qstr "name") path 256
  let reset ← readString p object (qstr "reset") path 256 true
  let enabled ← readBoolean object (qstr "enabled") path true
  return { id, name, reset, enabled }

def permissionFields : List QString := [qstr "id", qstr "binary", qstr "type", qstr "mode"]

def parsePermission (object : QJsonObject) (path : QString) : Reads PermissionConfiguration := do
  rejectUnknownFields object permissionFields path
  let id ← readId p object path
  let binary ← readString p object (qstr "binary") path
  validateRe2Expression p object (qstr "binary") path
  let type ← readString p object (qstr "type") path 64
  let mode ← readString p object (qstr "mode") path 16
  rejectChoice type ["screencopy", "cursorpos", "plugin", "keyboard", "input-capture"] (field path (qstr "type"))
    "state.invalid-permission-type" "The permission type is not supported by 0.56."
  rejectChoice mode ["ask", "allow", "deny"] (field path (qstr "mode"))
    "state.invalid-permission-mode" "The permission mode is not supported."
  return { id, binary, type, mode }

def environmentFields : List QString := [qstr "id", qstr "name", qstr "value", qstr "scope"]

def parseEnvironment (object : QJsonObject) (path : QString) : Reads EnvironmentConfiguration := do
  rejectUnknownFields object environmentFields path
  let id ← readId p object path
  let name ← readString p object (qstr "name") path 128
  .rejectIf (!name.isEmpty && !hasMatch environmentName name)
    (issue (field path (qstr "name")) "state.invalid-environment-name"
      "The environment variable name is invalid.")
  let value ← readString p object (qstr "value") path maximumStateStringLength true true
  let scope ← readString p object (qstr "scope") path 16
  rejectChoice scope ["hyprland", "uwsm"] (field path (qstr "scope")) "state.invalid-environment-scope"
    "Only hyprland and uwsm ownership are supported."
  return { id, name, value, scope := if scope = qstr "uwsm" then .uwsm else .hyprland }

end HyprShelld.Hyprland
