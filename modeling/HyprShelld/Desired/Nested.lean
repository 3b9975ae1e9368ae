import HyprShelld.Desired.Readers

/-! Closed maps nested in records: the fields a surface knows, with the kind of each value. -/
namespace HyprShelld.Hyprland

variable (p : Platform)

inductive NestedValueKind where
  | boolean | integer | number | shortString | nonEmptyString | regexString | cssGap | vector2
  | expressionVector2 | gradient | layoutOptions | windowFullscreenState | windowOpacity
  | suppressEvents | object
  deriving DecidableEq

def isSchemaString (v : QJsonValue) (maximumLength : Nat) (allowEmpty : Bool) : Bool :=
  v.isString && (allowEmpty || !v.toString.isEmpty) && v.toString.length ≤ maximumLength &&
    isNormalizedC p v.toString && !hasDisallowedCharacter p v.toString false

def isNumberValue (v : QJsonValue) : Bool := v.finite?.isSome
def isIntegerValue (v : QJsonValue) : Bool := v.integer?.isSome
def isCssGapValue (v : QJsonValue) : Bool := v.isArray && v.toArray.length = 4 && v.toArray.all isIntegerValue

def isBoundedNumberValue (v : QJsonValue) (minimum maximum : ℚ) : Bool :=
  isNumberValue v && !v.lessThan minimum && !v.greaterThan maximum

def isBoundedIntegerValue (v : QJsonValue) (minimum maximum : Int) : Bool :=
  isIntegerValue v && !v.lessThan minimum && !v.greaterThan maximum

def isGradientValue (v : QJsonValue) : Bool :=
  let gradient := v.toObject
  let colors := QJsonObject.value gradient (qstr "colors")
  let angle := QJsonObject.value gradient (qstr "angle")
  v.isObject && gradient.length = 2 && QJsonObject.contains gradient (qstr "colors") &&
    QJsonObject.contains gradient (qstr "angle") && colors.isArray && !colors.toArray.isEmpty &&
    colors.toArray.length ≤ 10 && isBoundedNumberValue angle (-3600) 3600 && colors.toArray.all isCanonicalColor

def isLayoutOptionsValue (v : QJsonValue) : Bool :=
  v.isObject && v.toObject.all fun (key, item) =>
    [qstr "orientation", qstr "direction"].contains key && item.isString &&
    (key ≠ qstr "orientation" ||
      [qstr "left", qstr "right", qstr "top", qstr "bottom", qstr "center"].contains item.toString) &&
    (key ≠ qstr "direction" || [qstr "left", qstr "right", qstr "up", qstr "down"].contains item.toString)

def isFullscreenStateValue (v : QJsonValue) : Bool :=
  v.isObject && QJsonObject.contains v.toObject (qstr "internal") && v.toObject.all fun (key, item) =>
    [qstr "internal", qstr "client"].contains key && isBoundedIntegerValue item 0 2

def isOpacityValue (v : QJsonValue) : Bool :=
  let required := [qstr "active", qstr "overrideActive", qstr "overrideInactive", qstr "overrideFullscreen"]
  v.isObject && required.all (QJsonObject.contains v.toObject) && v.toObject.all fun (key, item) =>
    (required ++ [qstr "inactive", qstr "fullscreen"]).contains key &&
    if startsWith key (qstr "override") then item.isBool else isBoundedNumberValue item 0 1

def suppressibleEvents : List QString :=
  [qstr "fullscreen", qstr "maximize", qstr "activate", qstr "activatefocus", qstr "fullscreenoutput",
    qstr "x11configurerequest"]

def isSuppressEventsValue (v : QJsonValue) : Bool :=
  v.isArray && !v.toArray.isEmpty && v.toArray.length ≤ 6 &&
    (v.toArray.all fun event => event.isString && suppressibleEvents.contains event.toString) &&
    decide (v.toArray.map QJsonValue.toString).Nodup

def nestedValueMatches (v : QJsonValue) : NestedValueKind → Bool
  | .boolean => v.isBool
  | .integer => isIntegerValue v
  | .number => isNumberValue v
  | .shortString => isSchemaString p v 256 true
  | .nonEmptyString => isSchemaString p v 256 false
  | .regexString => isSchemaString p v 512 false
  | .cssGap => isCssGapValue v
  | .vector2 => v.isArray && v.toArray.length = 2 && v.toArray.all isNumberValue
  | .expressionVector2 => v.isArray && v.toArray.length = 2 &&
      v.toArray.all (isBoundedNumberValue · (-1000000) 1000000)
  | .gradient => isGradientValue v
  | .layoutOptions => isLayoutOptionsValue v
  | .windowFullscreenState => isFullscreenStateValue v
  | .windowOpacity => isOpacityValue v
  | .suppressEvents => isSuppressEventsValue v
  | .object => v.isObject

abbrev NestedFieldTable := List (QString × NestedValueKind)

def readClosedMap (parent : QJsonObject) (key path : QString) (fields : NestedFieldTable) : Reads QJsonObject := do
  let object ← readObject parent key path
  .rejectIf (maximumGenericMapEntries < object.length)
    (issue (field path key) "state.collection-limit" "The nested object exceeds its field limit.")
  .forEach (fun _ (name, v) => match fields.lookup name with
    | none => addError (field (field path key) name) "state.unknown-field"
        "The nested field is not supported by the pinned Hyprland contract."
    | some kind => .rejectIf (!nestedValueMatches p v kind)
        (issue (field (field path key) name) "state.nested-value-type"
          "The nested value has the wrong contract type.")) 0 object
  return object

def validateNumericField (object : QJsonObject) (path : QString) (key : String) (minimum maximum : ℚ) :
    Reads Unit :=
  let v := object.value (qstr key)
  .rejectIf (object.contains (qstr key) && (!v.isDouble || v.lessThan minimum || v.greaterThan maximum))
    (issue (field path (qstr key)) "state.nested-value-range"
      "The nested value is outside the pinned Hyprland range.")

def validateChoiceField (object : QJsonObject) (path : QString) (key : String) (choices : List String) :
    Reads Unit :=
  let v := object.value (qstr key)
  .rejectIf (object.contains (qstr key) && (!v.isString || !(choices.map qstr).contains v.toString))
    (issue (field path (qstr key)) "state.nested-value-choice"
      "The nested value is not in the pinned Hyprland enum.")

def validateRe2Expression (object : QJsonObject) (key path : QString) : Reads Unit :=
  match object.value key with
  | .string text =>
    let expression := if startsWith text (qstr "negative:") then text.drop (qstr "negative:").length else text
    if expression.isEmpty then
      addError (field path key) "state.invalid-regex" "A rule matcher must contain a non-empty RE2 expression."
    else .rejectIf (!compilesAsRe2 p expression)
      (issue (field path key) "state.invalid-regex" "The matcher is not valid RE2 syntax.")
  | _ => pure ()

def validateRe2Matchers (object : QJsonObject) (keys : List String) (path : QString) : Reads Unit :=
  .forEach (fun _ key => validateRe2Expression p object (qstr key) path) 0 keys

/-- A string field, when the object has one, must satisfy a test. -/
def validateStringField (object : QJsonObject) (key path : QString) (test : QString → Bool)
    (code message : String) : Reads Unit :=
  match object.value key with
  | .string text => .rejectIf (!test text) (issue (field path key) code message)
  | _ => pure ()

def table (fields : List (String × NestedValueKind)) : NestedFieldTable := fields.map fun f => (qstr f.1, f.2)

def deviceFields : NestedFieldTable := table [
  ("sensitivity", .number), ("accel_profile", .shortString), ("rotation", .integer), ("kb_file", .shortString),
  ("kb_layout", .shortString), ("kb_variant", .shortString), ("kb_options", .shortString),
  ("kb_rules", .shortString), ("kb_model", .shortString), ("repeat_rate", .integer), ("repeat_delay", .integer),
  ("natural_scroll", .boolean), ("tap_button_map", .shortString), ("numlock_by_default", .boolean),
  ("resolve_binds_by_sym", .boolean), ("disable_while_typing", .boolean), ("clickfinger_behavior", .boolean),
  ("middle_button_emulation", .boolean), ("tap_to_click", .boolean), ("tap_and_drag", .boolean),
  ("drag_lock", .integer), ("left_handed", .boolean), ("scroll_method", .shortString),
  ("scroll_button", .integer), ("scroll_button_lock", .boolean), ("scroll_factor", .number),
  ("transform", .integer), ("region_position", .vector2), ("absolute_region_position", .boolean),
  ("region_size", .vector2), ("relative_input", .boolean), ("active_area_position", .vector2),
  ("active_area_size", .vector2), ("flip_x", .boolean), ("flip_y", .boolean), ("drag_3fg", .integer),
  ("keybinds", .boolean), ("share_states", .integer), ("release_pressed_on_close", .boolean)]

def workspaceFields : NestedFieldTable := table [
  ("gaps_in", .cssGap), ("gaps_out", .cssGap), ("float_gaps", .cssGap), ("border_size", .integer),
  ("no_border", .boolean), ("no_rounding", .boolean), ("decorate", .boolean), ("no_shadow", .boolean),
  ("default_name", .shortString), ("animation", .shortString), ("layout_opts", .layoutOptions)]

def windowMatchFields : NestedFieldTable := table [
  ("class", .regexString), ("title", .regexString), ("initial_class", .regexString),
  ("initial_title", .regexString), ("tag", .nonEmptyString), ("xwayland", .boolean), ("float", .boolean),
  ("fullscreen", .boolean), ("pin", .boolean), ("focus", .boolean), ("group", .boolean), ("modal", .boolean),
  ("fullscreen_state_internal", .integer), ("fullscreen_state_client", .integer),
  ("workspace", .nonEmptyString), ("content", .regexString), ("xdg_tag", .regexString),
  ("namespace", .regexString)]

def windowEffectFields : NestedFieldTable := table [
  ("float", .boolean), ("tile", .boolean), ("fullscreen", .boolean), ("maximize", .boolean),
  ("center", .boolean), ("pseudo", .boolean), ("no_initial_focus", .boolean), ("pin", .boolean),
  ("fullscreen_state", .windowFullscreenState), ("move", .expressionVector2), ("size", .expressionVector2),
  ("monitor", .object), ("workspace", .object), ("suppress_event", .suppressEvents),
  ("content", .shortString), ("no_close_for", .integer), ("scrolling_width", .number), ("rounding", .integer),
  ("border_size", .integer), ("rounding_power", .number), ("scroll_mouse", .number),
  ("scroll_touchpad", .number), ("animation", .shortString), ("idle_inhibit", .shortString),
  ("opacity", .windowOpacity), ("tag", .shortString), ("max_size", .expressionVector2),
  ("min_size", .expressionVector2), ("border_color", .gradient), ("persistent_size", .boolean),
  ("allows_input", .boolean), ("dim_around", .boolean), ("decorate", .boolean),
  ("focus_on_activate", .boolean), ("keep_aspect_ratio", .boolean), ("nearest_neighbor", .boolean),
  ("no_anim", .boolean), ("no_blur", .boolean), ("no_dim", .boolean), ("no_focus", .boolean),
  ("no_follow_mouse", .boolean), ("no_max_size", .boolean), ("no_shadow", .boolean),
  ("no_shortcuts_inhibit", .boolean), ("opaque", .boolean), ("force_rgbx", .boolean),
  ("sync_fullscreen", .boolean), ("immediate", .boolean), ("xray", .boolean), ("render_unfocused", .boolean),
  ("no_screen_share", .boolean), ("no_vrr", .boolean), ("no_auto_hdr", .boolean), ("stay_focused", .boolean),
  ("confine_pointer", .boolean), ("tonemap", .shortString)]

def layerMatchFields : NestedFieldTable := table [("namespace", .regexString)]

def layerEffectFields : NestedFieldTable := table [
  ("no_anim", .boolean), ("blur", .boolean), ("blur_popups", .boolean), ("ignore_alpha", .number),
  ("dim_around", .boolean), ("xray", .boolean), ("animation", .shortString), ("order", .integer),
  ("above_lock", .integer), ("no_screen_share", .boolean)]

end HyprShelld.Hyprland
