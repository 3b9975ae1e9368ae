import HyprShelld.Desired.Nested

/-! Selectors, specifications and styles, each a fixed grammar, and the checks of nested
maps that use them. -/
namespace HyprShelld.Hyprland

variable (p : Platform)

section Grammars
open Pattern

def letters : List (Char × Char) := [('A', 'Z'), ('a', 'z')]
def alphanumerics : List (Char × Char) := [('A', 'Z'), ('a', 'z'), ('0', '9')]
def identifierUnits : List (Char × Char) := alphanumerics ++ [('_', '_'), ('.', '.'), ('-', '-')]

/-- `^[A-Za-z][A-Za-z0-9_.-]{0,127}$` -/
def outputName : Pattern := .sequence (charset letters 1 (some 1)) (charset identifierUnits 0 (some 127))

/-- `[A-Za-z0-9_][A-Za-z0-9_.-]{0,127}` -/
def workspaceName : Pattern :=
  .sequence (charset (alphanumerics ++ [('_', '_')]) 1 (some 1)) (charset identifierUnits 0 (some 127))

/-- `[1-9][0-9]{0,n}` -/
def positive (n : Nat) : Pattern :=
  .sequence (charset [('1', '9')] 1 (some 1)) (charset [('0', '9')] 0 (some n))

/-- `(?: (?:top|bottom|left|right))?` -/
def sideSuffix : Pattern := optional (sequenceOf [text " ", anyOf [text "top", text "bottom", text "left", text "right"]])

/-- `(?: (?:0|[1-9][0-9]?|100)%)?` -/
def percentSuffix : Pattern :=
  optional (sequenceOf [text " ", anyOf [text "0", positive 1, text "100"], text "%"])

/-- `slide(?: (?:top|bottom|left|right))?|gnome|gnomed|popin(?: (?:0|[1-9][0-9]?|100)%)?` -/
def windowStyle : Pattern :=
  anyOf [.sequence (text "slide") sideSuffix, text "gnome", text "gnomed", .sequence (text "popin") percentSuffix]

/-- `fade|(?:slide|slidevert|slidefade|slidefadevert)` with both suffixes. -/
def workspaceStyle : Pattern :=
  anyOf [text "fade", sequenceOf [anyOf [text "slide", text "slidevert", text "slidefade", text "slidefadevert"],
    sideSuffix, percentSuffix]]

/-- `|fade|slide(?: (?:top|bottom|left|right))?|popin(?: (?:0|[1-9][0-9]?|100)%)?` -/
def layerStyle : Pattern :=
  anyOf [.empty, text "fade", .sequence (text "slide") sideSuffix, .sequence (text "popin") percentSuffix]

/-- `^[+-]?[A-Za-z0-9][A-Za-z0-9._:-]{0,127}$` -/
def windowTag : Pattern := .sequence (optional (charset [('+', '+'), ('-', '-')] 1 (some 1))) stableId

/-- `[1-9a-f][0-9a-f]{0,15}` -/
def lowerHexNumber : Pattern :=
  .sequence (charset [('1', '9'), ('a', 'f')] 1 (some 1)) (charset [('0', '9'), ('a', 'f')] 0 (some 15))

/-- `^(?:name:W|special(?::W)?)$` -/
def namedWorkspace : Pattern :=
  anyOf [.sequence (text "name:") workspaceName,
    .sequence (text "special") (optional (.sequence (text ":") workspaceName))]

/-- `^(?:0|[1-9][0-9]{0,9}|[+-][1-9][0-9]{0,9})$` -/
def monitorNumber : Pattern :=
  anyOf [text "0", positive 9, .sequence (charset [('+', '+'), ('-', '-')] 1 (some 1)) (positive 9)]

/-- `[1-9][0-9]{0,4}x[1-9][0-9]{0,4}(?:@(?:[1-9][0-9]{0,3}(?:\.[0-9]{1,3})?|0\.[0-9]{0,2}[1-9]))?` -/
def explicitMode : Pattern :=
  sequenceOf [positive 4, text "x", positive 4, optional (.sequence (text "@") (anyOf [
    .sequence (positive 3) (optional (.sequence (text ".") (charset [('0', '9')] 1 (some 3)))),
    sequenceOf [text "0.", charset [('0', '9')] 0 (some 2), charset [('1', '9')] 1 (some 1)]]))]

/-- `(?:0|[+-]?(?:[1-9][0-9]{0,5}|1000000))` -/
def coordinate : Pattern :=
  anyOf [text "0", .sequence (optional (charset [('+', '+'), ('-', '-')] 1 (some 1)))
    (anyOf [positive 5, text "1000000"])]

def explicitPosition : Pattern := sequenceOf [coordinate, text "x", coordinate]

/-- `^[A-Za-z_][A-Za-z0-9_]*$` -/
def environmentName : Pattern :=
  .sequence (charset (letters ++ [('_', '_')]) 1 (some 1)) (charset (alphanumerics ++ [('_', '_')]) 0 none)

/-- `^[0-9a-f]{64}$` -/
def digestExpression : Pattern := charset [('0', '9'), ('a', 'f')] 64 (some 64)

/-- `[^:\x{0000}-\x{0020}\x{007f}]{1,128}` -/
def globalNamePart : Pattern := .many (fun c => 0x20 < c && c ≠ 0x7f && c ≠ 0x3a) 1 (some 128)

end Grammars

def isWindowAnimationStyle (style : QString) : Bool := hasMatch (.either .empty windowStyle) style
def isWorkspaceAnimationStyle (style : QString) : Bool := hasMatch (.either .empty workspaceStyle) style
def isLayerAnimationStyle (style : QString) : Bool := hasMatch layerStyle style

def relativeMonitors : List QString :=
  [qstr "current", qstr "left", qstr "right", qstr "up", qstr "down"]

/-- A description after its marker: trimmed, not empty and without control characters. -/
def isDescription (description : QString) : Bool :=
  !description.isEmpty && description.length ≤ 256 && description = trimmed description &&
    !hasDisallowedCharacter p description false

def validateStaticMonitorSelector (selector path : QString) : Reads Unit :=
  .rejectIf (!(hasMatch outputName selector && !relativeMonitors.contains selector) &&
      !(startsWith selector (qstr "desc:") && isDescription p (selector.drop 5)))
    (issue path "state.invalid-static-monitor-selector"
      "A static monitor selector must be an exact output token or a nonempty canonical description selector.")

/-- A decimal of at most ten digits that a signed 32-bit integer holds. -/
def isInt32Decimal (text : QString) : Bool :=
  hasMatch (positive 9) text && (toLongLong text).any fun n => n ≤ maximumInt32

def validateWorkspaceRuleSelector (selector recordId path : QString) : Reads Unit :=
  if selector = sharedSpacingWorkspaceRuleSelector then
    .rejectIf (recordId ≠ sharedSpacingWorkspaceRuleId)
      (issue path "state.reserved-workspace-selector"
        "The maximized-workspace selector is reserved for HyprShelld.")
  else
    .rejectIf (!isInt32Decimal selector && !hasMatch namedWorkspace selector)
      (issue path "state.invalid-workspace-selector"
        "The workspace rule selector is outside the pinned safe v1 subset.")

def isPinnedWorkspaceName (name : QString) : Bool := hasMatch workspaceName name

def validateWorkspaceSpec (specification path : QString) (requireExisting : Bool) : Reads Unit :=
  let relative := !requireExisting &&
    [qstr "previous", qstr "previous_per_monitor", qstr "next", qstr "empty"].contains specification
  let named (marker : String) := startsWith specification (qstr marker) &&
    isPinnedWorkspaceName (specification.drop (qstr marker).length)
  .rejectIf (!relative && specification ≠ qstr "special" && !named "name:" && !named "special:" &&
      !isInt32Decimal specification)
    (issue path "state.invalid-workspace-spec"
      "The action workspace specification is outside the safe pinned subset.")

def validateMonitorSpec (specification path : QString) : Reads Unit :=
  let numeric := hasMatch monitorNumber specification &&
    (toLongLong specification).any fun n => -maximumInt32 ≤ n && n ≤ maximumInt32
  .rejectIf (!relativeMonitors.contains specification && !numeric && !hasMatch outputName specification &&
      !(startsWith specification (qstr "desc:") && isDescription p (specification.drop 5)))
    (issue path "state.invalid-monitor-spec"
      "The action monitor specification is outside the canonical pinned subset.")

def validateWindowSelector (selector path : QString) : Reads Unit :=
  if [qstr "active", qstr "floating", qstr "tiled"].contains selector then pure ()
  else
    match [qstr "class:", qstr "initialclass:", qstr "title:", qstr "initialtitle:", qstr "tag:"].find?
        (startsWith selector) with
    | some marker =>
      let expression := selector.drop marker.length
      .rejectIf (expression.isEmpty || !compilesAsRe2 p expression)
        (issue path "state.invalid-window-selector"
          "The action window selector contains invalid or empty RE2 syntax.")
    | none =>
      let pid := hasMatch (.sequence (.text "pid:") (positive 9)) selector &&
        (toLongLong (selector.drop 4)).any fun n => n ≤ maximumInt32
      .rejectIf (!hasMatch (.sequence (.text "stableid:") lowerHexNumber) selector &&
          !hasMatch (.sequence (.text "address:0x") lowerHexNumber) selector && !pid)
        (issue path "state.invalid-window-selector"
          "The action window selector is outside the pinned ViewQuery grammar.")

def validateDeviceOverrides (object : QJsonObject) (path : QString) : Reads Unit := do
  validateNumericField object path "sensitivity" (-1) 1
  validateNumericField object path "rotation" 0 359
  validateNumericField object path "repeat_rate" 0 200
  validateNumericField object path "repeat_delay" 0 2000
  validateNumericField object path "drag_lock" 0 2
  validateNumericField object path "scroll_button" 0 300
  validateNumericField object path "scroll_factor" 0 100
  validateNumericField object path "drag_3fg" 0 2
  validateNumericField object path "share_states" 0 2
  validateNumericField object path "transform" (-1) 7
  validateChoiceField object path "accel_profile" ["", "adaptive", "flat"]
  validateChoiceField object path "tap_button_map" ["", "lrm", "lmr"]
  validateChoiceField object path "scroll_method" ["", "2fg", "edge", "on_button_down", "no_scroll"]

def validateAnimation (object : QJsonObject) (path : QString) (test : QString → Bool) (message : String) :
    Reads Unit :=
  validateStringField object (qstr "animation") path test "state.invalid-animation-style" message

def validateWorkspaceOverrides (object : QJsonObject) (path : QString) : Reads Unit :=
  validateAnimation object path isWorkspaceAnimationStyle "The workspace rule animation style is invalid."

def validateTarget (object : QJsonObject) (path : QString) (key : String) (monitor : Bool) : Reads Unit :=
  match object.value (qstr key) with
  | .object targetObject =>
    let targetPath := field path (qstr key)
    let target := QJsonObject.value targetObject (qstr "target")
    if targetObject.length ≠ 2 || !target.isString ||
        !(QJsonObject.value targetObject (qstr "silent")).isBool then
      addError targetPath "state.nested-value-type" "A target effect requires exact target and silent fields."
    else do
      .forEach (fun _ name => .rejectIf (name ≠ qstr "target" && name ≠ qstr "silent")
        (issue (field targetPath name) "state.unknown-field" "The target effect field is not supported."))
        0 (QJsonObject.keys targetObject)
      if target.toString = qstr "unset" then pure ()
      else if monitor then validateMonitorSpec p target.toString (field targetPath (qstr "target"))
      else if target.toString.isEmpty then
        addError (field targetPath (qstr "target")) "state.invalid-workspace-spec"
          "A workspace target cannot be empty."
      else validateWorkspaceSpec target.toString (field targetPath (qstr "target")) false
  | _ => pure ()

def validateWindowEffects (object : QJsonObject) (path : QString) : Reads Unit := do
  validateNumericField object path "rounding" 0 20
  validateNumericField object path "rounding_power" 1 10
  validateNumericField object path "scroll_mouse" (dyadic 5764607523034235 59) 10
  validateNumericField object path "scroll_touchpad" (dyadic 5764607523034235 59) 10
  validateNumericField object path "scrolling_width" 0 1
  validateNumericField object path "no_close_for" 0 maximumInt32
  validateChoiceField object path "content" ["none", "photo", "video", "game"]
  validateChoiceField object path "idle_inhibit" ["none", "always", "focus", "fullscreen"]
  validateChoiceField object path "tonemap" ["on", "off", "clamp", "limited"]
  validateAnimation object path isWindowAnimationStyle "The window rule animation style is invalid."
  validateStringField object (qstr "tag") path (hasMatch windowTag) "state.invalid-window-tag"
    "A window rule tag requires a nonempty canonical base name."
  validateTarget p object path "monitor" true
  validateTarget p object path "workspace" false

def validateWindowMatch (object : QJsonObject) (path : QString) : Reads Unit := do
  validateNumericField object path "fullscreen_state_internal" 0 2
  validateNumericField object path "fullscreen_state_client" 0 2
  validateRe2Matchers p object
    ["class", "title", "initial_class", "initial_title", "content", "xdg_tag", "namespace"] path
  match object.value (qstr "workspace") with
  | .string selector => validateWorkspaceRuleSelector selector [] (field path (qstr "workspace"))
  | _ => pure ()

def validateLayerEffects (object : QJsonObject) (path : QString) : Reads Unit := do
  validateNumericField object path "ignore_alpha" 0 1
  validateNumericField object path "above_lock" 0 2
  validateAnimation object path isLayerAnimationStyle "The layer rule animation style is invalid."

def validateLayerMatch (object : QJsonObject) (path : QString) : Reads Unit :=
  validateRe2Expression p object (qstr "namespace") path

end HyprShelld.Hyprland
