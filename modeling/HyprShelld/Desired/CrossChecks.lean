import HyprShelld.Hyprland.DefaultKeybindings
import HyprShelld.Desired.Bindings
import HyprShelld.Support.OrderedMap

/-! The checks between the records of a desired state. -/
namespace HyprShelld.Hyprland

variable (p : Platform)

/-- Mirrors by selector. -/
def monitorMirrors (monitors : List MonitorConfiguration) : QMap QString :=
  .ofList ((monitors.filter (!·.selector.isEmpty)).map fun monitor => (monitor.selector, monitor.mirror))

/-- Follow mirrors to the end of a chain: what was visited, the last target, and whether the
chain closed. Every round visits another key, so the number of keys bounds the rounds. -/
def followMirrors (mirrors : QMap QString) : Nat → List QString → QString → List QString × QString × Bool
  | 0, visited, target => (visited, target, false)
  | rounds + 1, visited, target =>
    if mirrors.contains target && !(mirrors.value target).isEmpty then
      if visited.contains target then (visited, target, true)
      else followMirrors mirrors rounds (target :: visited) (mirrors.value target)
    else (visited, target, false)

def sameMembers (a b : List QString) : Bool := a.all b.contains && b.all a.contains

def rejectMirrorCycles (mirrors : QMap QString) :
    Nat → List (List QString) → List MonitorConfiguration → Reads Unit
  | _, _, [] => pure ()
  | index, reported, monitor :: rest =>
    if monitor.mirror.isEmpty then rejectMirrorCycles mirrors (index + 1) reported rest
    else do
      let path := field (element (qstr "$.monitors") index) (qstr "mirror")
      let (visited, target, closed) := followMirrors mirrors (mirrors.length + 1) [monitor.selector] monitor.mirror
      let fresh := closed && !reported.any (sameMembers visited)
      .rejectIf fresh (issue path "state.monitor-mirror-cycle"
        "Managed monitor mirror targets cannot self-reference or form a cycle.")
      .rejectIf (target = monitor.selector)
        (issue path "state.monitor-mirror-cycle" "A monitor cannot mirror itself.")
      rejectMirrorCycles mirrors (index + 1) (if fresh then visited :: reported else reported) rest

def rejectDuplicatePermissions (permissions : List PermissionConfiguration) : Reads Unit :=
  .rejectRepeated (fun index => issue (element (qstr "$.permissions") index) "state.duplicate-natural-identity"
      "Permission binary/type pairs must be unique because Hyprland uses first-match ordering.")
    0 [] (permissions.map fun permission => some (permission.binary ++ 0 :: permission.type))

def gestureModifierOrder : List QString :=
  [qstr "shift", qstr "caps", qstr "ctrl", qstr "alt", qstr "mod2", qstr "mod3", qstr "super", qstr "mod5"]

def gestureModifierIdentity (modifiers : List QString) : QString :=
  join (gestureModifierOrder.filter modifiers.contains) (qstr "+")

def gestureAxis (direction : QString) : QString :=
  if memberOf ["up", "down", "vertical"] direction then qstr "vertical"
  else if memberOf ["left", "right", "horizontal"] direction then qstr "horizontal"
  else if memberOf ["pinch", "pinchIn", "pinchOut"] direction then qstr "pinch"
  else qstr "swipe"

def sameGestureTuple (gesture candidate : GestureConfiguration) : Bool :=
  candidate.fingers = gesture.fingers && candidate.direction = gesture.direction &&
    gestureModifierIdentity candidate.modifiers = gestureModifierIdentity gesture.modifiers &&
    candidate.scale = gesture.scale && candidate.disableInhibit = gesture.disableInhibit

/-- An earlier gesture that takes every event of a later one. -/
def shadowsGesture (gesture prior : GestureConfiguration) : Bool :=
  let axis := gestureAxis gesture.direction
  prior.fingers = gesture.fingers &&
    gestureModifierIdentity prior.modifiers = gestureModifierIdentity gesture.modifiers &&
    (prior.direction = axis || prior.direction = gesture.direction ||
      ((axis = qstr "vertical" || axis = qstr "horizontal") && prior.direction = qstr "swipe"))

/-- The gestures in order, with those still active. -/
def checkGestures : Nat → List GestureConfiguration → List GestureConfiguration → Reads Unit
  | _, _, [] => pure ()
  | index, active, gesture :: rest => do
    let path := element (qstr "$.gestures") index
    if gesture.action.id = qstr "unset" then
      .rejectIf (!active.any (sameGestureTuple gesture)) (issue path "state.unmatched-gesture-unset"
        "A gesture unset must remove an exact preceding gesture tuple.")
      checkGestures (index + 1) (active.eraseP (sameGestureTuple gesture)) rest
    else
      let shadowed := active.any (shadowsGesture gesture)
      .rejectIf shadowed (issue path "state.shadowed-gesture"
        "An earlier gesture shadows this tuple in Hyprland's ordered gesture registry.")
      checkGestures (index + 1) (if shadowed then active else active ++ [gesture]) rest

def checkCurves (curves : List AnimationCurve) (animations : List AnimationConfiguration) : Reads Unit := do
  .rejectRepeated (fun index => issue (field (element (qstr "$.curves") index) (qstr "name"))
    "state.duplicate-name" "Curve names must be unique.") 0 [] (curves.map fun curve => some curve.name)
  .forEach (fun index animation => .rejectIf (!memberOf ["default", "linear"] animation.curve &&
      !(curves.map (·.name)).contains animation.curve)
    (issue (field (element (qstr "$.animations") index) (qstr "curve")) "state.unknown-curve"
      "The animation references an unknown curve.")) 0 animations

def submapReset (submaps : List SubmapConfiguration) : QMap QString :=
  .ofList (submaps.map fun submap => (submap.name, submap.reset))

def submapEnabled (submaps : List SubmapConfiguration) : QMap Bool :=
  .ofList (submaps.map fun submap => (submap.name, submap.enabled))

/-- Reserved and repeated names, reported record by record. -/
def rejectSubmapNames : Nat → List QString → List SubmapConfiguration → Reads Unit
  | _, _, [] => pure ()
  | index, seen, submap :: rest => do
    let path := field (element (qstr "$.submaps") index) (qstr "name")
    .rejectIf (submap.name = qstr "reset" || submap.name.isEmpty)
      (issue path "state.invalid-submap-name" "reset and the empty default map are reserved.")
    .rejectIf (seen.contains submap.name) (issue path "state.duplicate-name" "Submap names must be unique.")
    rejectSubmapNames (index + 1) (submap.name :: seen) rest

/-- A reset target other than the reserved ones. -/
def isSubmapTarget (name : QString) : Bool := !name.isEmpty && name ≠ qstr "reset"

/-- Whether following reset targets comes back to a visited submap. Every round visits another name, so the walk ends within
the rounds it is given, and more of them change nothing (`submapCycle_rounds`). -/
def submapCycle (reset : QMap QString) : Nat → List QString → QString → Bool
  | 0, _, _ => false
  | rounds + 1, visited, target =>
    if isSubmapTarget target && reset.contains target then
      if visited.contains target then true
      else submapCycle reset rounds (target :: visited) (reset.value target)
    else false

def checkSubmapResets (reset : QMap QString) (enabled : QMap Bool) : Reads Unit :=
  .forEach (fun _ (name, target) => do
    .rejectIf (isSubmapTarget target && !reset.contains target) ⟨qstr "$.submaps",
      qstr "state.unknown-submap-reset", qstr "Submap " ++ name ++ qstr " resets to an unknown target."⟩
    .rejectIf (enabled.value name && isSubmapTarget target && reset.contains target && !enabled.value target)
      (issue (qstr "$.submaps") "state.disabled-submap-target"
        "An enabled submap cannot reset to a disabled submap.")
    .rejectIf (submapCycle reset (reset.length + 1) [name] target)
      (issue (qstr "$.submaps") "state.submap-cycle" "Submap reset targets form a cycle.")) 0 reset

def enabledBindingsBySubmap (bindings : List BindingConfiguration) (submap : QString) : Nat :=
  bindings.countP fun record => record.enabled && !record.submap.isEmpty && record.submap = submap

def rejectEmptySubmaps (submaps : List SubmapConfiguration) (bindings : List BindingConfiguration) : Reads Unit :=
  .forEach (fun index submap => .rejectIf (submap.enabled && !submap.name.isEmpty &&
      enabledBindingsBySubmap bindings submap.name = 0)
    (issue (field (element (qstr "$.submaps") index) (qstr "name")) "state.empty-submap"
      "Every declared submap must contain at least one enabled binding.")) 0 submaps

def includesShippedDefaultBindings (catalog : Catalog) (actionCatalog : ActionCatalog) : Bool :=
  catalog.contractVersion = currentCatalogContractVersion && catalog.digest = reviewedCatalogDigest &&
    actionCatalog.contractVersion = currentActionCatalogContractVersion &&
    actionCatalog.digest = reviewedActionCatalogDigest

/-- The ids of the shipped defaults that records replace. -/
def replacedDefaultBindings (bindings : List BindingConfiguration) : List QString :=
  (bindings.filterMap (matchedShippedDefaultKeybinding p)).map (·.id)

def rejectRepeatedReplacements (bindings : List BindingConfiguration) : Reads Unit :=
  .rejectRepeated (fun index => issue (element (qstr "$.bindings") index)
      "state.duplicate-default-binding-override"
      "Only one user-layer record may replace or disable a shipped default shortcut.")
    0 [] (bindings.map fun record => (matchedShippedDefaultKeybinding p record).map (·.id))

def scopedChord (record : BindingConfiguration) : QString :=
  record.submap ++ unit '|' :: record.normalizedChord

/-- The chords the shipped defaults keep. -/
def shippedChords (bindings : List BindingConfiguration) : List QString :=
  ((shippedDefaultKeybindings p).filter fun record =>
    record.enabled && !(replacedDefaultBindings p bindings).contains record.id).map scopedChord

section Bindings
variable (submaps : List SubmapConfiguration) (bindings : List BindingConfiguration)

def checkSubmapAction (record : BindingConfiguration) (path : QString) : Reads Unit :=
  let reset := submapReset submaps
  match QJsonObject.value record.arguments (qstr "name") with
  | .string target =>
    let namePath := field (field path (qstr "arguments")) (qstr "name")
    if record.actionType ≠ .dispatcher ∨ record.action ≠ qstr "submap" then pure ()
    else if target ≠ qstr "reset" && !reset.contains target then
      addError namePath "state.unknown-submap" "The submap action references an unknown target."
    else .rejectIf (record.enabled && target ≠ qstr "reset" &&
        (!(submapEnabled submaps).value target || enabledBindingsBySubmap bindings target = 0))
      (issue namePath "state.empty-submap" "The submap action target has no enabled binding.")
  | _ => pure ()

/-- The records in order, with the chords taken so far. -/
def checkBindings : Nat → List QString → List BindingConfiguration → Reads Unit
  | _, _, [] => pure ()
  | index, chords, record :: rest => do
    let path := element (qstr "$.bindings") index
    .rejectIf (!record.submap.isEmpty && !(submapReset submaps).contains record.submap)
      (issue (field path (qstr "submap")) "state.unknown-submap" "The binding references an unknown submap.")
    .rejectIf (record.enabled && !record.submap.isEmpty && (submapReset submaps).contains record.submap &&
        !(submapEnabled submaps).value record.submap)
      (issue (field path (qstr "submap")) "state.disabled-submap-target"
        "An enabled binding cannot be scoped to a disabled submap.")
    checkSubmapAction submaps bindings record path
    .rejectIf (record.key = qstr "catchall" && record.submap.isEmpty)
      (issue (field path (qstr "key")) "state.catchall-outside-submap"
        "Catchall bindings are only valid in a submap.")
    .rejectIf (!record.normalizedChord.isEmpty && chords.contains (scopedChord record))
      (issue path "state.duplicate-chord" "Binding chords must be unique within a submap.")
    checkBindings (index + 1) (scopedChord record :: chords) rest

end Bindings

/-- All checks between records, in the order the source makes them. -/
def crossCheck (catalog : Catalog) (actionCatalog : ActionCatalog) (state : DesiredState) : Reads Unit := do
  rejectDuplicateIdentities (state.monitors.map (·.selector)) "monitors" "selector"
  rejectMirrorCycles (monitorMirrors state.monitors) 0 [] state.monitors
  rejectDuplicateIdentities (state.animations.map (·.name)) "animations" "name"
  rejectDuplicateIdentities (state.workspaceRules.map (·.selector)) "workspaceRules" "selector"
  rejectDuplicateIdentities (state.windowRules.map (·.name)) "windowRules" "name"
  rejectDuplicateIdentities (state.layerRules.map (·.name)) "layerRules" "name"
  rejectDuplicateIdentities (state.environment.map (·.name)) "environment" "name"
  rejectDuplicatePermissions state.permissions
  checkGestures 0 [] state.gestures
  checkCurves state.curves state.animations
  rejectSubmapNames 0 [] state.submaps
  checkSubmapResets (submapReset state.submaps) (submapEnabled state.submaps)
  rejectEmptySubmaps state.submaps state.bindings
  let shipped := includesShippedDefaultBindings catalog actionCatalog
  (if shipped then rejectRepeatedReplacements p state.bindings else pure ())
  checkBindings state.submaps state.bindings 0 (if shipped then shippedChords p state.bindings else [])
    state.bindings

end HyprShelld.Hyprland
