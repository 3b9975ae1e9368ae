import HyprShelld.Renderer.Payload

/-! What it takes to activate a change of the desired state. -/
namespace HyprShelld.Compositor
open Hyprland

def strongest (left right : ActivationRequirement) : ActivationRequirement :=
  if activationRank right ≤ activationRank left then left else right

def fromApplyMode : ApplyMode → ActivationRequirement
  | .session => .session
  | .restart => .restart
  | .reload => .reload

def activationRequirementName : ActivationRequirement → QString
  | .none => qstr "none"
  | .reload => qstr "reload"
  | .restart => qstr "restart"
  | .session => qstr "session"

section Delta
variable (p : Platform) (catalog : Catalog)

def includeSurface (result : ActivationRequirement) (id : String) : ActivationRequirement :=
  match catalog.complexSurfaces.find? (·.id = qstr id) with
  | some definition => strongest result (fromApplyMode definition.applyMode)
  | none => result

def includeOption (result : ActivationRequirement) (id : QString) : ActivationRequirement :=
  match findOption catalog id with
  | some option => strongest result (fromApplyMode option.applyMode)
  | none => result

def recordSurfaces (state : DesiredState) : List (String × Bool) :=
  [("monitors", state.monitors.isEmpty), ("devices", state.devices.isEmpty), ("curves", state.curves.isEmpty),
    ("animations", state.animations.isEmpty), ("gestures", state.gestures.isEmpty),
    ("workspaceRules", state.workspaceRules.isEmpty), ("windowRules", state.windowRules.isEmpty),
    ("layerRules", state.layerRules.isEmpty), ("submaps", state.submaps.isEmpty), ("bindings", state.bindings.isEmpty),
    ("permissions", state.permissions.isEmpty), ("environment", state.environment.isEmpty)]

def activationRequirementForDesiredState (state : DesiredState) : ActivationRequirement :=
  ((recordSurfaces state).filter (!·.2)).foldl (fun result surface => includeSurface catalog result surface.1)
    ((state.overrides.map (·.1)).foldl (includeOption catalog) .reload)

/-- The kind of every curve by its name. -/
def curveTypes (curves : List AnimationCurve) : QMap Nat :=
  .ofList (curves.map fun curve => (curve.name, match curve.parameters with
    | .bezier _ => 0
    | .spring _ => 1))

def curveStructureRequiresRestart (before after : List AnimationCurve) : Bool := curveTypes before ≠ curveTypes after

/-- The surfaces, in the order of the source, and whether each is as it was. -/
def surfaceDeltas (before after : DesiredState) : List (String × Bool) :=
  [("monitors", before.monitors = after.monitors), ("devices", before.devices = after.devices),
    ("curves", before.curves = after.curves), ("animations", before.animations = after.animations),
    ("gestures", before.gestures = after.gestures), ("workspaceRules", before.workspaceRules = after.workspaceRules),
    ("windowRules", before.windowRules = after.windowRules), ("layerRules", before.layerRules = after.layerRules),
    ("submaps", before.submaps = after.submaps), ("bindings", before.bindings = after.bindings),
    ("permissions", before.permissions = after.permissions), ("environment", before.environment = after.environment)]

def changedOptions (before after : DesiredState) : List QString :=
  ((before.overrides.map (·.1)) ++ ((after.overrides.map (·.1)).filter fun id => !(before.overrides.map (·.1)).contains id)).filter
    fun id => canonicalJson p (QJsonObject.value before.overrides id) ≠ canonicalJson p (QJsonObject.value after.overrides id)

/-- Taking the strongest of several requirements does not depend on their order. -/
def activationRequirementForDelta (before : Option DesiredState) (after : DesiredState) : ActivationRequirement :=
  match before with
  | none =>
    let result := activationRequirementForDesiredState catalog after
    if after.curves.isEmpty then result else strongest result .restart
  | some before =>
    let options := (changedOptions p before after).foldl (includeOption catalog) .reload
    let structured := if curveStructureRequiresRestart before.curves after.curves then strongest options .restart else options
    ((surfaceDeltas before after).filter (!·.2)).foldl (fun result surface => includeSurface catalog result surface.1) structured

end Delta
end HyprShelld.Compositor
