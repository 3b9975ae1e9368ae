import HyprShelld.Component.Contract
import HyprShelld.Desired.Parse

/-! The first desired state, and what must hold of a state before it may be activated. -/
namespace HyprShelld.Hyprland
variable (p : Platform)

section Safety
variable (state : DesiredState) (catalog : Catalog)

/-- The override of an option, else its default. -/
def effectiveValue (id : QString) : QJsonValue :=
  match state.overrides.lookup id with
  | some v => v
  | none => ((findOption catalog id).map (·.defaultValue)).getD .null

def validateManagedActivationSafety : ValidationErrors :=
  let enabled := (effectiveValue state catalog (qstr "hyprland.decoration.glow.enabled")).toBool
  let range := (effectiveValue state catalog (qstr "hyprland.decoration.glow.range")).toInteger 0
  if !enabled || decide (10 ≤ range) then []
  else [issue (qstr "$.overrides.hyprland.decoration.glow.range") "state.unsafe-glow-range"
    "Inner glow can be enabled only when its range is at least 10; disable glow or raise the range."]

end Safety

def sharedSpacingWorkspaceRule : WorkspaceRule where
  id := sharedSpacingWorkspaceRuleId
  selector := sharedSpacingWorkspaceRuleSelector
  enabled := true
  overrides := [(qstr "gaps_out", .array [.double (.finite 0), .double (.finite 0), .double (.finite 0), .double (.finite 0)])]

def defaultDesiredState (catalog : Catalog) (actionCatalog : ActionCatalog) : DesiredState where
  targetHyprland := catalog.hyprland.reviewedVersion.toString
  catalogDigest := catalogDigest p catalog
  actionCatalogDigest := actionCatalogDigest actionCatalog
  compatibility := .exact
  workspaceRules := [sharedSpacingWorkspaceRule]

end HyprShelld.Hyprland
