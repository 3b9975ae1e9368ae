import HyprShelld.Hyprland.ActionCatalog

/-! The desired state: records in the order the user gave them, scalar overrides by option,
and the authorities it was written against. -/
namespace HyprShelld.Hyprland

def currentDesiredStateFormatVersion : Nat := 1
def maximumDesiredStateBytes : Nat := 4 * 1024 * 1024
def maximumDesiredStateDepth : Nat := 64
def maximumOverrides : Nat := 353
def maximumMonitors : Nat := 64
def maximumDevices : Nat := 256
def maximumAnimations : Nat := 256
def maximumCurves : Nat := 256
def maximumGestures : Nat := 64
def maximumUserWorkspaceRules : Nat := 1024
def maximumWorkspaceRules : Nat := maximumUserWorkspaceRules + 1
def sharedSpacingWorkspaceRuleId : QString := qstr "hyprshelld.internal.shared-spacing.maximized"
def sharedSpacingWorkspaceRuleSelector : QString := qstr "f[1]"
def maximumWindowRules : Nat := 4096
def maximumLayerRules : Nat := 4096
def maximumBindings : Nat := 2048
def maximumSubmaps : Nat := 256
def maximumPermissions : Nat := 256
def maximumEnvironmentVariables : Nat := 512
def maximumStateStringLength : Nat := 4096
def maximumBindingModifiers : Nat := 8
def maximumBindingDevices : Nat := 64
def maximumGenericMapEntries : Nat := 256
def maximumInt32 : Int := 2 ^ 31 - 1

/-- A double literal of the source that is not a short decimal. -/
def dyadic (m : Int) (e : Nat) : ℚ := m / 2 ^ e

inductive MonitorScale where
  | number (q : ℚ)
  | text (s : QString)
  deriving DecidableEq

structure MonitorConfiguration where
  id : QString := []
  selector : QString := []
  enabled : Bool := true
  mode : QString := []
  position : QString := []
  scale : MonitorScale := .number 1
  reserved : Int × Int × Int × Int := (0, 0, 0, 0)
  transform : Int := 0
  mirror : QString := []
  bitdepth : Int := 8
  colorManagement : QString := []
  sdrEotf : QString := []
  sdrBrightness : ℚ := 1
  sdrSaturation : ℚ := 1
  vrr : Int := 0
  icc : QString := []
  supportsWideColor : Int := 0
  supportsHdr : Int := 0
  sdrMinLuminance : ℚ := dyadic 3602879701896397 54
  sdrMaxLuminance : Int := 80
  minLuminance : ℚ := -1
  maxLuminance : Int := -1
  maxAvgLuminance : Int := -1
  deriving DecidableEq

structure DeviceConfiguration where
  id : QString := []
  selector : QString := []
  kind : QString := []
  enabled : Bool := true
  overrides : QJsonObject := []
  deriving DecidableEq

structure AnimationConfiguration where
  id : QString := []
  name : QString := []
  enabled : Bool := true
  speed : ℚ := 1
  curve : QString := []
  style : QString := []
  deriving DecidableEq

structure BezierCurveParameters where
  points : (ℚ × ℚ) × (ℚ × ℚ) := ((0, 0), (1, 1))
  deriving DecidableEq

structure SpringCurveParameters where
  stiffness : ℚ := 1
  dampening : ℚ := 1
  mass : ℚ := 1
  deriving DecidableEq

inductive AnimationCurveParameters where
  | bezier (parameters : BezierCurveParameters)
  | spring (parameters : SpringCurveParameters)
  deriving DecidableEq

structure AnimationCurve where
  id : QString := []
  name : QString := []
  parameters : AnimationCurveParameters := .bezier {}
  deriving DecidableEq

structure BindingDeviceFilter where
  inclusive : Bool := true
  list : List QString := []
  deriving DecidableEq

structure BindingOptions where
  repeating : Bool := false
  locked : Bool := false
  release : Bool := false
  nonConsuming : Bool := false
  autoConsuming : Bool := false
  transparent : Bool := false
  ignoreMods : Bool := false
  dontInhibit : Bool := false
  longPress : Bool := false
  submapUniversal : Bool := false
  click : Bool := false
  drag : Bool := false
  allowInputCapture : Bool := false
  device : Option BindingDeviceFilter := none
  deriving DecidableEq

inductive BindingActionType where
  | dispatcher | defaultApp | hyprShelld
  deriving DecidableEq

structure GestureAction where
  id : QString := []
  payload : QJsonObject := []
  deriving DecidableEq

structure GestureConfiguration where
  id : QString := []
  fingers : Int := 3
  direction : QString := []
  modifiers : List QString := []
  scale : ℚ := 1
  disableInhibit : Bool := false
  action : GestureAction := {}
  deriving DecidableEq

structure WorkspaceRule where
  id : QString := []
  selector : QString := []
  enabled : Bool := true
  monitor : QString := []
  persistent : Bool := false
  isDefault : Bool := false
  layout : QString := []
  overrides : QJsonObject := []
  deriving DecidableEq

structure WindowRule where
  id : QString := []
  name : QString := []
  enabled : Bool := true
  ruleMatch : QJsonObject := []
  effects : QJsonObject := []
  deriving DecidableEq

structure LayerRule where
  id : QString := []
  name : QString := []
  enabled : Bool := true
  ruleMatch : QJsonObject := []
  effects : QJsonObject := []
  deriving DecidableEq

structure BindingConfiguration where
  id : QString := []
  modifiers : List QString := []
  key : QString := []
  actionType : BindingActionType := .dispatcher
  action : QString := []
  arguments : QJsonObject := []
  description : QString := []
  enabled : Bool := true
  submap : QString := []
  options : BindingOptions := {}
  normalizedChord : QString := []
  deriving DecidableEq

structure SubmapConfiguration where
  id : QString := []
  name : QString := []
  reset : QString := []
  enabled : Bool := true
  deriving DecidableEq

structure PermissionConfiguration where
  id : QString := []
  binary : QString := []
  type : QString := []
  mode : QString := []
  deriving DecidableEq

inductive EnvironmentScope where
  | hyprland | uwsm
  deriving DecidableEq

structure EnvironmentConfiguration where
  id : QString := []
  name : QString := []
  value : QString := []
  scope : EnvironmentScope := .hyprland
  deriving DecidableEq

structure DesiredState where
  formatVersion : Nat := currentDesiredStateFormatVersion
  revision : UInt64 := 0
  targetHyprland : QString := []
  catalogDigest : QString := []
  actionCatalogDigest : QString := []
  overrides : QJsonObject := []
  monitors : List MonitorConfiguration := []
  devices : List DeviceConfiguration := []
  curves : List AnimationCurve := []
  animations : List AnimationConfiguration := []
  gestures : List GestureConfiguration := []
  workspaceRules : List WorkspaceRule := []
  windowRules : List WindowRule := []
  layerRules : List LayerRule := []
  submaps : List SubmapConfiguration := []
  bindings : List BindingConfiguration := []
  permissions : List PermissionConfiguration := []
  environment : List EnvironmentConfiguration := []
  compatibility : CompatibilityDecision := .exact
  readOnly : Bool := false
  opaqueFutureDocument : Option QJsonObject := none
  deriving DecidableEq

end HyprShelld.Hyprland
