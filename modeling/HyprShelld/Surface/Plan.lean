import HyprShelld.Component.Declarative
import HyprShelld.Support.Except
import HyprShelld.Support.OrderedMap

/-! Surface plans: the strict reader, and the artifact whose bytes it has read back. -/
namespace HyprShelld.Components

def maximumSurfacePlanBytes : Int := 4 * 1024 * 1024
def maximumSurfacePlanInstances : Nat := 512
def maximumSurfacePlanBarLayouts : Nat := 64
def defaultDeclarativeMaximumWidth : UInt32 := 240
def surfacePlanFormatVersion : Int := 2

structure SurfaceInstance where
  componentId : QString
  componentType : QString
  packageDigest : QString
  runtimeKind : QString
  factory : QString := []
  declarativeText : QString := []
  declarativeTooltip : QString := []
  declarativeMaximumWidth : UInt32 := 0
  settings : QJsonObject
  deriving DecidableEq

structure SurfaceBarLayout where
  outputMode : QString
  start : List QString := []
  center : List QString := []
  «end» : List QString := []
  deriving DecidableEq

structure SurfacePlan where
  catalogDigest : QString := []
  configurationRevision : UInt64 := 0
  instances : QMap SurfaceInstance := []
  barLayouts : QMap SurfaceBarLayout := []
  deriving DecidableEq

structure SurfacePlanArtifact where
  plan : SurfacePlan
  bytes : QByteArray
  digest : QString
  revision : UInt64
  deriving DecidableEq

def builtinKind : QString := qstr "builtin-v1"
def declarativeKind : QString := qstr "declarative-v1"

/-- `digestPattern` and `uuidV4Pattern` of the plan reader, which writes them out once more. -/
def surfacePlanDigest : Pattern := .charset [('0', '9'), ('a', 'f')] 64 (some 64)

def surfacePlanUuidV4 : Pattern :=
  let hex := [('0', '9'), ('a', 'f')]
  .sequenceOf [
    .charset hex 8 (some 8), .text "-", .charset hex 4 (some 4), .text "-4", .charset hex 3 (some 3), .text "-",
    .charset [('8', '9'), ('a', 'b')] 1 (some 1), .charset hex 3 (some 3), .text "-", .charset hex 12 (some 12)]

def layoutIdPattern (s : QString) : Bool := isKebabCase s

section Reader

/-- A reader that stops at its first error. -/
abbrev PlanReads (α : Type) := Except ValidationError α

def requireExactKeys (object : QJsonObject) (expected : List String) (path : QString) : PlanReads Unit :=
  require (hasExactKeys object (expected.map qstr))
    (issue path "surface-plan.closed-object" "The object contains missing or unsupported fields.")

/-- Canonical decimal text without a sign. -/
def parseUnsignedRevision (text : QString) : Option UInt64 :=
  if text = [] ∨ (1 < text.length ∧ text.head? = some (unit '0')) ∨ !text.all isDigit then none
  else (toULongLong text).map UInt64.ofNat

def parseInstanceIds (path : QString) : Nat → List QJsonValue → PlanReads (List QString)
  | _, [] => pure []
  | index, value :: rest => do
    require (value.isString && hasMatch surfacePlanUuidV4 value.toString)
      (issue (indexPath path index) "surface-plan.invalid-instance-id"
        "The instance ID must be a canonical lowercase UUIDv4.")
    let ids ← parseInstanceIds path (index + 1) rest
    pure (value.toString :: ids)

def parseStringArray (value : QJsonValue) (path : QString) : PlanReads (List QString) := do
  require value.isArray (issue path "surface-plan.array-required" "Expected an array of instance IDs.")
  require (value.toArray.length ≤ maximumSurfacePlanInstances)
    (issue path "surface-plan.instance-limit" "The region contains too many instances.")
  parseInstanceIds path 0 value.toArray

variable (number : NumberText) (unicode : UnicodeTables)

/-- The fields of an instance that its runtime decides. -/
structure RuntimeFields where
  factory : QString := []
  declarativeText : QString := []
  declarativeTooltip : QString := []
  declarativeMaximumWidth : UInt32 := 0

def isValidFactory (factory : QString) : Bool := factory.length ≤ 64 && isKebabCase factory

def parseBuiltinRuntime (runtime : QJsonObject) (componentId : QString) (settings : QJsonObject)
    (path runtimePath : QString) : PlanReads RuntimeFields := do
  requireExactKeys runtime ["kind", "factory"] runtimePath
  let factory := runtime.value (qstr "factory")
  require (factory.isString && isValidFactory factory.toString)
    (issue (childPath runtimePath (qstr "factory")) "surface-plan.invalid-factory"
      "The built-in factory key is invalid.")
  require (componentId = workspaceSwitcherId && factory.toString = workspaceSwitcherFactory &&
      isValidWorkspaceSwitcherSettings settings)
    (issue path "surface-plan.unsupported-factory-instance"
      "The built-in instance is not supported by this host.")
  pure { factory := factory.toString }

/-- The document a resolved runtime stands for. -/
def resolvedDocument (text tooltip : QString) (width : UInt32) : DeclarativeDocument where
  text := ⟨.literal, text⟩
  tooltip := if tooltip = [] then none else some tooltip
  maximumWidth := some width

def parseDeclarativeRuntime (runtime : QJsonObject) (settings : QJsonObject) (runtimePath : QString) :
    PlanReads RuntimeFields := do
  requireExactKeys runtime ["kind", "text", "tooltip", "maximumWidth"] runtimePath
  let text := runtime.value (qstr "text")
  let tooltip := runtime.value (qstr "tooltip")
  let maximumWidth := runtime.value (qstr "maximumWidth")
  let width := maximumWidth.toInteger (-1)
  require (text.isString && isValidDeclarativeResolvedText unicode text.toString && tooltip.isString &&
      tooltip.toString.length ≤ maximumDeclarativeTooltipLength && maximumWidth.isDouble &&
      maximumWidth.toDouble = .finite width && minimumDeclarativeMaximumWidth ≤ width &&
      width ≤ maximumDeclarativeMaximumWidth && settings = [])
    (issue runtimePath "surface-plan.invalid-declarative-runtime" "The resolved declarative runtime is invalid.")
  let document := resolvedDocument text.toString tooltip.toString (UInt32.ofNat width.toNat)
  require (parseDeclarativeDocument number unicode (serializeDeclarativeDocument number document) none).ok
    (issue runtimePath "surface-plan.invalid-declarative-runtime" "The resolved declarative text is invalid.")
  pure {
    declarativeText := text.toString
    declarativeTooltip := tooltip.toString
    declarativeMaximumWidth := UInt32.ofNat width.toNat }

def parseInstance (object : QJsonObject) (path : QString) : PlanReads SurfaceInstance := do
  requireExactKeys object ["componentId", "componentType", "packageDigest", "runtime", "settings"] path
  let componentId := object.value (qstr "componentId")
  let componentType := object.value (qstr "componentType")
  let packageDigest := object.value (qstr "packageDigest")
  let runtimeValue := object.value (qstr "runtime")
  let settings := object.value (qstr "settings")
  let runtimePath := childPath path (qstr "runtime")
  require (componentId.isString && isValidComponentId componentId.toString)
    (issue (childPath path (qstr "componentId")) "surface-plan.invalid-component-id" "The component ID is invalid.")
  require (componentType.isString && componentType.toString = qstr "bar-widget")
    (issue (childPath path (qstr "componentType")) "surface-plan.unsupported-component-type"
      "Only bar-widget instances are supported.")
  require (packageDigest.isString && hasMatch surfacePlanDigest packageDigest.toString)
    (issue (childPath path (qstr "packageDigest")) "surface-plan.invalid-package-digest"
      "The package digest must be lowercase SHA-256.")
  require runtimeValue.isObject
    (issue runtimePath "surface-plan.runtime-object-required" "The runtime must be an object.")
  let runtime := runtimeValue.toObject
  let kind := runtime.value (qstr "kind")
  require kind.isString
    (issue (childPath runtimePath (qstr "kind")) "surface-plan.unsupported-runtime"
      "The trusted runtime kind is invalid.")
  require (settings.isObject && settings.toObject.length ≤ 128)
    (issue (childPath path (qstr "settings")) "surface-plan.invalid-settings"
      "The instance settings object is invalid.")
  let fields ← (
    if kind.toString = builtinKind then
      parseBuiltinRuntime runtime componentId.toString settings.toObject path runtimePath
    else if kind.toString = declarativeKind then
      parseDeclarativeRuntime number unicode runtime settings.toObject runtimePath
    else .error (issue (childPath runtimePath (qstr "kind")) "surface-plan.unsupported-runtime"
      "Only trusted built-in and declarative runtimes are supported."))
  pure {
    componentId := componentId.toString
    componentType := componentType.toString
    packageDigest := packageDigest.toString
    runtimeKind := kind.toString
    factory := fields.factory
    declarativeText := fields.declarativeText
    declarativeTooltip := fields.declarativeTooltip
    declarativeMaximumWidth := fields.declarativeMaximumWidth
    settings := settings.toObject }

def parseBarLayout (object : QJsonObject) (path : QString) : PlanReads SurfaceBarLayout := do
  requireExactKeys object ["outputs", "regions"] path
  let outputsValue := object.value (qstr "outputs")
  let regionsValue := object.value (qstr "regions")
  require (outputsValue.isObject && regionsValue.isObject)
    (issue path "surface-plan.layout-object-required" "The output selector and regions must be objects.")
  let outputs := outputsValue.toObject
  let outputsPath := childPath path (qstr "outputs")
  requireExactKeys outputs ["mode"] outputsPath
  let outputMode := outputs.value (qstr "mode")
  require (outputMode.isString && outputMode.toString = qstr "all")
    (issue (childPath outputsPath (qstr "mode")) "surface-plan.unsupported-output-selector"
      "Only the all-output selector is supported.")
  let regions := regionsValue.toObject
  let regionsPath := childPath path (qstr "regions")
  requireExactKeys regions ["start", "center", "end"] regionsPath
  let start ← parseStringArray (regions.value (qstr "start")) (childPath regionsPath (qstr "start"))
  let center ← parseStringArray (regions.value (qstr "center")) (childPath regionsPath (qstr "center"))
  let «end» ← parseStringArray (regions.value (qstr "end")) (childPath regionsPath (qstr "end"))
  pure { outputMode := outputMode.toString, start, center, «end» }

def parseInstances : QJsonObject → PlanReads (List (QString × SurfaceInstance))
  | [] => pure []
  | (key, value) :: rest => do
    let path := qstr "$.instances." ++ key
    require (hasMatch surfacePlanUuidV4 key && value.isObject)
      (issue path "surface-plan.invalid-instance" "The instance key or value is invalid.")
    let one ← parseInstance number unicode value.toObject path
    let more ← parseInstances rest
    pure ((key, one) :: more)

def parseBarLayouts : QJsonObject → PlanReads (List (QString × SurfaceBarLayout))
  | [] => pure []
  | (key, value) :: rest => do
    let path := qstr "$.layouts.bars." ++ key
    require (layoutIdPattern key && value.isObject)
      (issue path "surface-plan.invalid-layout" "The bar layout key or value is invalid.")
    let one ← parseBarLayout value.toObject path
    let more ← parseBarLayouts rest
    pure ((key, one) :: more)

/-- The regions of a layout under their names, in reading order. -/
def SurfaceBarLayout.regions (layout : SurfaceBarLayout) : List (QString × List QString) :=
  [(qstr "start", layout.start), (qstr "center", layout.center), (qstr "end", layout.end)]

/-- Placements in reading order, each with its path. -/
def placements (barLayouts : QMap SurfaceBarLayout) : List (QString × QString) :=
  barLayouts.flatMap fun (layoutId, layout) => layout.regions.flatMap fun (regionName, instanceIds) =>
    instanceIds.zipIdx.map fun (instanceId, index) =>
      (indexPath (qstr "$.layouts.bars." ++ layoutId ++ qstr ".regions." ++ regionName) index, instanceId)

/-- Reports dangling and repeated placements; the result is what was placed. -/
def checkPlacements (instances : QMap SurfaceInstance) :
    List QString → List (QString × QString) → Reads (List QString)
  | placed, [] => pure placed
  | placed, (path, instanceId) :: rest =>
    if !instances.contains instanceId then do
      addError path "surface-plan.dangling-instance" "The placed instance does not exist."
      checkPlacements instances placed rest
    else if placed.contains instanceId then do
      addError path "surface-plan.duplicate-placement" "A visual instance may be placed only once."
      checkPlacements instances placed rest
    else checkPlacements instances (instanceId :: placed) rest

def validateRelationships (plan : SurfacePlan) : ValidationErrors :=
  let checks : Reads Unit := do
    let placed ← checkPlacements plan.instances [] (placements plan.barLayouts)
    .reportAll ((plan.instances.keys.filter (!placed.contains ·)).map fun instanceId =>
      issue (qstr "$.instances." ++ instanceId) "surface-plan.unplaced-instance"
        "Every effective visual instance must be placed.")
  checks.errors

/-- The fields of a document in reading order; the relationships are checked afterwards. -/
def parsePlanFields (root : QJsonObject) : PlanReads SurfacePlan := do
  requireExactKeys root ["formatVersion", "catalogDigest", "configurationRevision", "instances", "layouts"] (qstr "$")
  let formatVersion := root.value (qstr "formatVersion")
  require (formatVersion.isDouble && formatVersion.toInteger (-1) = surfacePlanFormatVersion &&
      formatVersion.toDouble = .finite surfacePlanFormatVersion)
    (issue (qstr "$.formatVersion") "surface-plan.unsupported-format"
      "Only surface plan format version 2 is supported.")
  let catalogDigest := root.value (qstr "catalogDigest")
  require (catalogDigest.isString && hasMatch surfacePlanDigest catalogDigest.toString)
    (issue (qstr "$.catalogDigest") "surface-plan.invalid-catalog-digest"
      "The catalog digest must be lowercase SHA-256.")
  let configurationRevision := root.value (qstr "configurationRevision")
  let revision ← orError
    (if configurationRevision.isString then parseUnsignedRevision configurationRevision.toString else none)
    (issue (qstr "$.configurationRevision") "surface-plan.invalid-configuration-revision"
      "The configuration revision is not canonical unsigned-64 text.")
  let instancesValue := root.value (qstr "instances")
  let layoutsValue := root.value (qstr "layouts")
  require (instancesValue.isObject && layoutsValue.isObject)
    (issue (qstr "$") "surface-plan.object-required" "Instances and layouts must be objects.")
  require (instancesValue.toObject.length ≤ maximumSurfacePlanInstances)
    (issue (qstr "$.instances") "surface-plan.instance-limit" "The plan contains too many instances.")
  let instances ← parseInstances number unicode instancesValue.toObject
  requireExactKeys layoutsValue.toObject ["bars"] (qstr "$.layouts")
  let bars := QJsonObject.value layoutsValue.toObject (qstr "bars")
  require bars.isObject
    (issue (qstr "$.layouts.bars") "surface-plan.object-required" "Bar layouts must be an object.")
  require (bars.toObject.length ≤ maximumSurfacePlanBarLayouts)
    (issue (qstr "$.layouts.bars") "surface-plan.layout-limit" "The plan contains too many bar layouts.")
  let barLayouts ← parseBarLayouts bars.toObject
  pure {
    catalogDigest := catalogDigest.toString
    configurationRevision := revision
    instances := QMap.ofList instances
    barLayouts := QMap.ofList barLayouts }

def parsePlanRoot (root : QJsonObject) : ValidationResult SurfacePlan :=
  match parsePlanFields number unicode root with
  | .error e => ⟨none, [e]⟩
  | .ok plan =>
    let errors := validateRelationships plan
    ⟨if errors = [] then some plan else none, errors⟩

def parseSurfacePlan (bytes : QByteArray) : ValidationResult SurfacePlan :=
  let parsed := parseStrictJsonObject number bytes ⟨maximumSurfacePlanBytes, 32⟩
  match parsed.value with
  | none => ⟨none, parsed.errors⟩
  | some root => parsePlanRoot number unicode root

end Reader

section Artifact

def stringArray (values : List QString) : QJsonValue := .array (values.map .string)

def runtimeObject (surfaceInstance : SurfaceInstance) : QJsonObject :=
  if surfaceInstance.runtimeKind = builtinKind then QJsonObject.ofList [
    (qstr "kind", .string surfaceInstance.runtimeKind), (qstr "factory", .string surfaceInstance.factory)]
  else QJsonObject.ofList [
    (qstr "kind", .string surfaceInstance.runtimeKind), (qstr "text", .string surfaceInstance.declarativeText),
    (qstr "tooltip", .string surfaceInstance.declarativeTooltip),
    (qstr "maximumWidth", .double (.finite surfaceInstance.declarativeMaximumWidth.toNat))]

def instanceObject (surfaceInstance : SurfaceInstance) : QJsonObject := QJsonObject.ofList [
  (qstr "componentId", .string surfaceInstance.componentId),
  (qstr "componentType", .string surfaceInstance.componentType),
  (qstr "packageDigest", .string surfaceInstance.packageDigest),
  (qstr "runtime", .object (runtimeObject surfaceInstance)),
  (qstr "settings", .object surfaceInstance.settings)]

def layoutObject (layout : SurfaceBarLayout) : QJsonObject := QJsonObject.ofList [
  (qstr "outputs", .object (QJsonObject.ofList [(qstr "mode", .string layout.outputMode)])),
  (qstr "regions", .object (QJsonObject.ofList [
    (qstr "start", stringArray layout.start), (qstr "center", stringArray layout.center),
    (qstr "end", stringArray layout.end)]))]

def surfacePlanObject (plan : SurfacePlan) : QJsonObject := QJsonObject.ofList [
  (qstr "formatVersion", .double (.finite surfacePlanFormatVersion)),
  (qstr "catalogDigest", .string plan.catalogDigest),
  (qstr "configurationRevision", .string (decimal plan.configurationRevision.toNat)),
  (qstr "instances", .object (QJsonObject.ofList (plan.instances.map fun (key, i) => (key, .object (instanceObject i))))),
  (qstr "layouts", .object (QJsonObject.ofList [
    (qstr "bars", .object (QJsonObject.ofList (plan.barLayouts.map fun (key, l) => (key, .object (layoutObject l)))))]))]

/-- The first eight bytes of a full digest as a big-endian number, never zero. -/
def surfacePlanRevision (digest : QString) : UInt64 :=
  if digest.length = 64 then
    let revision := (digest.take 16).foldl (fun n u => 16 * n + (hexDigit u).getD 0) 0
    if revision = 0 then 1 else UInt64.ofNat revision
  else 0
where
  hexDigit (u : UInt16) : Option Nat :=
    if isDigit u then some (u.toNat - 0x30)
    else if 0x61 ≤ u.toNat ∧ u.toNat ≤ 0x66 then some (u.toNat - 0x57) else none

variable (number : NumberText) (unicode : UnicodeTables) (sha256 : QByteArray → QString)

def surfacePlanBytes (plan : SurfacePlan) : QByteArray :=
  compactJson number (.object (surfacePlanObject plan)) ++ [0x0a]

def makeSurfacePlanArtifact (plan : SurfacePlan) : ValidationResult SurfacePlanArtifact :=
  let bytes := surfacePlanBytes number plan
  let parsed := parseSurfacePlan number unicode bytes
  match parsed.value with
  | none => ⟨none, parsed.errors⟩
  | some plan =>
    let digest := sha256 bytes
    ⟨some { plan, bytes, digest, revision := surfacePlanRevision digest }, []⟩

end Artifact
end HyprShelld.Components
