import HyprShelld.Component.Declarative
import HyprShelld.Component.Identifiers
import HyprShelld.Support.OrderedMap

/-! The component configuration: which components are desired, their instances and where the bars
place them. Its reader checks what it holds against the catalog where a package is live, and keeps
what is dormant as it is. -/
namespace HyprShelld.Configuration
open Components

def maximumComponentConfigurationBytes : Int := 2 * 1024 * 1024
def maximumConfigurationDepth : Int := 32
def maximumComponents : Nat := 512
def maximumInstances : Nat := 1024
def maximumBarLayouts : Nat := 32
def maximumRegionInstances : Nat := 1024
def maximumExactDormantNumber : ℚ := 9007199254740991

structure ConfigurationCatalogEntry where
  packageDigest : QString
  type : ComponentType := .barWidget
  origin : ComponentOrigin := .user
  settingsSchema : SettingsSchema
  requestedCapabilities : List QString := []
  componentApiVersion : QString
  runtimeKind : RuntimeKind := .builtinV1
  dependencyIds : List QString := []
  activationSupported : Bool := false
  declarativeRuntime : QByteArray := []

structure ConfigurationCatalog where
  digest : QString
  entries : QMap ConfigurationCatalogEntry

structure DesiredComponent where
  packageDigest : QString := []
  enabled : Bool := false
  grantedCapabilities : List QString := []
  settings : QJsonObject := []
  deriving DecidableEq

structure ComponentInstance where
  componentId : QString := []
  enabled : Bool := false
  settings : QJsonObject := []
  deriving DecidableEq

structure OutputSelector where
  mode : QString := qstr "all"
  names : List QString := []
  deriving DecidableEq

structure BarLayout where
  outputs : OutputSelector := {}
  start : List QString := []
  center : List QString := []
  «end» : List QString := []
  deriving DecidableEq

structure ComponentConfiguration where
  revision : UInt64 := 0
  components : QMap DesiredComponent := []
  instances : QMap ComponentInstance := []
  bars : QMap BarLayout := []
  deriving DecidableEq

def rejectUnknownConfigurationFields (object : QJsonObject) (allowed : List QString) (path : QString) : Reads Unit :=
  .reportAll ((object.keys.filter (!allowed.contains ·)).map fun key =>
    ⟨childPath path key, qstr "component-config.unknown-field", qstr "Unknown field: " ++ key⟩)

def parseConfigurationRevision (value : QJsonValue) : Option UInt64 :=
  let text := value.toString
  if !value.isString || text = [] || (1 < text.length && text.head? = some (unit '0')) || !text.all isDigit then none
  else (toULongLong text).map UInt64.ofNat

section Dormant
variable (unicode : UnicodeTables)

def atDepth (depth : Nat) (path : QString) (check : Reads Unit) : Reads Unit :=
  if 8 < depth then
    addError path "component-config.settings-depth-limit" "A dormant setting value is nested too deeply."
  else check

def isStoredText (text : QString) : Bool := text.length ≤ 4096 && !hasControl text && text = unicode.normalized text

def isStoredNumber (x : Double) : Bool :=
  match x with
  | .finite q => |q| ≤ maximumExactDormantNumber
  | .infinity _ | .nan => false

mutual
def validateDormantSettingValue (path : QString) (depth : Nat) : QJsonValue → Reads Unit
  | .string text => atDepth depth path <|
    .rejectIf (!isStoredText unicode text) (issue path "component-config.invalid-setting-string"
      "Setting strings must be bounded normalized plain text.")
  | .double x => atDepth depth path <|
    .rejectIf (!isStoredNumber x) (issue path "component-config.invalid-setting-number"
      "Dormant numeric settings must stay within the exact JSON-safe range.")
  | .array items => atDepth depth path <|
    if 64 < items.length then
      addError path "component-config.settings-array-limit" "A setting array may contain at most 64 values."
    else validateDormantItems path (depth + 1) 0 items
  | .object members => atDepth depth path <|
    if 64 < members.length then
      addError path "component-config.settings-object-limit" "A setting object may contain at most 64 fields."
    else validateDormantMembers path (depth + 1) members
  | .bool _ => atDepth depth path (pure ())
  | .null => atDepth depth path (pure ())
  | .undefined => atDepth depth path (pure ())
def validateDormantItems (path : QString) (depth index : Nat) : List QJsonValue → Reads Unit
  | [] => pure ()
  | item :: rest => do
    validateDormantSettingValue (indexPath path index) depth item
    validateDormantItems path depth (index + 1) rest
def validateDormantMembers (path : QString) (depth : Nat) : List (QString × QJsonValue) → Reads Unit
  | [] => pure ()
  | (key, value) :: rest => do
    .rejectIf (64 < key.length || hasControl key) (issue (childPath path key) "component-config.invalid-nested-setting-key"
      "Nested setting keys must be bounded plain text.")
    validateDormantSettingValue (childPath path key) depth value
    validateDormantMembers path depth rest
end

def validateDormantSettings (settings : QJsonObject) (path : QString) : Reads Unit :=
  if 128 < settings.length then
    addError path "component-config.settings-count-limit" "A settings object may contain at most 128 keys."
  else
    Checked.forEach (fun _ setting => do
      .rejectIf (!isSettingKey setting.1) (issue (childPath path setting.1) "component-config.invalid-setting-key"
        "Setting keys must use bounded lower camel-case ASCII.")
      validateDormantSettingValue unicode (childPath path setting.1) 0 setting.2) 0 settings

end Dormant

section Arrays

/-- The texts from an index on, after a text before it. -/
def parseStringItems (path : QString) (requireSortedUnique : Bool) : Nat → QString → List QJsonValue → Reads (List QString)
  | _, _, [] => pure []
  | index, previous, item :: rest => do
    if !item.isString then do
      addError (indexPath path index) "component-config.string-required" "A string is required."
      parseStringItems path requireSortedUnique (index + 1) previous rest
    else do
      let text := item.toString
      .rejectIf (requireSortedUnique && 0 < index && !utf16Less previous text) (issue (indexPath path index)
        "component-config.array-not-sorted-unique" "Values must be sorted and unique.")
      let texts ← parseStringItems path requireSortedUnique (index + 1) text rest
      return text :: texts

def parseStringArray (value : QJsonValue) (path : QString) (maximumCount : Nat) (requireSortedUnique : Bool) :
    ValidationResult (List QString) :=
  if !value.isArray || maximumCount < value.toArray.length then
    ⟨none, [issue path "component-config.invalid-array" "A bounded string array is required."]⟩
  else (parseStringItems path requireSortedUnique 0 [] value.toArray).result

def stringArray (values : List QString) : QJsonValue := .array (values.map .string)

/-- The texts of a region, or none with the errors passed on. -/
def readStringArray (value : QJsonValue) (path : QString) (maximumCount : Nat) (requireSortedUnique : Bool) :
    Reads (List QString) :=
  let texts := parseStringArray value path maximumCount requireSortedUnique
  match texts.value with
  | some values => pure values
  | none => ⟨[], texts.errors⟩

/-- One record of each member, as far as it has one. -/
def parseEntries {α : Type} (read : QString → QJsonValue → Reads (Option α)) (object : QJsonObject) : Reads (QMap α) :=
  object.foldlM (fun entries member => do
    let entry ← read member.1 member.2
    return entry.elim entries fun a => QMap.insert member.1 a entries) []

end Arrays

section Records
variable (number : NumberText) (unicode : UnicodeTables) (catalog : ConfigurationCatalog)

def isSupportedUserDeclarative (entry : ConfigurationCatalogEntry) : Bool :=
  entry.activationSupported && entry.origin = .user && entry.type = .barWidget &&
    entry.componentApiVersion = currentComponentApiVersion && entry.runtimeKind = .declarativeV1 &&
    entry.requestedCapabilities = [] && entry.dependencyIds = [] && entry.declarativeRuntime ≠ [] &&
    (parseDeclarativeDocument number unicode entry.declarativeRuntime (some entry.settingsSchema)).ok

def readSettings (settings : QJsonValue) (path : QString) : Reads QJsonObject :=
  if !settings.isObject then
    ⟨[], [issue (path ++ qstr ".settings") "component-config.settings-object-required" "settings must be an object."]⟩
  else do
    validateDormantSettings unicode settings.toObject (path ++ qstr ".settings")
    return settings.toObject

def readEnabled (enabled : QJsonValue) (path : QString) : Reads Bool :=
  if !enabled.isBool then
    ⟨false, [issue (path ++ qstr ".enabled") "component-config.boolean-required" "enabled must be boolean."]⟩
  else pure enabled.toBool

/-- The label that a declarative document takes from the component settings. -/
def checkResolvedText (entry : ConfigurationCatalogEntry) (settings : QJsonObject) (path : QString) : Reads Unit :=
  match (parseDeclarativeDocument number unicode entry.declarativeRuntime (some entry.settingsSchema)).value with
  | some document =>
    if document.text.kind = .componentSetting then
      let resolved := settings.value document.text.value
      .rejectIf (!resolved.isString || !isValidDeclarativeResolvedText unicode resolved.toString)
        (issue (path ++ qstr ".settings." ++ document.text.value) "component-config.invalid-declarative-resolved-text"
          "The resolved declarative label must be bounded normalized plain text.")
    else pure ()
  | none => pure ()

/-- What a record must be when its package is live, with its settings normalized. -/
def bindComponent (entry : ConfigurationCatalogEntry) (path : QString) (desired : DesiredComponent) : Reads DesiredComponent := do
  let supported := isSupportedUserDeclarative number unicode entry
  .rejectIf (entry.origin = .user && desired.enabled && !supported) (issue (path ++ qstr ".enabled")
    "component-config.user-runtime-unavailable"
    "This third-party component does not have an enforceable runtime on the current host.")
  .rejectIf (supported && desired.grantedCapabilities ≠ []) (issue (path ++ qstr ".grantedCapabilities")
    "component-config.declarative-grants-forbidden" "The data-only declarative runtime does not accept capability grants.")
  .rejectIf (entry.origin = .system && desired.grantedCapabilities ≠ []) (issue (path ++ qstr ".grantedCapabilities")
    "component-config.builtin-grants-forbidden" "Built-in components do not store user grants.")
  .reportAll ((desired.grantedCapabilities.filter (!entry.requestedCapabilities.contains ·)).map fun _ =>
    issue (path ++ qstr ".grantedCapabilities") "component-config.unrequested-capability"
      "A grant was not requested by this package.")
  let normalized := normalizeSettings unicode entry.settingsSchema .componentScope desired.settings true
  match normalized.value with
  | none => ⟨desired, normalized.errors⟩
  | some settings => do
    (if supported then checkResolvedText number unicode entry settings path else pure ())
    return { desired with settings }

def parseComponentRecord (key : QString) (value : QJsonValue) : Reads (Option DesiredComponent) :=
  let path := qstr "$.components." ++ key
  if !isValidComponentId key || !value.isObject then
    ⟨none, [issue path "component-config.invalid-component-record" "A valid component ID and object record are required."]⟩
  else do
    let object := value.toObject
    rejectUnknownConfigurationFields object
      [qstr "packageDigest", qstr "enabled", qstr "grantedCapabilities", qstr "settings"] path
    let digest := object.value (qstr "packageDigest")
    .rejectIf (!digest.isString || !isFullSha256Digest digest.toString) (issue (path ++ qstr ".packageDigest")
      "component-config.invalid-package-digest" "A lowercase SHA-256 package digest is required.")
    let packageDigest := if digest.isString && isFullSha256Digest digest.toString then digest.toString else []
    let enabled ← readEnabled (object.value (qstr "enabled")) path
    let grantedCapabilities ← readStringArray (object.value (qstr "grantedCapabilities")) (path ++ qstr ".grantedCapabilities") 64 true
    .reportAll ((grantedCapabilities.filter (!isValidCapabilityId ·)).map fun _ =>
      issue (path ++ qstr ".grantedCapabilities") "component-config.invalid-capability"
        "Capability IDs must use canonical dotted lowercase syntax.")
    let settings ← readSettings unicode (object.value (qstr "settings")) path
    let desired : DesiredComponent := ⟨packageDigest, enabled, grantedCapabilities, settings⟩
    let desired ← (match catalog.entries.lookup key with
      | some entry => if packageDigest = entry.packageDigest then bindComponent number unicode entry path desired else pure desired
      | none => pure desired)
    return some desired

/-- What an instance must be when the package of its component is live. -/
def bindInstance (entry : ConfigurationCatalogEntry) (path : QString) (placed : ComponentInstance) : Reads ComponentInstance := do
  .rejectIf (entry.type ≠ .barWidget) (issue (path ++ qstr ".componentId") "component-config.unsupported-instance-type"
    "The current visual host supports only bar-widget instances.")
  if isSupportedUserDeclarative number unicode entry then do
    .rejectIf (placed.settings ≠ []) (issue (path ++ qstr ".settings") "component-config.declarative-instance-settings-forbidden"
      "Version one declarative widgets use component settings only.")
    return placed
  else
    let normalized := normalizeSettings unicode entry.settingsSchema .instanceScope placed.settings true
    match normalized.value with
    | none => ⟨placed, normalized.errors⟩
    | some settings => return { placed with settings }

/-- The catalog entry of a component whose record carries its digest. -/
def liveEntry (components : QMap DesiredComponent) (componentId : QString) : Option ConfigurationCatalogEntry := do
  let desired ← components.lookup componentId
  let entry ← catalog.entries.lookup componentId
  if desired.packageDigest = entry.packageDigest then some entry else none

def parseInstanceRecord (components : QMap DesiredComponent) (key : QString) (value : QJsonValue) :
    Reads (Option ComponentInstance) :=
  let path := qstr "$.instances." ++ key
  if !isLowercaseUuidV4 key || !value.isObject then
    ⟨none, [issue path "component-config.invalid-instance-record" "A lowercase UUIDv4 and object record are required."]⟩
  else do
    let object := value.toObject
    rejectUnknownConfigurationFields object [qstr "componentId", qstr "enabled", qstr "settings"] path
    let id := object.value (qstr "componentId")
    .rejectIf (!id.isString || !components.contains id.toString) (issue (path ++ qstr ".componentId")
      "component-config.unknown-component-reference" "The instance must reference a desired component record.")
    let componentId := if id.isString && components.contains id.toString then id.toString else []
    let enabled ← readEnabled (object.value (qstr "enabled")) path
    let settings ← readSettings unicode (object.value (qstr "settings")) path
    let placed : ComponentInstance := ⟨componentId, enabled, settings⟩
    let placed ← (match liveEntry catalog components componentId with
      | some entry => bindInstance number unicode entry path placed
      | none => pure placed)
    return some placed

end Records

section Layouts
variable (unicode : UnicodeTables)

def isOutputName (name : QString) : Bool :=
  name ≠ [] && name.length ≤ 128 && name = trimmed name && !hasControl name && name = unicode.normalized name

def parseOutputs (value : QJsonValue) (path : QString) : Reads OutputSelector :=
  if !value.isObject then
    ⟨{}, [issue (path ++ qstr ".outputs") "component-config.invalid-output-selector" "outputs must be an object."]⟩
  else do
    let outputs := value.toObject
    let mode := outputs.value (qstr "mode")
    let known := mode.isString && (mode.toString = qstr "all" || mode.toString = qstr "named")
    .rejectIf (!known) (issue (path ++ qstr ".outputs.mode") "component-config.invalid-output-mode"
      "Output mode must be all or named.")
    let modeText := if known then mode.toString else qstr "all"
    if modeText = qstr "all" then do
      rejectUnknownConfigurationFields outputs [qstr "mode"] (path ++ qstr ".outputs")
      return ⟨modeText, []⟩
    else do
      rejectUnknownConfigurationFields outputs [qstr "mode", qstr "names"] (path ++ qstr ".outputs")
      let names := parseStringArray (outputs.value (qstr "names")) (path ++ qstr ".outputs.names") 32 true
      match names.value with
      | none => ⟨⟨modeText, []⟩, names.errors⟩
      | some [] => ⟨⟨modeText, []⟩, [issue (path ++ qstr ".outputs.names") "component-config.empty-output-names"
          "named output mode requires at least one name."]⟩
      | some names => do
        .reportAll ((names.filter (!isOutputName unicode ·)).map fun _ => issue (path ++ qstr ".outputs.names")
          "component-config.invalid-output-name" "Output names must be bounded normalized plain text.")
        return ⟨modeText, names⟩

def parseBarLayout (key : QString) (value : QJsonValue) : Reads (Option BarLayout) :=
  let path := qstr "$.layouts.bars." ++ key
  if !isLayoutId key || !value.isObject then
    ⟨none, [issue path "component-config.invalid-bar-layout" "A valid layout ID and object are required."]⟩
  else do
    let object := value.toObject
    rejectUnknownConfigurationFields object [qstr "outputs", qstr "regions"] path
    let outputs ← parseOutputs unicode (object.value (qstr "outputs")) path
    let regionsValue := object.value (qstr "regions")
    if !regionsValue.isObject then
      ⟨some { outputs }, [issue (path ++ qstr ".regions") "component-config.invalid-regions" "regions must be an object."]⟩
    else do
      let regions := regionsValue.toObject
      let regionPath := path ++ qstr ".regions"
      rejectUnknownConfigurationFields regions [qstr "start", qstr "center", qstr "end"] regionPath
      let start ← readStringArray (regions.value (qstr "start")) (regionPath ++ qstr ".start") maximumRegionInstances false
      let center ← readStringArray (regions.value (qstr "center")) (regionPath ++ qstr ".center") maximumRegionInstances false
      let «end» ← readStringArray (regions.value (qstr "end")) (regionPath ++ qstr ".end") maximumRegionInstances false
      return some ⟨outputs, start, center, «end»⟩

end Layouts

section Placements
variable (number : NumberText) (unicode : UnicodeTables) (catalog : ConfigurationCatalog)

/-- An enabled declarative widget, which only the main layout may hold. -/
def needsMainLayout (configuration : ComponentConfiguration) (placed : ComponentInstance) : Bool :=
  placed.enabled && (configuration.components.lookup placed.componentId).any (·.enabled) &&
    (liveEntry catalog configuration.components placed.componentId).any (isSupportedUserDeclarative number unicode)

/-- The placements of a region from an index on, after those placed before it. -/
def validateRegion (configuration : ComponentConfiguration) (layout region : QString) : Nat → List QString → List QString →
    Reads (List QString)
  | _, placed, [] => pure placed
  | index, placed, instanceId :: rest => do
    let path := indexPath (qstr "$.layouts.bars." ++ layout ++ qstr ".regions." ++ region) index
    (match configuration.instances.lookup instanceId with
    | some found =>
      if !isLowercaseUuidV4 instanceId then
        addError path "component-config.unknown-instance-placement" "Every placement must reference an existing instance."
      else if placed.contains instanceId then
        addError path "component-config.duplicate-instance-placement" "An instance may appear in exactly one placement."
      else
        .rejectIf (layout ≠ qstr "main" && needsMainLayout number unicode catalog configuration found) (issue path
          "component-config.declarative-main-layout-required"
          "Enabled declarative-v1 widgets must be placed in the main bar layout.")
    | none =>
      addError path "component-config.unknown-instance-placement" "Every placement must reference an existing instance.")
    validateRegion configuration layout region (index + 1) (instanceId :: placed) rest

def validateLayout (configuration : ComponentConfiguration) (placed : List QString) (layout : QString × BarLayout) :
    Reads (List QString) := do
  let placed ← validateRegion number unicode catalog configuration layout.1 (qstr "start") 0 placed layout.2.start
  let placed ← validateRegion number unicode catalog configuration layout.1 (qstr "center") 0 placed layout.2.center
  validateRegion number unicode catalog configuration layout.1 (qstr "end") 0 placed layout.2.end

def validatePlacements (configuration : ComponentConfiguration) : Reads Unit := do
  let placed ← configuration.bars.foldlM (validateLayout number unicode catalog configuration) []
  .reportAll ((configuration.instances.keys.filter (!placed.contains ·)).map fun key =>
    issue (qstr "$.instances." ++ key) "component-config.unplaced-instance"
      "Every visual instance requires exactly one placement.")

end Placements

section Documents
variable (number : NumberText) (unicode : UnicodeTables) (catalog : ConfigurationCatalog)

def checkConfigurationFormat (format : QJsonValue) : Reads Unit :=
  match format.finite? with
  | some version =>
    if version.den = 1 && 1 < version then
      addError (qstr "$.formatVersion") "component-config.unsupported-format"
        "This component configuration format is newer than supported."
    else .rejectIf (version ≠ 1) (issue (qstr "$.formatVersion") "component-config.invalid-format"
      "Component configuration format version 1 is required.")
  | none => addError (qstr "$.formatVersion") "component-config.invalid-format"
      "Component configuration format version 1 is required."

/-- The records of a bounded object. -/
def parseRecords {α : Type} (read : QString → QJsonValue → Reads (Option α)) (value : QJsonValue) (maximumCount : Nat)
    (error : ValidationError) : Reads (QMap α) :=
  if !value.isObject || maximumCount < value.toObject.length then ⟨[], [error]⟩ else parseEntries read value.toObject

def parseLayouts (value : QJsonValue) : Reads (QMap BarLayout) :=
  if !value.isObject then
    ⟨[], [issue (qstr "$.layouts") "component-config.layouts-object-required" "layouts must be an object."]⟩
  else do
    let layouts := value.toObject
    rejectUnknownConfigurationFields layouts [qstr "bars", qstr "desktops"] (qstr "$.layouts")
    let desktops := layouts.value (qstr "desktops")
    .rejectIf (!desktops.isObject || desktops.toObject ≠ []) (issue (qstr "$.layouts.desktops")
      "component-config.desktops-not-supported" "Desktop component layouts are not supported yet.")
    parseRecords (parseBarLayout unicode) (layouts.value (qstr "bars")) maximumBarLayouts (issue (qstr "$.layouts.bars")
      "component-config.invalid-bar-layouts" "bars must contain at most 32 layouts.")

def parseConfigurationRoot (root : QJsonObject) : Reads ComponentConfiguration := do
  rejectUnknownConfigurationFields root
    [qstr "formatVersion", qstr "revision", qstr "components", qstr "instances", qstr "layouts"] (qstr "$")
  checkConfigurationFormat (root.value (qstr "formatVersion"))
  let revision := parseConfigurationRevision (root.value (qstr "revision"))
  .rejectIf revision.isNone (issue (qstr "$.revision") "component-config.invalid-revision"
    "revision must be a canonical unsigned decimal string.")
  let components ← parseRecords (parseComponentRecord number unicode catalog) (root.value (qstr "components")) maximumComponents
    (issue (qstr "$.components") "component-config.invalid-components" "components must be an object with at most 512 records.")
  let instances ← parseRecords (parseInstanceRecord number unicode catalog components) (root.value (qstr "instances"))
    maximumInstances
    (issue (qstr "$.instances") "component-config.invalid-instances" "instances must be an object with at most 1024 records.")
  let bars ← parseLayouts unicode (root.value (qstr "layouts"))
  let configuration := ⟨revision.getD 0, components, instances, bars⟩
  validatePlacements number unicode catalog configuration
  return configuration

def configurationLimits : StrictJsonLimits := ⟨maximumComponentConfigurationBytes, maximumConfigurationDepth⟩

def parseComponentConfiguration (bytes : QByteArray) : ValidationResult ComponentConfiguration :=
  let parsed := parseStrictJsonObject number bytes configurationLimits
  match parsed.value with
  | none => ⟨none, parsed.errors⟩
  | some root => (parseConfigurationRoot number unicode catalog root).result

end Documents

section Writers

def componentObject (desired : DesiredComponent) : QJsonObject := .ofList [
  (qstr "packageDigest", .string desired.packageDigest), (qstr "enabled", .bool desired.enabled),
  (qstr "grantedCapabilities", stringArray desired.grantedCapabilities), (qstr "settings", .object desired.settings)]

def instanceObject (placed : ComponentInstance) : QJsonObject := .ofList [
  (qstr "componentId", .string placed.componentId), (qstr "enabled", .bool placed.enabled),
  (qstr "settings", .object placed.settings)]

def outputsObject (outputs : OutputSelector) : QJsonObject :=
  let object := QJsonObject.ofList [(qstr "mode", .string outputs.mode)]
  if outputs.mode = qstr "named" then object.insert (qstr "names") (stringArray outputs.names) else object

def regionsObject (layout : BarLayout) : QJsonObject := .ofList [
  (qstr "start", stringArray layout.start), (qstr "center", stringArray layout.center), (qstr "end", stringArray layout.end)]

def layoutObject (layout : BarLayout) : QJsonObject := .ofList [
  (qstr "outputs", .object (outputsObject layout.outputs)), (qstr "regions", .object (regionsObject layout))]

/-- One member for each entry of a map. -/
def recordsObject {α : Type} (write : α → QJsonObject) (entries : QMap α) : QJsonObject :=
  .ofList (entries.map fun entry => (entry.1, .object (write entry.2)))

def layoutsObject (bars : QMap BarLayout) : QJsonObject := .ofList [
  (qstr "bars", .object (recordsObject layoutObject bars)), (qstr "desktops", .object [])]

def configurationObject (configuration : ComponentConfiguration) : QJsonObject := .ofList [
  (qstr "formatVersion", .double (.finite 1)),
  (qstr "revision", .string (decimal configuration.revision.toNat)),
  (qstr "components", .object (recordsObject componentObject configuration.components)),
  (qstr "instances", .object (recordsObject instanceObject configuration.instances)),
  (qstr "layouts", .object (layoutsObject configuration.bars))]

def serializeComponentConfiguration (number : NumberText) (configuration : ComponentConfiguration) : QByteArray :=
  compactJson number (.object (configurationObject configuration)) ++ [0x0a]

end Writers

end HyprShelld.Configuration
