import HyprShelld.Surface.Plan

/-! The surface plan of a hydrated catalog and an accepted configuration. -/
namespace HyprShelld.Components

structure RuntimeCatalogEntry where
  componentId : QString
  componentType : QString
  packageDigest : QString
  origin : QString
  removable : Bool := true
  componentApiVersion : QString
  runtimeKind : QString
  factory : QString := []
  runtimeEntryPoint : QString := []
  runtimeArguments : List QString := []
  declarativeRuntime : QByteArray := []
  declarativeDocument : Option DeclarativeDocument := none
  capabilityIds : List QString := []
  dependencyIds : List QString := []

structure RuntimeCatalogSnapshot where
  catalogDigest : QString
  listedComponentIds : List QString
  entries : QMap RuntimeCatalogEntry

structure RuntimeDesiredComponent where
  enabled : Bool := false
  packageDigest : QString
  grantedCapabilities : List QString := []
  settings : QJsonObject := []

structure RuntimeDesiredVisualInstance where
  componentId : QString
  enabled : Bool := false
  settings : QJsonObject := []

structure RuntimeDesiredBarLayout where
  outputMode : QString
  start : List QString := []
  center : List QString := []
  «end» : List QString := []

structure RuntimeConfigurationSnapshot where
  catalogDigest : QString
  revision : UInt64 := 0
  components : QMap RuntimeDesiredComponent
  instances : QMap RuntimeDesiredVisualInstance
  barLayouts : QMap RuntimeDesiredBarLayout

section Entries
variable (number : NumberText) (unicode : UnicodeTables)

def isExactWorkspaceCatalogEntry (entry : RuntimeCatalogEntry) : Bool :=
  entry.componentId = workspaceSwitcherId && entry.componentType = qstr "bar-widget" &&
    hasMatch digestPattern entry.packageDigest && entry.origin = qstr "system" && !entry.removable &&
    entry.componentApiVersion = currentComponentApiVersion && entry.runtimeKind = builtinKind &&
    entry.factory = workspaceSwitcherFactory && entry.runtimeEntryPoint = [] && entry.runtimeArguments = [] &&
    entry.dependencyIds = [] && entry.capabilityIds.isPerm [workspacesActivateCapability, workspacesReadCapability]

def isExactDeclarativeCatalogEntry (entry : RuntimeCatalogEntry) : Bool :=
  entry.componentType = qstr "bar-widget" && hasMatch digestPattern entry.packageDigest &&
    entry.origin = qstr "user" && entry.removable && entry.componentApiVersion = currentComponentApiVersion &&
    entry.runtimeKind = declarativeKind && entry.factory = [] && entry.runtimeEntryPoint ≠ [] &&
    entry.runtimeArguments = [] && entry.capabilityIds = [] && entry.dependencyIds = [] &&
    entry.declarativeRuntime ≠ [] &&
    match entry.declarativeDocument with
    | some document => serializeDeclarativeDocument number document = entry.declarativeRuntime
    | none => false

def resolveDeclarativeText (entry : RuntimeCatalogEntry) (component : RuntimeDesiredComponent) : Option QString := do
  let document ← entry.declarativeDocument
  let text ← match document.text.kind with
    | .literal => some document.text.value
    | .componentSetting =>
      let value := component.settings.value document.text.value
      if value.isString then some value.toString else none
  if isValidDeclarativeResolvedText unicode text then some text else none

end Entries

/-- What the builder has placed and which instances are effective so far. -/
structure BuildState where
  placed : List QString := []
  instances : QMap SurfaceInstance := []

section Build
variable (number : NumberText) (unicode : UnicodeTables)
variable (catalog : RuntimeCatalogSnapshot) (configuration : RuntimeConfigurationSnapshot)

def checkListedIds : Nat → List QString → List QString → PlanReads Unit
  | _, _, [] => pure ()
  | index, listed, componentId :: rest => do
    require (isValidComponentId componentId && !listed.contains componentId)
      (issue (indexPath (qstr "$.catalog.componentIds") index) "component-runtime.invalid-catalog-id-set"
        "The catalog ID set contains an invalid or duplicate ID.")
    checkListedIds (index + 1) (componentId :: listed) rest

def checkEntries (listedIds : List QString) : QMap RuntimeCatalogEntry → PlanReads Unit
  | [] => pure ()
  | (key, entry) :: rest => do
    require (listedIds.contains key && entry.componentId = key)
      (issue (qstr "$.catalog." ++ key) "component-runtime.incomplete-catalog"
        "A hydrated catalog entry does not match its listed ID.")
    checkEntries listedIds rest

def checkRuntimeCatalog : PlanReads Unit := do
  checkListedIds 0 [] catalog.listedComponentIds
  require (catalog.listedComponentIds.length = catalog.entries.length)
    (issue (qstr "$.catalog") "component-runtime.incomplete-catalog"
      "The hydrated catalog entries do not match the listed ID set.")
  checkEntries catalog.listedComponentIds catalog.entries
  require ((catalog.entries.lookup workspaceSwitcherId).any isExactWorkspaceCatalogEntry)
    (issue (qstr "$.catalog." ++ workspaceSwitcherId) "component-runtime.invalid-builtin-factory"
      "The protected workspace factory declaration is missing or invalid.")

/-- The component record and the catalog entry of an instance that has a say at all. Missing definitions
and records of another digest are inert rather than discarded. -/
def activePackage (desiredInstance : RuntimeDesiredVisualInstance) :
    Option (RuntimeDesiredComponent × RuntimeCatalogEntry) := do
  guard desiredInstance.enabled
  let desiredComponent ← configuration.components.lookup desiredInstance.componentId
  let catalogEntry ← catalog.entries.lookup desiredInstance.componentId
  guard (desiredComponent.enabled && desiredComponent.packageDigest = catalogEntry.packageDigest)
  return (desiredComponent, catalogEntry)

def isBuiltinValid (desiredInstance : RuntimeDesiredVisualInstance) (desiredComponent : RuntimeDesiredComponent)
    (catalogEntry : RuntimeCatalogEntry) : Bool :=
  desiredInstance.componentId = workspaceSwitcherId && isExactWorkspaceCatalogEntry catalogEntry &&
    desiredComponent.grantedCapabilities = [] && isValidWorkspaceSwitcherSettings desiredInstance.settings

def isDeclarativeValid (layoutId : QString) (desiredInstance : RuntimeDesiredVisualInstance)
    (desiredComponent : RuntimeDesiredComponent) (catalogEntry : RuntimeCatalogEntry) : Bool :=
  isExactDeclarativeCatalogEntry number catalogEntry && layoutId = defaultBarLayoutId &&
    desiredComponent.grantedCapabilities = [] && desiredInstance.settings = [] &&
    (resolveDeclarativeText unicode catalogEntry desiredComponent).isSome

def effectiveInstance (layoutId : QString) (desiredInstance : RuntimeDesiredVisualInstance)
    (desiredComponent : RuntimeDesiredComponent) (catalogEntry : RuntimeCatalogEntry) : SurfaceInstance :=
  let builtinValid := isBuiltinValid desiredInstance desiredComponent catalogEntry
  let declarativeValid := isDeclarativeValid number unicode layoutId desiredInstance desiredComponent catalogEntry
  { componentId := catalogEntry.componentId
    componentType := catalogEntry.componentType
    packageDigest := catalogEntry.packageDigest
    runtimeKind := catalogEntry.runtimeKind
    factory := catalogEntry.factory
    declarativeText :=
      if declarativeValid then (resolveDeclarativeText unicode catalogEntry desiredComponent).getD [] else []
    declarativeTooltip :=
      if declarativeValid then (catalogEntry.declarativeDocument.bind (·.tooltip)).getD [] else []
    declarativeMaximumWidth :=
      if declarativeValid then
        (catalogEntry.declarativeDocument.bind (·.maximumWidth)).getD defaultDeclarativeMaximumWidth
      else 0
    settings := if builtinValid then desiredInstance.settings else [] }

/-- One region: the instances that are effective, in the order they were placed. -/
def buildRegion (layoutId regionName : QString) :
    Nat → List QString → BuildState → PlanReads (List QString × BuildState)
  | _, [], state => pure ([], state)
  | index, instanceId :: rest, state => do
    let placementPath := indexPath (qstr "$.layouts.bars." ++ layoutId ++ qstr ".regions." ++ regionName) index
    require (!state.placed.contains instanceId)
      (issue placementPath "component-runtime.duplicate-placement" "A visual instance may be placed only once.")
    let state := { state with placed := instanceId :: state.placed }
    let desiredInstance ← orError (configuration.instances.lookup instanceId)
      (issue placementPath "component-runtime.dangling-instance" "The placement references an unknown instance.")
    match activePackage catalog configuration desiredInstance with
    | none => buildRegion layoutId regionName (index + 1) rest state
    | some (desiredComponent, catalogEntry) => do
      require (isBuiltinValid desiredInstance desiredComponent catalogEntry ||
          isDeclarativeValid number unicode layoutId desiredInstance desiredComponent catalogEntry)
        (issue (qstr "$.instances." ++ instanceId) "component-runtime.invalid-effective-instance"
          "The desired trusted instance is invalid.")
      let one := effectiveInstance number unicode layoutId desiredInstance desiredComponent catalogEntry
      let (effectiveIds, state) ← buildRegion layoutId regionName (index + 1) rest
        { state with instances := QMap.insert instanceId one state.instances }
      pure (instanceId :: effectiveIds, state)

def buildLayout (layoutId : QString) (desiredLayout : RuntimeDesiredBarLayout) (state : BuildState) :
    PlanReads (SurfaceBarLayout × BuildState) := do
  require (desiredLayout.outputMode = qstr "all")
    (issue (qstr "$.layouts.bars." ++ layoutId ++ qstr ".outputs.mode") "component-runtime.unsupported-output-selector"
      "Only the all-output selector is supported.")
  let (start, state) ← buildRegion number unicode catalog configuration layoutId (qstr "start") 0 desiredLayout.start state
  let (center, state) ←
    buildRegion number unicode catalog configuration layoutId (qstr "center") 0 desiredLayout.center state
  let («end», state) ← buildRegion number unicode catalog configuration layoutId (qstr "end") 0 desiredLayout.end state
  pure ({ outputMode := desiredLayout.outputMode, start, center, «end» }, state)

/-- The layouts in key order. -/
def buildLayouts : QMap RuntimeDesiredBarLayout → BuildState → PlanReads (List (QString × SurfaceBarLayout) × BuildState)
  | [], state => pure ([], state)
  | (layoutId, desiredLayout) :: rest, state => do
    let (effectiveLayout, state) ← buildLayout number unicode catalog configuration layoutId desiredLayout state
    let (more, state) ← buildLayouts rest state
    pure ((layoutId, effectiveLayout) :: more, state)

def buildPlan : PlanReads SurfacePlan := do
  require (hasMatch digestPattern catalog.catalogDigest)
    (issue (qstr "$.catalogDigest") "component-runtime.invalid-catalog-digest" "The catalog digest is invalid.")
  require (configuration.catalogDigest = catalog.catalogDigest)
    (issue (qstr "$.catalogDigest") "component-runtime.catalog-mismatch"
      "The component configuration was validated against another catalog.")
  checkRuntimeCatalog catalog
  require (configuration.instances.length ≤ maximumSurfacePlanInstances &&
      configuration.barLayouts.length ≤ maximumSurfacePlanBarLayouts)
    (issue (qstr "$") "component-runtime.plan-limit" "The desired visual configuration exceeds the runtime limits.")
  let (barLayouts, state) ← buildLayouts number unicode catalog configuration configuration.barLayouts {}
  pure {
    catalogDigest := catalog.catalogDigest
    configurationRevision := configuration.revision
    instances := state.instances
    barLayouts := QMap.ofList barLayouts }

def buildSurfacePlan : ValidationResult SurfacePlan :=
  match buildPlan number unicode catalog configuration with
  | .ok plan => ⟨some plan, []⟩
  | .error e => ⟨none, [e]⟩

end Build
end HyprShelld.Components
