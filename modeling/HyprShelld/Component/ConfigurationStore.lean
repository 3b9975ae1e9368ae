import HyprShelld.Component.Configuration
import HyprShelld.Support.Program

/-! The two files of the component configuration: the active one and the last good one. Each is
replaced as a whole, and the last good one is written first and last. -/
namespace HyprShelld.Configuration
open Components

def workspaceSwitcherLabelModePackageDigest : QString :=
  qstr "f4febcab5a093a803d35b93ae5300df3149f9bff5a571c759c771fe61699f0f7"
def workspaceSwitcherIdentifierFlagsPackageDigest : QString :=
  qstr "4887e8c9e981ce892d39382e696de83d5b2dee4236e83db6da84780064aeaf54"

inductive FileStatus where
  | missing
  | valid
  | damaged
  | unsupported
  | unreadable
  deriving DecidableEq

structure ReadResult where
  status : FileStatus := .missing
  state : ComponentConfiguration := {}
  error : QString := []

/-- The settings of the workspace switcher before there were components. -/
structure LegacyWorkspaceSettings where
  labelMode : QString
  showApplications : Bool := false
  maximumApplications : UInt32 := 0
  occupiedOnly : Bool := false
  scrollMode : QString

inductive ComponentLoadState where
  | normal
  | recovered
  | defaulted
  | unsupported
  | unavailable
  deriving DecidableEq

def componentLoadStateName : ComponentLoadState → QString
  | .normal => qstr "normal"
  | .recovered => qstr "recovered"
  | .defaulted => qstr "defaulted"
  | .unsupported => qstr "unsupported"
  | .unavailable => qstr "unavailable"

structure ComponentLoadResult where
  available : Bool := false
  writable : Bool := false
  state : ComponentConfiguration := {}
  loadState : ComponentLoadState := .unavailable
  error : QString := []

structure ComponentMigrationResult where
  changed : Bool := false
  writable : Bool := true
  state : ComponentConfiguration
  error : QString := []

structure ComponentPaths where
  activeFile : QString
  recoveryFile : QString
  defaultsFile : QString

inductive SnapshotFile where
  | active
  | recovery
  | defaults
  deriving DecidableEq

def ComponentPaths.path (paths : ComponentPaths) : SnapshotFile → QString
  | .active => paths.activeFile
  | .recovery => paths.recoveryFile
  | .defaults => paths.defaultsFile

/-- What opening and reading a file comes to, with the text of the failure. -/
inductive FileContent where
  | missing
  | unreadable (error : QString)
  | present (bytes : QByteArray)

inductive StoreCall where
  | read (file : SnapshotFile)
  | write (file : SnapshotFile) (state : ComponentConfiguration)

/-- A write answers with an error, if it fails. -/
abbrev StoreCall.Answer : StoreCall → Type
  | .read _ => FileContent
  | .write _ _ => Option QString

abbrev StoreProgram := Program StoreCall StoreCall.Answer

section Migration

/-- The identifiers and names that a label mode showed. -/
def labelFlags (mode : QString) : Option (Bool × Bool) :=
  if mode = qstr "numbers" then some (true, false)
  else if mode = qstr "names" then some (true, true)
  else if mode = qstr "compact" then some (false, false)
  else none

def migrateWorkspaceSwitcherLabelMode (settings : QJsonObject) : Option QJsonObject :=
  let value (key : String) := QJsonObject.value settings (qstr key)
  if !hasExactKeys settings [qstr "labelMode", qstr "showApplications", qstr "maximumApplications", qstr "occupiedOnly",
      qstr "scrollMode"] then none
  else if !(value "labelMode").isString || !(value "showApplications").isBool || !isExactInteger (value "maximumApplications") 1 5 ||
      !(value "occupiedOnly").isBool || !(value "scrollMode").isString then none
  else do
    let (showIdentifiers, showNames) ← labelFlags (value "labelMode").toString
    if !isScrollMode (value "scrollMode").toString then none
    else some (.ofList [
      (qstr "showIdentifiers", .bool showIdentifiers), (qstr "showNames", .bool showNames),
      (qstr "showApplications", value "showApplications"), (qstr "maximumApplications", value "maximumApplications"),
      (qstr "occupiedOnly", value "occupiedOnly"), (qstr "scrollMode", value "scrollMode")])

def migrateInstance (componentId : QString) (entry : QString × ComponentInstance) : Option (QString × ComponentInstance) :=
  if entry.2.componentId ≠ componentId then some entry
  else do
    let settings ← migrateWorkspaceSwitcherLabelMode entry.2.settings
    return (entry.1, { entry.2 with settings })

variable (number : NumberText) (unicode : UnicodeTables)

def migrationCandidate (current : ComponentConfiguration) (catalog : ConfigurationCatalog) : Option ComponentConfiguration :=
  match current.components.lookup workspaceSwitcherId, catalog.entries.lookup workspaceSwitcherId with
  | some desired, some live =>
    if desired.packageDigest ≠ workspaceSwitcherLabelModePackageDigest ||
        live.packageDigest ≠ workspaceSwitcherIdentifierFlagsPackageDigest || live.origin ≠ .system || live.type ≠ .barWidget ||
        desired.grantedCapabilities ≠ [] || desired.settings ≠ [] || current.revision.toNat = maximumUnsigned64 then none
    else do
      let instances ← current.instances.mapM (migrateInstance workspaceSwitcherId)
      let next := { current with
        revision := current.revision + 1
        components := QMap.insert workspaceSwitcherId { desired with packageDigest := live.packageDigest } current.components
        instances }
      let validated := parseComponentConfiguration number unicode catalog (serializeComponentConfiguration number next)
      if validated.value = some next then some next else none
  | _, _ => none

end Migration

section Reading
variable (number : NumberText) (unicode : UnicodeTables) (paths : ComponentPaths) (catalog : ConfigurationCatalog)

def describeErrors (errors : List ValidationError) : QString :=
  (qstr "; ").intercalate (errors.map fun error => error.path ++ qstr " [" ++ error.code ++ qstr "]: " ++ error.message)

def hasUnsupportedFormat (errors : List ValidationError) : Bool :=
  errors.any (·.code = qstr "component-config.unsupported-format")

def snapshotResult (path : QString) : FileContent → ReadResult
  | .missing => {}
  | .unreadable error => { status := .unreadable, error }
  | .present bytes =>
    if maximumComponentConfigurationBytes < bytes.length then
      { status := .damaged, error := qstr "Component configuration exceeds the size limit: " ++ path }
    else
      let parsed := parseComponentConfiguration number unicode catalog bytes
      match parsed.value with
      | some state => { status := .valid, state }
      | none =>
        { status := if hasUnsupportedFormat parsed.errors then .unsupported else .damaged
          error := qstr "Invalid component configuration in " ++ path ++ qstr ": " ++ describeErrors parsed.errors }

def readSnapshot (file : SnapshotFile) : StoreProgram ReadResult := do
  let content ← Program.ask (StoreCall.read file)
  return snapshotResult number unicode catalog (paths.path file) content

def ComponentStore.write (file : SnapshotFile) (state : ComponentConfiguration) : StoreProgram (Option QString) :=
  Program.ask (StoreCall.write file state)

def protectedDefaultMatchesCatalog (state : ComponentConfiguration) : Option QString :=
  match state.components.lookup workspaceSwitcherId, catalog.entries.lookup workspaceSwitcherId with
  | some desired, some live =>
    if desired.packageDigest ≠ live.packageDigest then
      some (qstr "Protected component defaults do not match the workspace catalog digest")
    else
      let id := workspaceSwitcherDefaultInstanceId
      match state.instances.lookup id, state.bars.lookup defaultBarLayoutId with
      | some placed, some layout =>
        if state.revision ≠ 0 || state.components.length ≠ 1 || !desired.enabled || desired.grantedCapabilities ≠ [] ||
            desired.settings ≠ [] || state.instances.length ≠ 1 || placed.componentId ≠ workspaceSwitcherId || !placed.enabled ||
            placed.settings ≠ workspaceSwitcherDefaultSettings || state.bars.length ≠ 1 || layout.outputs.mode ≠ qstr "all" ||
            layout.outputs.names ≠ [] || layout.start ≠ [id] || layout.center ≠ [] || layout.end ≠ [] then
          some (qstr "Protected component defaults do not match the compiled first-run composition")
        else none
      | _, _ => some (qstr "Protected component defaults do not match the compiled first-run composition")
  | _, _ => some (qstr "Protected component defaults do not match the workspace catalog digest")

def componentSettingsFromLegacy (legacy : LegacyWorkspaceSettings) : Option QJsonObject :=
  (migrateWorkspaceSwitcherLabelMode (.ofList [
    (qstr "labelMode", .string legacy.labelMode), (qstr "showApplications", .bool legacy.showApplications),
    (qstr "maximumApplications", .double (.finite legacy.maximumApplications.toNat)),
    (qstr "occupiedOnly", .bool legacy.occupiedOnly), (qstr "scrollMode", .string legacy.scrollMode)])).filter
      isValidWorkspaceSwitcherSettings

/-- The first configuration, with the legacy settings in its one instance. -/
def initialConfiguration (defaults : ComponentConfiguration) (legacy : Option LegacyWorkspaceSettings) : ComponentConfiguration :=
  match legacy.bind componentSettingsFromLegacy with
  | some settings =>
    let placed := (defaults.instances.lookup workspaceSwitcherDefaultInstanceId).getD {}
    { defaults with instances := QMap.insert workspaceSwitcherDefaultInstanceId { placed with settings } defaults.instances }
  | none => defaults

end Reading

section Store
variable (number : NumberText) (unicode : UnicodeTables) (paths : ComponentPaths) (catalog : ConfigurationCatalog)

def ComponentStore.migrate (current : ComponentConfiguration) : StoreProgram ComponentMigrationResult :=
  match migrationCandidate number unicode current catalog with
  | none => return { state := current }
  | some next => do
    match ← ComponentStore.write .recovery next with
    | some error => return { writable := false, state := current, error }
    | none =>
      match ← ComponentStore.write .active next with
      | some error => return { changed := true, writable := false, state := next, error }
      | none => return { changed := true, state := next }

def ComponentStore.recognizesMigration (current candidate : ComponentConfiguration) : Bool :=
  migrationCandidate number unicode current catalog = some candidate

/-- The state of the active file, with the last good one brought up to it. -/
def ComponentStore.loadActive (active recovery : ReadResult) : StoreProgram ComponentLoadResult := do
  let migrated ← ComponentStore.migrate number unicode catalog active.state
  if migrated.changed || !migrated.writable then
    return { available := true, writable := migrated.writable, state := migrated.state
             loadState := if migrated.writable then .normal else .unavailable, error := migrated.error }
  else if recovery.status ≠ .valid || recovery.state ≠ active.state then
    match ← ComponentStore.write .recovery active.state with
    | some error => return { available := true, state := active.state, error }
    | none => return { available := true, writable := true, state := active.state, loadState := .normal }
  else return { available := true, writable := true, state := active.state, loadState := .normal }

/-- The state of the last good file, which becomes the active one. -/
def ComponentStore.loadRecovery (recovery : ReadResult) : StoreProgram ComponentLoadResult := do
  let migrated ← ComponentStore.migrate number unicode catalog recovery.state
  if migrated.changed || !migrated.writable then
    return { available := true, writable := migrated.writable, state := migrated.state
             loadState := if migrated.writable then .recovered else .unavailable, error := migrated.error }
  else
    match ← ComponentStore.write .active recovery.state with
    | some error => return { available := true, state := recovery.state, error }
    | none => return { available := true, writable := true, state := recovery.state, loadState := .recovered }

def ComponentStore.loadDefaults (firstRun : Bool) (legacy : Option LegacyWorkspaceSettings) : StoreProgram ComponentLoadResult := do
  let defaults ← readSnapshot number unicode paths catalog .defaults
  if defaults.status ≠ .valid then
    return { loadState := if defaults.status = .unsupported then .unsupported else .unavailable
             error := if defaults.error = [] then qstr "Protected component defaults are unavailable" else defaults.error }
  else
    match protectedDefaultMatchesCatalog catalog defaults.state with
    | some error => return { error }
    | none =>
      let initial := initialConfiguration defaults.state (if firstRun then legacy else none)
      match ← ComponentStore.write .recovery initial with
      | some error => return { error }
      | none =>
        match ← ComponentStore.write .active initial with
        | some error => return { error }
        | none =>
          return { available := true, writable := true, state := initial, loadState := if firstRun then .normal else .defaulted }

def ComponentStore.load (legacy : Option LegacyWorkspaceSettings) : StoreProgram ComponentLoadResult := do
  let active ← readSnapshot number unicode paths catalog .active
  let recovery ← readSnapshot number unicode paths catalog .recovery
  match active.status with
  | .valid =>
    match recovery.status with
    | .unsupported => return { available := true, state := active.state, loadState := .unsupported, error := recovery.error }
    | .unreadable => return { available := true, state := active.state, error := recovery.error }
    | .missing | .valid | .damaged => ComponentStore.loadActive number unicode catalog active recovery
  | .unsupported => return { loadState := .unsupported, error := active.error }
  | .unreadable => return { error := active.error }
  | .missing | .damaged =>
    match recovery.status with
    | .unsupported => return { loadState := .unsupported, error := recovery.error }
    | .unreadable => return { error := recovery.error }
    | .valid => ComponentStore.loadRecovery number unicode catalog recovery
    | .missing | .damaged =>
      ComponentStore.loadDefaults number unicode paths catalog (active.status = .missing && recovery.status = .missing) legacy

/-- None if the next configuration became the active one; the last write may fail. -/
def ComponentStore.persist (current next : ComponentConfiguration) : StoreProgram (Option QString) := do
  match ← ComponentStore.write .recovery current with
  | some error => return some error
  | none =>
    match ← ComponentStore.write .active next with
    | some error => return some error
    | none =>
      let _ ← ComponentStore.write .recovery next
      return none

end Store

end HyprShelld.Configuration
