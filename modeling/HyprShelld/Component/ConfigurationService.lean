import HyprShelld.Component.ConfigurationStore

/-! The service that holds the component configuration: catalogs come and go, and a client replaces the
configuration it has read. -/
namespace HyprShelld.Configuration
open Components

structure ComponentConfigService where
  state : ComponentConfiguration := {}
  catalog : ConfigurationCatalog := ⟨[], []⟩
  catalogDigest : QString := []
  loadState : QString := qstr "unavailable"
  available : Bool := false
  writable : Bool := false
  catalogAvailable : Bool := false
  loadedOnce : Bool := false
  legacyWorkspaceSettings : Option LegacyWorkspaceSettings := none

/-- The name of a failure and its message. -/
structure ServiceError where
  name : QString
  message : QString
  deriving DecidableEq

def errorPrefix : QString := qstr "org.hyprshelld.ComponentConfig1.Error."

def serviceError (name message : String) : ServiceError := ⟨errorPrefix ++ qstr name, qstr message⟩

namespace ComponentConfigService

def setCatalogUnavailable (service : ComponentConfigService) : ComponentConfigService := { service with catalogAvailable := false }

/-- The revision, the catalog digest and the written configuration. -/
def GetSnapshot (number : NumberText) (service : ComponentConfigService) : Except ServiceError (UInt64 × QString × QByteArray) :=
  if !service.available then .error (serviceError "Unavailable" "Component configuration is unavailable")
  else .ok (service.state.revision, service.catalogDigest, serializeComponentConfiguration number service.state)

end ComponentConfigService

section Dormant
variable (catalog : ConfigurationCatalog) (state candidate : ComponentConfiguration)

/-- The regions of a layout under their names. -/
def regionsOf (layout : BarLayout) : List (QString × List QString) :=
  [(qstr "start", layout.start), (qstr "center", layout.center), (qstr "end", layout.end)]

def regionPlacement (layout : QString × BarLayout) (instanceId : QString) (region : QString × List QString) : Option QString :=
  if region.2.contains instanceId then
    some (layout.1 ++ qstr "/" ++ layout.2.outputs.mode ++ qstr "/" ++ (qstr "\n").intercalate layout.2.outputs.names ++
      qstr "/" ++ region.1 ++ qstr "/" ++ decimal (region.2.idxOf instanceId))
  else none

def placementOf (configuration : ComponentConfiguration) (instanceId : QString) : QString :=
  (configuration.bars.findSome? fun layout => (regionsOf layout.2).findSome? (regionPlacement layout instanceId)).getD []

def isDormant (id : QString) (desired : DesiredComponent) : Bool :=
  match catalog.entries.lookup id with
  | some live => live.packageDigest ≠ desired.packageDigest
  | none => true

/-- The disabled record of the package that the catalog has now. -/
def adoptsUpdatedUserPackage (id : QString) (desired proposed : DesiredComponent) : Bool :=
  match catalog.entries.lookup id with
  | some live =>
    live.origin = .user && desired.packageDigest ≠ live.packageDigest && proposed.packageDigest = live.packageDigest &&
      !proposed.enabled && proposed.grantedCapabilities = []
  | none => false

def preservesRecord (id : QString) (desired : DesiredComponent) : Bool :=
  match candidate.components.lookup id with
  | some proposed => proposed = desired || adoptsUpdatedUserPackage catalog id desired proposed
  | none => false

def preservesLayouts (instanceId : QString) : Bool :=
  state.bars.all fun layout =>
    !(layout.2.start.contains instanceId || layout.2.center.contains instanceId || layout.2.end.contains instanceId) ||
      candidate.bars.lookup layout.1 = some layout.2

/-- None if an instance of a dormant component is where it was and what it was. -/
def preservesInstance (entry : QString × ComponentInstance) : Option QString :=
  if candidate.instances.lookup entry.1 ≠ some entry.2 || placementOf candidate entry.1 ≠ placementOf state entry.1 then
    some (qstr "Dormant instances and placements must be preserved unchanged")
  else if !preservesLayouts state candidate entry.1 then
    some (qstr "A layout containing a dormant instance must be preserved unchanged")
  else none

def preservesComponent (entry : QString × DesiredComponent) : Option QString :=
  if !isDormant catalog entry.1 entry.2 then none
  else if !preservesRecord catalog candidate entry.1 entry.2 then
    some (qstr "Dormant component records must be preserved unchanged")
  else (state.instances.filter (·.2.componentId = entry.1)).findSome? (preservesInstance state candidate)

def dormantIds : List QString :=
  (state.components.filter fun entry => isDormant catalog entry.1 entry.2).map (·.1)

/-- None if the candidate keeps everything that is dormant. -/
def preservesDormantState : Option QString :=
  (state.components.findSome? (preservesComponent catalog state candidate)).or <|
    (candidate.components.findSome? fun entry =>
      if isDormant catalog entry.1 entry.2 && !(dormantIds catalog state).contains entry.1 then
        some (qstr "New dormant component records are not accepted")
      else none).or <|
    candidate.instances.findSome? fun entry =>
      if (dormantIds catalog state).contains entry.2.componentId && !state.instances.contains entry.1 then
        some (qstr "New dormant component instances are not accepted")
      else none

end Dormant

namespace ComponentConfigService
variable (number : NumberText) (unicode : UnicodeTables) (paths : ComponentPaths)

/-- The configuration that a client puts in the place of the current one. -/
def checkCandidate (service : ComponentConfigService) (expectedRevision : UInt64) (expectedCatalogDigest : QString)
    (candidateSnapshot : QByteArray) : Except ServiceError ComponentConfiguration :=
  if !service.available || !service.writable then
    .error (serviceError "Unavailable" "Component configuration is not writable")
  else if !service.catalogAvailable then
    .error (serviceError "CatalogUnavailable" "The authoritative component catalog is unavailable")
  else if expectedRevision ≠ service.state.revision then
    .error (serviceError "StaleRevision" "The component configuration changed; read it again")
  else if expectedCatalogDigest ≠ service.catalog.digest then
    .error (serviceError "StaleCatalogDigest" "The component catalog changed; read it again")
  else
    match (parseComponentConfiguration number unicode service.catalog candidateSnapshot).value with
    | none => .error (serviceError "InvalidSnapshot" "The proposed component configuration is invalid")
    | some candidate =>
      if candidate.revision ≠ expectedRevision then
        .error (serviceError "InvalidSnapshot" "The embedded revision does not match the expected revision")
      else
        match preservesDormantState service.catalog service.state candidate with
        | some error => .error ⟨errorPrefix ++ qstr "InvalidSnapshot", error⟩
        | none => .ok candidate

/-- The revision that the call returns is that of the service after it. -/
def ReplaceSnapshot (service : ComponentConfigService) (expectedRevision : UInt64) (expectedCatalogDigest : QString)
    (candidateSnapshot : QByteArray) : StoreProgram (ComponentConfigService × Option ServiceError) :=
  match checkCandidate number unicode service expectedRevision expectedCatalogDigest candidateSnapshot with
  | .error error => return (service, some error)
  | .ok candidate =>
    if candidate = service.state then return (service, none)
    else if service.state.revision.toNat = maximumUnsigned64 then
      return (service, some (serviceError "RevisionExhausted" "The component configuration revision is exhausted"))
    else do
      let next := { candidate with revision := service.state.revision + 1 }
      match ← ComponentStore.persist service.state next with
      | some error => return (service, some ⟨errorPrefix ++ qstr "PersistenceFailed", error⟩)
      | none => return ({ service with state := next }, none)

/-- The first load of a service. -/
def loadFirst (service : ComponentConfigService) (catalog : ConfigurationCatalog) : StoreProgram ComponentConfigService := do
  let loaded ← ComponentStore.load number unicode paths catalog service.legacyWorkspaceSettings
  return { service with
    state := loaded.state
    writable := loaded.writable
    loadedOnce := loaded.available
    legacyWorkspaceSettings := if loaded.available then none else service.legacyWorkspaceSettings
    available := loaded.available
    loadState := componentLoadStateName loaded.loadState }

/-- A service that could not write tries again, and keeps to the state it has. -/
def loadAgain (service : ComponentConfigService) (catalog : ConfigurationCatalog) : StoreProgram ComponentConfigService := do
  let retried ← ComponentStore.load number unicode paths catalog none
  if retried.available && (retried.state = service.state ||
      ComponentStore.recognizesMigration number unicode catalog service.state retried.state) then
    return { service with
      state := retried.state, writable := retried.writable, loadState := componentLoadStateName retried.loadState }
  else return service

def migrateState (service : ComponentConfigService) (catalog : ConfigurationCatalog) : StoreProgram ComponentConfigService := do
  let migrated ← ComponentStore.migrate number unicode catalog service.state
  let service := if migrated.changed then { service with state := migrated.state } else service
  if migrated.writable then return service
  else return { service with writable := false, loadState := componentLoadStateName .unavailable }

/-- The catalog is taken up if the configuration reads the same under it. -/
def takeCatalog (service : ComponentConfigService) (catalog : ConfigurationCatalog) : ComponentConfigService :=
  let revalidated := parseComponentConfiguration number unicode catalog (serializeComponentConfiguration number service.state)
  if service.loadedOnce && service.available && revalidated.value ≠ some service.state then setCatalogUnavailable service
  else { service with catalogAvailable := true, catalogDigest := catalog.digest, catalog }

def applyCatalog (service : ComponentConfigService) (catalog : ConfigurationCatalog) : StoreProgram ComponentConfigService :=
  if !isFullSha256Digest catalog.digest then return setCatalogUnavailable service
  else do
    let service ←
      (if !service.loadedOnce then loadFirst number unicode paths service catalog
      else if service.available && !service.writable then loadAgain number unicode paths service catalog
      else if service.available then migrateState number unicode service catalog
      else pure service)
    return takeCatalog number unicode service catalog

end ComponentConfigService

end HyprShelld.Configuration
