import HyprShelld.Coordinator.EffectivePlan
import HyprShelld.Coordinator.HealthStore

/-! The plan controller: what is published, what is quarantined and what is on probation. -/
namespace HyprShelld.PlanController
open Components HealthStore

inductive State where
  | hydrating
  | authoritative
  | retained
  | unavailable
  deriving DecidableEq

/-- What a write to the health files is for. -/
inductive Purpose where
  | repair
  | incompleteStartup
  | planChange
  | authorization
  | cancellation
  | stability (componentId packageDigest : QString)
  | failure
  | retry (componentId packageDigest : QString)
  deriving DecidableEq

structure Controller where
  state : State := .hydrating
  artifact : Option SurfacePlanArtifact := none
  catalog : Option RuntimeCatalogSnapshot := none
  configuration : Option RuntimeConfigurationSnapshot := none
  /-- The files of the health store, where there is one. -/
  healthStore : Option HealthFiles
  health : ComponentRuntimeHealthState := {}
  probationActive : Bool := false
  healthInitialized : Bool
  lastError : QString := []
  /-- What the system is about to do to the persists of this operation. -/
  faults : List PersistFaults := []
  /-- The files after each write of this operation, in order, and what it was for. -/
  written : List (Purpose × HealthFiles) := []

/-- A controller without a health store, and one that has yet to read its files. -/
def withoutStore : Controller := { healthStore := none, healthInitialized := true }
def withStore (files : HealthFiles) : Controller := { healthStore := some files, healthInitialized := false }

def describeErrors (errors : ValidationErrors) : QString :=
  join (errors.map fun e => e.path ++ qstr " [" ++ e.code ++ qstr "]: " ++ e.message) (qstr "; ")

variable (number : NumberText) (unicode : UnicodeTables) (sha256 : QByteArray → QString)

section Health
variable (c : Controller)

def thirdPartySafeMode : Bool := c.health.safeMode || !c.healthInitialized

def maximumRevision : UInt64 := UInt64.ofNat (2 ^ 64 - 1)

/-- A commit that cannot be made turns third parties off. -/
def refuseHealth : Controller :=
  { c with health := { c.health with safeMode := true }, probationActive := false }

def persistHealth (purpose : Purpose) (next : ComponentRuntimeHealthState) : Controller × PersistResult :=
  match c.healthStore with
  | none => (c, { durability := .mirrored })
  | some files =>
    let persisted := persist number (c.faults.headD {}) files next
    ({ c with
      healthStore := some (persisted.1.getLastD files)
      faults := c.faults.tail
      written := c.written ++ persisted.1.map (purpose, ·) }, persisted.2)

/-- The controller afterwards and the error, if the commit was refused. -/
def commitHealth (purpose : Purpose) (next : ComponentRuntimeHealthState) : Controller × Option QString :=
  if c.health.revision = maximumRevision ∨ maximumHealthRecords < next.records.length ∨
      maximumHealthRecords < next.pending.length ∨ maximumHealthRecords < (packageStates next).length then
    (refuseHealth c, some (qstr "Runtime health storage bounds are exhausted"))
  else
    let next := { next with revision := c.health.revision + 1 }
    let (c, persisted) := persistHealth number c purpose next
    if persisted.durable then ({ c with health := next }, none)
    else (refuseHealth c, some persisted.error)

/-- The record of a package that has failed once more. The count wraps before it is compared. -/
def quarantinedRecord (records : QMap ComponentRuntimeHealthRecord) (componentId packageDigest reason : QString) :
    ComponentRuntimeHealthRecord :=
  let previous := ((records.lookup (recordKey componentId packageDigest)).map (·.failureCount)).getD 0
  { componentId, packageDigest, state := quarantined, reason, failureCount := max 1 (previous + 1) }

def quarantineRecord (records : QMap ComponentRuntimeHealthRecord) (componentId packageDigest reason : QString) :
    QMap ComponentRuntimeHealthRecord :=
  QMap.insert (recordKey componentId packageDigest) (quarantinedRecord records componentId packageDigest reason) records

/-- Every pending activation becomes a quarantine. -/
def quarantineAll (health : ComponentRuntimeHealthState) (reason : QString) : ComponentRuntimeHealthState :=
  { health with
    records := health.pending.foldl
      (fun records e => quarantineRecord records e.2.componentId e.2.packageDigest reason) health.records
    pending := [] }

def isQuarantined (health : ComponentRuntimeHealthState) (componentId packageDigest : QString) : Bool :=
  (health.records.lookup (recordKey componentId packageDigest)).any (·.state = quarantined)

/-- The controller with what a load found in its files. -/
def withLoaded (files : HealthFiles) (loaded : HealthFiles × LoadResult) : Controller := { c with
  healthStore := some loaded.1
  written := if loaded.1 = files then c.written else c.written ++ [(.repair, loaded.1)]
  health := loaded.2.state
  healthInitialized := true }

def initializeRuntimeHealth (faults : LoadFaults) : Controller × Option QString :=
  match c.healthInitialized, c.healthStore with
  | false, some files =>
    let loaded := load number faults files
    let c := withLoaded c files loaded
    if !loaded.2.success then ({ c with health := { c.health with safeMode := true } }, some loaded.2.error)
    else if c.health.pending ≠ [] then
      commitHealth number c .incompleteStartup (quarantineAll c.health (qstr "incomplete-startup"))
    else (c, none)
  | _, _ => (c, none)

end Health

section Publication

/-- A declarative instance of exactly this package. -/
def runs (componentId packageDigest : QString) (i : SurfaceInstance) : Bool :=
  i.runtimeKind = declarativeKind && i.componentId = componentId && i.packageDigest = packageDigest

def stripThirdParty (plan : SurfacePlan) : SurfacePlan :=
  removeInstances plan fun id => (plan.instances.lookup id).any (·.runtimeKind ≠ builtinKind)

def filterQuarantined (health : ComponentRuntimeHealthState) (plan : SurfacePlan) : SurfacePlan :=
  removeInstances plan fun id => (plan.instances.lookup id).any fun i =>
    i.runtimeKind ≠ builtinKind && isQuarantined health i.componentId i.packageDigest

/-- The activations a plan leaves in probation. -/
def keptPending (c : Controller) (plan : SurfacePlan) : QMap ComponentRuntimePendingActivation :=
  if c.artifact.any (·.plan ≠ plan) then []
  else c.health.pending.filter fun e =>
    (plan.instances.lookup e.1).any (runs e.2.componentId e.2.packageDigest)

def preparePending (c : Controller) (plan : SurfacePlan) : Controller × Option QString :=
  let next := { c.health with pending := keptPending c plan }
  if next = c.health then ({ c with probationActive := c.health.pending ≠ [] }, none)
  else
    match commitHealth number c .planChange next with
    | (c, some error) => ({ c with probationActive := false }, some error)
    | (c, none) => ({ c with probationActive := c.health.pending ≠ [] }, none)

/-- A publication up to the artifact: the error of the artifact, or whether the health is durable. -/
def tryPublish (c : Controller) (plan : SurfacePlan) (state : State) (allowThirdParty : Bool) (error : QString) :
    Controller × Except QString Bool :=
  let plan :=
    if !allowThirdParty || thirdPartySafeMode c then stripThirdParty plan else filterQuarantined c.health plan
  let (c, healthError) := preparePending number c plan
  let plan := if healthError.isSome then stripThirdParty plan else plan
  let artifact := makeSurfacePlanArtifact number unicode sha256 plan
  match artifact.value with
  | none => (c, .error (describeErrors artifact.errors))
  | some made =>
    let healthError := healthError.getD []
    ({ c with
      artifact := some made
      state := state
      lastError := if healthError ≠ [] then healthError else error }, .ok (healthError = []))

def setFailedState (c : Controller) (error : QString) : Controller :=
  match c.artifact with
  -- a retained plan whose artifact is refused is dropped without a further state
  | some artifact => (tryPublish number unicode sha256 c artifact.plan .retained false error).1
  | none =>
    let (c, healthError) := preparePending number c {}
    let healthError := healthError.getD []
    { c with state := .unavailable, lastError := if healthError ≠ [] then healthError else error }

def publishPlan (c : Controller) (plan : SurfacePlan) (state : State) (allowThirdParty : Bool) (error : QString) :
    Controller × Bool :=
  match tryPublish number unicode sha256 c plan state allowThirdParty error with
  | (c, .ok durable) => (c, durable)
  | (c, .error artifactError) =>
    (if state = .authoritative then setFailedState number unicode sha256 c artifactError else c, false)

def rebuildAuthoritativePlan (c : Controller) : Controller :=
  match c.catalog, c.configuration with
  | some catalog, some configuration =>
    let plan := buildSurfacePlan number unicode catalog configuration
    match plan.value with
    | none => setFailedState number unicode sha256 c (describeErrors plan.errors)
    | some plan => (publishPlan number unicode sha256 c plan .authoritative true []).1
  | _, _ => c

/-- Commit and, whether or not it was possible, rebuild. -/
def commitAndRebuild (c : Controller) (purpose : Purpose) (next : ComponentRuntimeHealthState) :
    Controller × Option QString :=
  let (c, error) := commitHealth number c purpose next
  (rebuildAuthoritativePlan number unicode sha256 c, error)

/-- Commit, and rebuild only where that was refused. -/
def commitOrRebuild (c : Controller) (purpose : Purpose) (next : ComponentRuntimeHealthState) :
    Controller × Option QString :=
  match commitHealth number c purpose next with
  | (c, some error) => (rebuildAuthoritativePlan number unicode sha256 c, some error)
  | (c, none) => (c, none)

end Publication

section Operations
variable (c : Controller)

def beginHydration : Controller :=
  match c.artifact with
  | some artifact => (publishPlan number unicode sha256 c artifact.plan .retained false []).1
  | none => { c with state := .hydrating, lastError := [] }

def acceptSnapshots (catalog : RuntimeCatalogSnapshot) (configuration : RuntimeConfigurationSnapshot) :
    Controller × Bool :=
  let plan := buildSurfacePlan number unicode catalog configuration
  match plan.value with
  | none => (setFailedState number unicode sha256 c (describeErrors plan.errors), false)
  | some plan =>
    publishPlan number unicode sha256 { c with catalog := some catalog, configuration := some configuration } plan
      .authoritative true []

/-- The plan of this revision, where it is published as authoritative. -/
def currentPlan (surfacePlanRevision : UInt64) : Option SurfacePlan :=
  if c.state = .authoritative then (c.artifact.filter (·.revision = surfacePlanRevision)).map (·.plan) else none

def mainLayoutIds (plan : SurfacePlan) : List QString :=
  match plan.barLayouts.lookup (qstr "main") with
  | some layout => layout.start ++ layout.center ++ layout.end
  | none => []

def authorizePending (health : ComponentRuntimeHealthState) (plan : SurfacePlan) :
    List QString → QMap ComponentRuntimePendingActivation → Except QString (QMap ComponentRuntimePendingActivation)
  | [], pending => pure pending
  | instanceId :: rest, pending =>
    match plan.instances.lookup instanceId with
    | none => .error (qstr "The main surface plan is inconsistent")
    | some i =>
      if i.runtimeKind ≠ declarativeKind then authorizePending health plan rest pending
      else if isQuarantined health i.componentId i.packageDigest then
        .error (qstr "The surface plan contains a quarantined package")
      else if (pending.lookup instanceId).any fun a => a.componentId ≠ i.componentId || a.packageDigest ≠ i.packageDigest then
        .error (qstr "A pending activation belongs to another package")
      else authorizePending health plan rest
        (QMap.insert instanceId ⟨instanceId, i.componentId, i.packageDigest⟩ pending)

def staleError : QString := qstr "The surface plan is stale or unavailable"

def authorizeSurfacePlan (surfacePlanRevision : UInt64) : Controller × Option QString :=
  if thirdPartySafeMode c then (c, some staleError)
  else
    match currentPlan c surfacePlanRevision with
    | none => (c, some staleError)
    | some plan =>
      match authorizePending c.health plan (mainLayoutIds plan) c.health.pending with
      | .error error => (c, some error)
      | .ok pending =>
        let next := { c.health with pending }
        if next = c.health then ({ c with probationActive := c.probationActive || c.health.pending ≠ [] }, none)
        else
          match commitOrRebuild number unicode sha256 c .authorization next with
          | (c, some error) => (c, some error)
          | (c, none) => ({ c with probationActive := true }, none)

def cancelSurfacePlanAuthorization (surfacePlanRevision : UInt64) : Controller × Option QString :=
  if (currentPlan c surfacePlanRevision).isNone then (c, some staleError)
  else if c.health.pending = [] then (c, none)
  else
    match commitOrRebuild number unicode sha256 c .cancellation { c.health with pending := [] } with
    | (c, some error) => (c, some error)
    | (c, none) => ({ c with probationActive := false }, none)

def matchesInstance (instanceId componentId packageDigest : QString) (surfacePlanRevision : UInt64) : Bool :=
  (currentPlan c surfacePlanRevision).any fun plan => (plan.instances.lookup instanceId).any (runs componentId packageDigest)

def activationStable (instanceId componentId packageDigest : QString) (surfacePlanRevision : UInt64) :
    Controller × Option QString :=
  if !matchesInstance c instanceId componentId packageDigest surfacePlanRevision then
    (c, some (qstr "The activation tuple is stale or invalid"))
  else
    match c.health.pending.lookup instanceId with
    | none => (c, some (qstr "The activation is not in probation"))
    | some pending =>
      if pending.componentId ≠ componentId ∨ pending.packageDigest ≠ packageDigest then
        (c, some (qstr "The activation tuple does not match probation"))
      else
        match commitOrRebuild number unicode sha256 c (.stability componentId packageDigest)
          { c.health with pending := QMap.remove instanceId c.health.pending } with
        | (c, some error) => (c, some error)
        | (c, none) => ({ c with probationActive := c.probationActive && c.health.pending ≠ [] }, none)

def activationFailed (instanceId componentId packageDigest : QString) (surfacePlanRevision : UInt64) (reason : QString) :
    Controller × Option QString :=
  if reason ≠ qstr "render-failed" ∧ reason ≠ qstr "protocol-invalid" then
    (c, some (qstr "The activation failure reason is invalid"))
  else if !matchesInstance c instanceId componentId packageDigest surfacePlanRevision then
    (c, some (qstr "The activation tuple is stale or invalid"))
  else commitAndRebuild number unicode sha256 c .failure { c.health with
    records := quarantineRecord c.health.records componentId packageDigest reason
    pending := c.health.pending.filter fun e => !(e.2.componentId = componentId && e.2.packageDigest = packageDigest) }

def retryComponent (componentId packageDigest : QString) (expectedRuntimeHealthRevision : UInt64) :
    Controller × Option QString :=
  if expectedRuntimeHealthRevision ≠ c.health.revision then (c, some (qstr "The runtime health state changed"))
  else if !isQuarantined c.health componentId packageDigest then
    (c, some (qstr "The exact component package is not quarantined"))
  else commitAndRebuild number unicode sha256 c (.retry componentId packageDigest)
    { c.health with records := QMap.remove (recordKey componentId packageDigest) c.health.records }

def quarantinePending (reason : QString) : Controller :=
  if c.health.pending = [] then c
  else (commitAndRebuild number unicode sha256 c .failure (quarantineAll c.health reason)).1

/-- The timer fires only while it runs, and only once. -/
def probationTimeout : Controller :=
  if c.probationActive then quarantinePending number unicode sha256 { c with probationActive := false } (qstr "timeout")
  else c

end Operations

inductive Operation where
  | initializeRuntimeHealth (faults : LoadFaults)
  | beginHydration
  | acceptSnapshots (catalog : RuntimeCatalogSnapshot) (configuration : RuntimeConfigurationSnapshot)
  | hydrationFailed (error : QString)
  | sourceUnavailable (error : QString)
  | authorizeSurfacePlan (surfacePlanRevision : UInt64)
  | cancelSurfacePlanAuthorization (surfacePlanRevision : UInt64)
  | activationStable (instanceId componentId packageDigest : QString) (surfacePlanRevision : UInt64)
  | activationFailed (instanceId componentId packageDigest : QString) (surfacePlanRevision : UInt64) (reason : QString)
  | retryComponent (componentId packageDigest : QString) (expectedRuntimeHealthRevision : UInt64)
  | probationTimeout

/-- The controller afterwards and whether success was reported. -/
def perform (c : Controller) : Operation → Controller × Bool
  | .initializeRuntimeHealth faults => (initializeRuntimeHealth number c faults).map id (·.isNone)
  | .beginHydration => (beginHydration number unicode sha256 c, true)
  | .acceptSnapshots catalog configuration => acceptSnapshots number unicode sha256 c catalog configuration
  | .hydrationFailed error | .sourceUnavailable error => (setFailedState number unicode sha256 c error, true)
  | .authorizeSurfacePlan revision => (authorizeSurfacePlan number unicode sha256 c revision).map id (·.isNone)
  | .cancelSurfacePlanAuthorization revision =>
    (cancelSurfacePlanAuthorization number unicode sha256 c revision).map id (·.isNone)
  | .activationStable instanceId componentId packageDigest revision =>
    (activationStable number unicode sha256 c instanceId componentId packageDigest revision).map id (·.isNone)
  | .activationFailed instanceId componentId packageDigest revision reason =>
    (activationFailed number unicode sha256 c instanceId componentId packageDigest revision reason).map id (·.isNone)
  | .retryComponent componentId packageDigest revision =>
    (retryComponent number unicode sha256 c componentId packageDigest revision).map id (·.isNone)
  | .probationTimeout => (probationTimeout number unicode sha256 c, true)

/-- An operation, what the system does to its persists, and after how many of its writes the process dies,
if it does. -/
structure Event where
  operation : Operation
  faults : List PersistFaults := []
  cut : Option Nat := none

/-- A process started on what the last one left. -/
def restarted (before after : Controller) (writes : Nat) : Controller :=
  match before.healthStore with
  | none => withoutStore
  | some files => withStore (((after.written.map (·.2)).take writes).getLastD files)

def step (c : Controller) (e : Event) : Controller :=
  let after := (perform number unicode sha256 { c with faults := e.faults, written := [] } e.operation).1
  match e.cut with
  | none => after
  | some writes => restarted c after writes

end HyprShelld.PlanController
