import HyprShelld.Component.Contract
import HyprShelld.Component.Persistable
import HyprShelld.Support.Except
import HyprShelld.Support.OrderedMap
import HyprShelld.Surface.Plan

/-! The runtime health store: quarantine and probation in two files, each replaced as a whole. -/
namespace HyprShelld

structure ComponentRuntimeHealthRecord where
  componentId : QString
  packageDigest : QString
  state : QString
  reason : QString
  failureCount : UInt32 := 0
  deriving DecidableEq

structure ComponentRuntimePendingActivation where
  instanceId : QString
  componentId : QString
  packageDigest : QString
  deriving DecidableEq

structure ComponentRuntimeHealthState where
  revision : UInt64 := 0
  safeMode : Bool := false
  records : QMap ComponentRuntimeHealthRecord := []
  pending : QMap ComponentRuntimePendingActivation := []
  deriving DecidableEq

def recordKey (componentId packageDigest : QString) : QString := componentId ++ unit '/' :: packageDigest

def quarantined : QString := qstr "quarantined"

namespace HealthStore
open Components

def healthFormatVersion : Int := 1
def maximumHealthBytes : Int := 512 * 1024
def maximumHealthRecords : Nat := 512

inductive ReadStatus where
  | missing
  | valid
  | damaged
  | unsupported
  | unreadable
  deriving DecidableEq

structure ReadResult where
  status : ReadStatus := .missing
  state : ComponentRuntimeHealthState := {}
  error : QString := []

def readFailure (status : ReadStatus) (error : QString) : ReadResult := { status, error }
def readSuccess (state : ComponentRuntimeHealthState) : ReadResult := { status := .valid, state }

def isKnownQuarantineReason (reason : QString) : Bool :=
  reason = qstr "incomplete-startup" || reason = qstr "timeout" || reason = qstr "render-failed" ||
    reason = qstr "protocol-invalid"

def recordObject (record : ComponentRuntimeHealthRecord) : QJsonObject := QJsonObject.ofList [
  (qstr "componentId", .string record.componentId), (qstr "packageDigest", .string record.packageDigest),
  (qstr "state", .string record.state), (qstr "reason", .string record.reason),
  (qstr "failureCount", .double (.finite record.failureCount.toNat))]

def activationObject (activation : ComponentRuntimePendingActivation) : QJsonObject := QJsonObject.ofList [
  (qstr "instanceId", .string activation.instanceId), (qstr "componentId", .string activation.componentId),
  (qstr "packageDigest", .string activation.packageDigest)]

def stateObject (state : ComponentRuntimeHealthState) : QJsonObject := QJsonObject.ofList [
  (qstr "formatVersion", .double (.finite healthFormatVersion)),
  (qstr "revision", .string (decimal state.revision.toNat)),
  (qstr "safeMode", .bool state.safeMode),
  (qstr "records", .array (state.records.map fun e => .object (recordObject e.2))),
  (qstr "pending", .array (state.pending.map fun e => .object (activationObject e.2)))]

/-- The distinct packages a state speaks of. -/
def packageStates (state : ComponentRuntimeHealthState) : List QString :=
  (state.records.keys ++ state.pending.map fun e => recordKey e.2.componentId e.2.packageDigest).dedup

variable (number : NumberText)

def serialize (state : ComponentRuntimeHealthState) : QByteArray :=
  compactJson number (.object (stateObject state)) ++ [0x0a]

section Parse
variable (path : QString)

/-- Why a file that could be read is no health state. -/
structure Refusal where
  unsupported : Bool := false
  error : QString

def Refusal.status (r : Refusal) : ReadStatus := if r.unsupported then .unsupported else .damaged

abbrev HealthReads (α : Type) := Except Refusal α

def damaged (text : String) : Refusal := { error := qstr text ++ path }

def parseRecord (value : QJsonValue) : HealthReads ComponentRuntimeHealthRecord := do
  require value.isObject (damaged path "Invalid runtime health record in ")
  let object := value.toObject
  require (hasExactKeys object [qstr "componentId", qstr "packageDigest", qstr "state", qstr "reason", qstr "failureCount"])
    (damaged path "Invalid runtime health record fields in ")
  let componentId := object.value (qstr "componentId")
  let packageDigest := object.value (qstr "packageDigest")
  let recordState := object.value (qstr "state")
  let reason := object.value (qstr "reason")
  let failures := object.value (qstr "failureCount")
  let failureCount := failures.toInteger (-1)
  require (componentId.isString && isValidComponentId componentId.toString && packageDigest.isString &&
      isFullSha256Digest packageDigest.toString && recordState.isString && recordState.toString = quarantined &&
      reason.isString && isKnownQuarantineReason reason.toString && failures.isDouble &&
      failures.toDouble = .finite failureCount && 1 ≤ failureCount && failureCount ≤ 1000000)
    (damaged path "Invalid runtime health record value in ")
  pure {
    componentId := componentId.toString
    packageDigest := packageDigest.toString
    state := recordState.toString
    reason := reason.toString
    failureCount := UInt32.ofNat failureCount.toNat }

def parseRecords : List QJsonValue → QMap ComponentRuntimeHealthRecord →
    HealthReads (QMap ComponentRuntimeHealthRecord)
  | [], records => pure records
  | value :: rest, records => do
    let record ← parseRecord path value
    let key := recordKey record.componentId record.packageDigest
    require (!records.contains key) (damaged path "Duplicate runtime health record in ")
    parseRecords rest (QMap.insert key record records)

def parseActivation (value : QJsonValue) : HealthReads ComponentRuntimePendingActivation := do
  require value.isObject (damaged path "Invalid pending activation in ")
  let object := value.toObject
  require (hasExactKeys object [qstr "instanceId", qstr "componentId", qstr "packageDigest"])
    (damaged path "Invalid pending activation fields in ")
  let instanceId := object.value (qstr "instanceId")
  let componentId := object.value (qstr "componentId")
  let packageDigest := object.value (qstr "packageDigest")
  require (instanceId.isString && isLowercaseUuidV4 instanceId.toString && componentId.isString &&
      isValidComponentId componentId.toString && packageDigest.isString && isFullSha256Digest packageDigest.toString)
    (damaged path "Invalid pending activation value in ")
  pure {
    instanceId := instanceId.toString
    componentId := componentId.toString
    packageDigest := packageDigest.toString }

def parsePending : List QJsonValue → QMap ComponentRuntimePendingActivation →
    HealthReads (QMap ComponentRuntimePendingActivation)
  | [], pending => pure pending
  | value :: rest, pending => do
    let activation ← parseActivation path value
    require (!pending.contains activation.instanceId) (damaged path "Duplicate pending activation in ")
    parsePending rest (QMap.insert activation.instanceId activation pending)

def parseRoot (root : QJsonObject) : HealthReads ComponentRuntimeHealthState := do
  let version := root.value (qstr "formatVersion")
  require (version.isDouble && version.toDouble = .finite (version.toInteger (-1)))
    (damaged path "Invalid runtime health version in ")
  require (version.toInteger 0 ≤ healthFormatVersion)
    { unsupported := true, error := qstr "Unsupported runtime health version in " ++ path }
  require (version.toInteger 0 = healthFormatVersion) (damaged path "Invalid runtime health version in ")
  require (hasExactKeys root [qstr "formatVersion", qstr "revision", qstr "safeMode", qstr "records", qstr "pending"])
    (damaged path "Invalid runtime health fields in ")
  let revision := root.value (qstr "revision")
  let safeMode := root.value (qstr "safeMode")
  let records := root.value (qstr "records")
  let pending := root.value (qstr "pending")
  let value ← orError (if revision.isString then parseUnsignedRevision revision.toString else none)
    (damaged path "Invalid runtime health values in ")
  require (safeMode.isBool && records.isArray && records.toArray.length ≤ maximumHealthRecords && pending.isArray &&
      pending.toArray.length ≤ maximumHealthRecords)
    (damaged path "Invalid runtime health values in ")
  let state : ComponentRuntimeHealthState := {
    revision := value
    safeMode := safeMode.toBool
    records := ← parseRecords path records.toArray []
    pending := ← parsePending path pending.toArray [] }
  require ((packageStates state).length ≤ maximumHealthRecords) (damaged path "Too many runtime package states in ")
  pure state

def parseState (bytes : QByteArray) : ReadResult :=
  match (parseStrictJsonObject number bytes ⟨maximumHealthBytes, 8⟩).value with
  | none => readFailure .damaged (qstr "Invalid runtime health JSON in " ++ path)
  | some root =>
    match parseRoot path root with
    | .error refusal => readFailure refusal.status refusal.error
    | .ok state => readSuccess state

end Parse

/-! The files. Replacing one is atomic: a write that fails leaves the file it was to replace. -/

/-- Why the operating system refused; it is never without a text. -/
structure StorageFault where
  text : QString
  nonempty : text ≠ []

structure HealthFiles where
  active : Option QByteArray := none
  recovery : Option QByteArray := none
  deriving DecidableEq

def activeFile : QString := qstr "hyprshelld/component-runtime-health.json"
def recoveryFile : QString := qstr "hyprshelld/component-runtime-health.last-good.json"

def readFile (path : QString) (fault : Option StorageFault) (file : Option QByteArray) : ReadResult :=
  match fault, file with
  | some fault, _ => readFailure .unreadable fault.text
  | none, none => {}
  | none, some bytes =>
    if maximumHealthBytes < bytes.length then
      readFailure .unreadable (qstr "Unsafe runtime health state " ++ path)
    else parseState number path bytes

structure LoadResult where
  success : Bool := false
  state : ComponentRuntimeHealthState := {}
  error : QString := []

def loadFailure (error : QString) : LoadResult := { state := { safeMode := true }, error }

/-- What the system does to one load. -/
structure LoadFaults where
  active : Option StorageFault := none
  recovery : Option StorageFault := none
  repair : Option StorageFault := none

/-- The files afterwards and the result. At most one of the two files is repaired. -/
def load (faults : LoadFaults) (files : HealthFiles) : HealthFiles × LoadResult :=
  let active := readFile number activeFile faults.active files.active
  let recovery := readFile number recoveryFile faults.recovery files.recovery
  let isUnsafe (status : ReadStatus) : Bool := status = .unsupported || status = .unreadable
  let error := if active.error ≠ [] then active.error else recovery.error
  let repaired (files' : HealthFiles) (selected : ComponentRuntimeHealthState) : HealthFiles × LoadResult :=
    match faults.repair with
    | some fault => (files, loadFailure fault.text)
    | none => (files', { success := true, state := selected })
  let repairActive (selected : ComponentRuntimeHealthState) :=
    repaired { files with active := some (serialize number selected) } selected
  let repairRecovery (selected : ComponentRuntimeHealthState) :=
    repaired { files with recovery := some (serialize number selected) } selected
  if active.status = .missing ∧ recovery.status = .missing then (files, { success := true })
  else if isUnsafe active.status || isUnsafe recovery.status then (files, loadFailure error)
  else if active.status = .valid ∧ recovery.status = .valid then
    if active.state.revision = recovery.state.revision ∧ active.state ≠ recovery.state then
      (files, loadFailure (qstr "Runtime health snapshots disagree at one revision"))
    else if active.state.revision < recovery.state.revision then repairActive recovery.state
    else if recovery.state ≠ active.state then repairRecovery active.state
    else (files, { success := true, state := active.state })
  else if active.status = .valid then repairRecovery active.state
  else if recovery.status = .valid then repairActive recovery.state
  else (files, loadFailure error)

inductive PersistDurability where
  | notDurable
  | recoveryDurable
  | mirrored
  deriving DecidableEq

structure PersistResult where
  durability : PersistDurability := .notDurable
  error : QString := []

def PersistResult.durable (r : PersistResult) : Bool := r.durability ≠ .notDurable

/-- What the system does to one persist: refuse the targets, the recovery file or the active one. -/
structure PersistFaults where
  targets : Option StorageFault := none
  recovery : Option StorageFault := none
  active : Option StorageFault := none

/-- The files after each write, in order, and the result. The recovery write is the commit point. -/
def persist (faults : PersistFaults) (files : HealthFiles) (state : ComponentRuntimeHealthState) :
    List HealthFiles × PersistResult :=
  let bytes := serialize number state
  let validated := parseState number (qstr "<memory>") bytes
  if validated.status ≠ .valid ∨ validated.state ≠ state then
    ([], { error := qstr "Runtime health state violates storage bounds" })
  else
    match faults.targets with
    | some fault => ([], { error := fault.text })
    | none =>
      match faults.recovery with
      | some fault => ([], { error := fault.text })
      | none =>
        let committed := { files with recovery := some bytes }
        match faults.active with
        | some fault => ([committed], { durability := .recoveryDurable, error := fault.text })
        | none => ([committed, { committed with active := some bytes }], { durability := .mirrored })

end HealthStore
end HyprShelld
