import HyprShelld.Authority.Store
import HyprShelld.Desired.Safety
import HyprShelld.Display.Merge

/-! The configuration authority: the desired and the applied state in memory, and the transaction that
takes the one to the other. -/
namespace HyprShelld.Compositor
open Hyprland

section Results

structure AuthoritySnapshot where
  available : Bool := false
  writable : Bool := false
  desiredState : QByteArray := []
  appliedDesiredState : QByteArray := []
  revision : UInt64 := 0
  catalogDigest : QString := []
  actionCatalogDigest : QString := []
  loadState : QString := qstr "unavailable"
  appliedRevision : UInt64 := 0
  applyState : QString := qstr "unavailable"
  requiredActivation : Option ActivationRequirement := none
  generationDigest : QString := []
  deriving DecidableEq

structure ActivationGeneration where
  id : QString
  nonce : QString
  snapshotDigest : QString
  revision : UInt64 := 0
  directory : QString
  entrypoint : QString
  manifest : QByteArray
  requirement : ActivationRequirement := .reload
  deriving DecidableEq

structure AuthorityResult where
  success : Bool := false
  commitDecisionDurable : Bool := false
  commitDecisionMayExist : Bool := false
  errorCode : QString := []
  errorMessage : QString := []
  snapshot : AuthoritySnapshot
  prepared : Option ActivationGeneration := none
  deriving DecidableEq

end Results

/-- What a process holds of the authority. -/
structure ConfigurationTransaction where
  initialized : Bool := false
  failed : Bool := false
  loadState : QString := qstr "unavailable"
  desired : DesiredState := {}
  desiredBytes : QByteArray := []
  desiredDigest : QString := []
  appliedState : Option DesiredState := none
  lastGoodBytes : QByteArray := []
  applied : Option AppliedRecord := none
  pending : Option PendingRecord := none
  desiredSemanticallyMatchesApplied : Bool := false

/-- What the authority was made with. -/
structure Setting where
  platform : Platform
  catalog : Catalog
  actions : ActionCatalog
  configRoot : QString
  managedConfigRoot : QString
  hexDigests : WritesHexDigests platform

namespace Setting

def userCustomPath (g : Setting) : QString := filePath g.configRoot (qstr "user-custom.lua")
def generationsPath (g : Setting) : QString := filePath g.managedConfigRoot (qstr "generations")
def directoryForNonce (g : Setting) (nonce : QString) : QString := filePath g.generationsPath nonce

end Setting

/-- The first four errors. -/
def describeErrors (errors : ValidationErrors) : QString :=
  join ((errors.take 4).map fun error => error.code ++ qstr ": " ++ error.message) (qstr "; ")

/-- Steps that stop at the first refusal, with its text. -/
abbrev Checks := ExceptT QString Stored

section Calls

def refuseUnless (condition : Bool) (message : String) : Checks Unit :=
  if condition then pure () else throw (qstr message)

def read (file : StoreFile) : Checks StoreReadResult := ExceptT.lift (readStore file)

def writeFile (file : StoreFile) (bytes : QByteArray) : Checks Unit := do
  match ← ExceptT.lift (writeStore file bytes) with
  | .success => pure ()
  | .failure message | .committedButNotDurable message => throw message

def removeFile (file : StoreFile) : Checks Unit := do
  match ← ExceptT.lift (removeStored file) with
  | .success => pure ()
  | .failure message | .committedButNotDurable message => throw message

def verify (nonce : QString) : Checks VerifiedGeneration := do
  match ← ExceptT.lift (verifyGeneration nonce) with
  | .ok generation => pure generation
  | .error message => throw message

end Calls

namespace ConfigurationTransaction
variable (g : Setting)

section Memory
variable (t : ConfigurationTransaction)

def unavailable : Bool := !t.initialized || t.failed

def isCurrent : Bool :=
  match t.applied with
  | some record => (record.snapshotDigest = t.desiredDigest || t.desiredSemanticallyMatchesApplied) && t.pending.isNone
  | none => false

/-- What losing the desired state leaves to tell. -/
def unavailableSnapshot : AuthoritySnapshot where
  loadState := if t.failed then qstr "unavailable" else t.loadState
  applyState := if t.failed then qstr "failed" else qstr "unavailable"
  appliedRevision := t.applied.elim 0 (·.revision)
  generationDigest := t.applied.elim [] (·.generation)

def snapshot : AuthoritySnapshot :=
  if t.unavailable || t.desiredBytes.isEmpty then t.unavailableSnapshot
  else {
    available := true
    writable := !t.desired.readOnly && t.pending.isNone
    desiredState := t.desiredBytes
    appliedDesiredState := t.appliedState.elim [] (serializeDesiredState g.platform)
    revision := t.desired.revision
    catalogDigest := t.desired.catalogDigest
    actionCatalogDigest := t.desired.actionCatalogDigest
    loadState := t.loadState
    appliedRevision := t.applied.elim 0 (·.revision)
    generationDigest := t.applied.elim [] (·.generation)
    applyState :=
      if t.desired.readOnly then qstr "retained"
      else if t.isCurrent then qstr "current"
      else if t.applied.isSome then qstr "retained"
      else qstr "inactive"
    requiredActivation :=
      if t.desired.readOnly || t.isCurrent then none
      else some (match t.pending with
        | some pending => pending.after.requirement
        | none => activationRequirementForDelta g.platform g.catalog t.appliedState t.desired) }

def fail (code : String) (message : QString) : AuthorityResult :=
  { errorCode := qstr code, errorMessage := message, snapshot := t.snapshot g }

/-- The operation ends here, with an error. -/
def refuse (code : String) (message : QString) : Stored (ConfigurationTransaction × AuthorityResult) :=
  pure (t, t.fail g code message)

def succeed : Stored (ConfigurationTransaction × AuthorityResult) :=
  pure (t, { success := true, snapshot := t.snapshot g })

/-- A write that may have happened without being durable ends the authority of this process. -/
def persistenceFailed (result : StoreOperationResult) : Stored (ConfigurationTransaction × AuthorityResult) :=
  let t := if result.uncertain then { t with failed := true } else t
  t.refuse g "PersistenceFailed" result.errorMessage

end Memory

section Checking

def readCanonicalSnapshot (file : StoreFile) : Checks (QByteArray × DesiredState) := do
  match ← read file with
  | .missing => throw (qstr "A required compositor snapshot is missing")
  | .unavailable message => throw message
  | .present bytes =>
    match parseCompatibleDesiredState g.platform g.catalog g.actions bytes with
    | none => throw (qstr "A persistent compositor snapshot is invalid or non-canonical")
    | some parsed => pure (bytes, parsed.state)

def desiredChanged : String := "The desired snapshot changed after the transaction was prepared"

/-- The activation record of the transaction, or none, is still there. -/
def activationMatchesBefore (record : PendingRecord) : Checks Unit := do
  match ← read .activation, record.before with
  | .present bytes, some before =>
    refuseUnless (bytes = appliedBytes g.platform before) "The activation tuple changed after the transaction was prepared"
  | _, some _ => throw (qstr "The activation tuple changed after the transaction was prepared")
  | .missing, none => pure ()
  | .present _, none => throw (qstr "An activation tuple appeared after the transaction was prepared")
  | .unavailable message, none => throw message

def lastGoodMatchesBefore (record : PendingRecord) : Checks Unit := do
  match ← read .lastGood, record.before with
  | .missing, some _ => throw (qstr "The prior last-good snapshot disappeared")
  | .unavailable message, _ => throw message
  | .present bytes, some before =>
    refuseUnless ((parseCompatibleDesiredState g.platform g.catalog g.actions bytes).any fun parsed =>
      !parsed.state.readOnly && parsed.state.revision = before.revision &&
        g.platform.sha256 bytes = before.snapshotDigest) "The prior last-good snapshot changed after prepare"
  | .missing, none => pure ()
  | .present _, none => throw (qstr "A last-good snapshot appeared after the transaction was prepared")

def persistentStateMatchesBefore (record : PendingRecord) : Checks Unit := do
  let (bytes, state) ← readCanonicalSnapshot g .desired
  refuseUnless (state.revision = record.expectedRevision && g.platform.sha256 bytes = record.beforeDesiredDigest)
    desiredChanged
  activationMatchesBefore g record
  lastGoodMatchesBefore g record

def catalogAuthorityCompatible (digest : QString) : Bool :=
  digest = catalogDigest g.platform g.catalog ||
    (acceptsBindingsQuarantineAuthority g.platform g.catalog &&
      (digest = preDeviceQuarantineCatalogDigest || digest = deviceQuarantineCatalogDigest))

def actionAuthorityCompatible (digest : QString) : Bool :=
  digest = actionCatalogDigest g.actions ||
    (acceptsPreSharedSpacingAuthority g.actions && digest = preSharedSpacingActionCatalogDigest)

def manifestMatches (candidate : DesiredState) (manifest : QJsonObject) : Bool :=
  textAt manifest "catalogDigest" = candidate.catalogDigest &&
    textAt manifest "actionCatalogDigest" = candidate.actionCatalogDigest &&
    textAt manifest "targetHyprland" = candidate.targetHyprland &&
    manifest.value (qstr "compatibleHyprland") = .object (compatibleHyprland g.catalog)

def crossCheckGeneration (record : PendingRecord) : Checks Unit := do
  let generation ← verify record.after.nonce
  refuseUnless (generation.id = record.after.generation && generation.entrypoint = record.after.entrypoint &&
    generation.snapshotDigest = record.snapshotDigest && generation.revision = record.candidate.revision)
    "The immutable generation does not match the transaction journal"
  refuseUnless ((strictObject g.platform generation.manifest maximumMetadataBytes 32).any
      (manifestMatches g record.candidate) &&
    catalogAuthorityCompatible g record.candidate.catalogDigest &&
    actionAuthorityCompatible g record.candidate.actionCatalogDigest)
    "The generation is outside the active catalog authority"

end Checking

section Recovery

def readActivation : Checks (Option AppliedRecord) := do
  match ← read .activation with
  | .missing => pure none
  | .unavailable message => throw message
  | .present bytes =>
    match parseAppliedBytes g.platform bytes with
    | none => throw (qstr "The activation record is invalid during recovery")
    | some record => pure (some record)

/-- Whether the last-good snapshot is the one before the transaction, and the one after it. -/
def readLastGood (record : PendingRecord) : Checks (Bool × Bool) := do
  match ← read .lastGood with
  | .missing => pure (record.before.isNone, false)
  | .unavailable message => throw message
  | .present bytes =>
    match (parseCompatibleDesiredState g.platform g.catalog g.actions bytes).filter (!·.state.readOnly) with
    | none => throw (qstr "Pending recovery found an invalid last-good snapshot")
    | some parsed =>
      let digest := g.platform.sha256 bytes
      pure (record.before.any fun before => parsed.state.revision = before.revision && digest = before.snapshotDigest,
        parsed.state.revision = record.candidate.revision && digest = record.snapshotDigest)

def writeCommitted (file : StoreFile) (bytes : QByteArray) : Checks Unit := do
  match ← ExceptT.lift (writeStore file bytes) with
  | .success => pure ()
  | _ => throw (qstr "Cannot roll forward a confirmed compositor transaction")

/-- A prepared transaction is taken back, a committing one is carried through. -/
def settlePending (record : PendingRecord) : Checks Unit := do
  crossCheckGeneration g record
  let (bytes, state) ← readCanonicalSnapshot g .desired
  let digest := g.platform.sha256 bytes
  let desiredIsBefore := state.revision = record.expectedRevision && digest = record.beforeDesiredDigest
  let desiredIsAfter := state.revision = record.candidate.revision && digest = record.snapshotDigest
  refuseUnless (desiredIsBefore || desiredIsAfter) "Pending recovery found an unrelated desired snapshot"
  let activation ← readActivation g
  let activationIsBefore := activation = record.before
  let activationIsAfter := activation = some record.after
  refuseUnless (activationIsBefore || activationIsAfter) "Pending recovery found an unrelated activation tuple"
  let (lastGoodIsBefore, lastGoodIsAfter) ← readLastGood g record
  refuseUnless (lastGoodIsBefore || lastGoodIsAfter) "Pending recovery found an unrelated last-good snapshot"
  if record.phase = .prepared then do
    refuseUnless (desiredIsBefore && activationIsBefore && lastGoodIsBefore)
      "Prepared transaction recovery found modified authority state"
    removeFile .pending
  else do
    refuseUnless (!((activationIsAfter && (!desiredIsAfter || !lastGoodIsAfter)) || (lastGoodIsAfter && !desiredIsAfter)))
      "Confirmed transaction mirrors violate durable write order"
    writeCommitted .desired record.candidateBytes
    writeCommitted .lastGood record.candidateBytes
    writeCommitted .activation (appliedBytes g.platform record.after)
    removeFile .pending

def reconcilePending (t : ConfigurationTransaction) : Stored (ConfigurationTransaction × Except QString Unit) := do
  match ← readStore .pending with
  | .missing => pure (t, .ok ())
  | .unavailable message => pure (t, .error message)
  | .present bytes =>
    match parsePendingBytes g.platform g.catalog g.actions bytes with
    | none => pure (t, .error (qstr "The pending compositor transaction is invalid"))
    | some record => do
      match ← (settlePending g record).run with
      | .ok () => pure ({ t with pending := none, loadState := qstr "recovered" }, .ok ())
      | .error message => pure ({ t with pending := some record }, .error message)

end Recovery
end ConfigurationTransaction
end HyprShelld.Compositor
