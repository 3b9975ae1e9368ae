import HyprShelld.Authority.Transaction

/-! The operations of the configuration authority. -/
namespace HyprShelld.Compositor
open Hyprland

namespace ConfigurationTransaction
variable (g : Setting)

section Loading

/-- A load that stops leaves the state it had reached and a text. -/
abbrev Loads := ExceptT (ConfigurationTransaction × QString) Stored

def loadFailure {α : Type} (t : ConfigurationTransaction) (message : QString) : Loads α := throw (t, message)

def loadUnless (condition : Bool) (t : ConfigurationTransaction) (message : String) : Loads Unit :=
  if condition then pure () else loadFailure t (qstr message)

def loadRead (file : StoreFile) : Loads StoreReadResult := ExceptT.lift (readStore file)

def loadWrite (t : ConfigurationTransaction) (file : StoreFile) (bytes : QByteArray) : Loads Unit := do
  match ← ExceptT.lift (writeStore file bytes) with
  | .success => pure ()
  | .failure message | .committedButNotDurable message => loadFailure t message

/-- The text of the first file that is there and cannot be read. -/
def unreadable (reads : List StoreReadResult) : Option QString :=
  reads.findSome? fun
    | .unavailable message => some message
    | _ => none

def isMissing : StoreReadResult → Bool
  | .missing => true
  | _ => false

/-- The bytes of the desired snapshot; the first start writes the default. -/
def loadDesiredBytes (t : ConfigurationTransaction) (desiredRead lastGoodRead activationRead : StoreReadResult) :
    Loads (ConfigurationTransaction × QByteArray) :=
  match desiredRead with
  | .present bytes => pure (t, bytes)
  | _ =>
    if isMissing lastGoodRead then do
      loadUnless (isMissing activationRead) t "Activation metadata exists without either desired snapshot"
      let desired := defaultDesiredState g.platform g.catalog g.actions
      let desiredBytes := serializeDesiredState g.platform desired
      let t := { t with desired, desiredBytes }
      loadWrite t .desired desiredBytes
      pure ({ t with loadState := qstr "defaulted" }, desiredBytes)
    else
      loadFailure t (qstr
        "The desired snapshot is missing while last-good exists; monotonic revision recovery is unavailable")

/-- The desired state under the current authority, and whether it was stored under another. -/
def loadDesired (t : ConfigurationTransaction) (bytes : QByteArray) : Loads (ConfigurationTransaction × Bool) :=
  match parseCompatibleDesiredState g.platform g.catalog g.actions bytes with
  | none => loadFailure t (qstr "The desired snapshot is invalid or outside compatible authority")
  | some parsed =>
    match currentAuthorityState g.platform g.catalog g.actions parsed with
    | none => loadFailure t (qstr "The desired snapshot cannot be migrated to current authority")
    | some desired => do
      let desiredBytes := serializeDesiredState g.platform desired
      let t := { t with desired, desiredBytes }
      loadUnless (parsed.migrates || desiredBytes = bytes) t "The desired snapshot is not canonical"
      let loadState := if desired.readOnly then qstr "unsupported" else t.loadState
      pure ({ t with desiredDigest := g.platform.sha256 desiredBytes, loadState }, parsed.migrates)

def migrateDesired (t : ConfigurationTransaction) (migrates : Bool) : Loads ConfigurationTransaction := do
  (if migrates then loadWrite t .desired t.desiredBytes else pure ())
  pure t

/-- What proves an applied generation after a restart. -/
def appliedProof (state : DesiredState) (bytes : QByteArray) (record : AppliedRecord) : PendingRecord where
  candidate := state
  candidateBytes := bytes
  snapshotDigest := record.snapshotDigest
  after := record

def crossCheckApplied (t : ConfigurationTransaction) (record : PendingRecord) : Loads Unit := do
  match ← ExceptT.lift (crossCheckGeneration g record).run with
  | .ok () => pure ()
  | .error message => loadFailure t message

/-- The last-good snapshot and the activation record, which agree. -/
def loadApplied (t : ConfigurationTransaction) (lastGoodBytes activationBytes : QByteArray) : Loads ConfigurationTransaction :=
  match (parseCompatibleDesiredState g.platform g.catalog g.actions lastGoodBytes).filter (!·.state.readOnly),
      parseAppliedBytes g.platform activationBytes with
  | some parsed, some record => do
    loadUnless (record.revision = parsed.state.revision && record.snapshotDigest = g.platform.sha256 lastGoodBytes) t
      "Last-good and activation metadata disagree"
    crossCheckApplied g t (appliedProof parsed.state lastGoodBytes record)
    match currentAuthorityState g.platform g.catalog g.actions parsed with
    | none => loadFailure t (qstr "The last-good snapshot cannot be migrated to current authority")
    | some appliedState => pure { t with
        applied := some record
        appliedState := some appliedState
        lastGoodBytes
        desiredSemanticallyMatchesApplied := record.revision = t.desired.revision && appliedState = t.desired }
  | _, _ => loadFailure t (qstr "Last-good and activation metadata disagree")

def loadMirrors (t : ConfigurationTransaction) (lastGoodRead activationRead : StoreReadResult) :
    Loads ConfigurationTransaction :=
  match lastGoodRead, activationRead with
  | .present lastGoodBytes, .present activationBytes => loadApplied g t lastGoodBytes activationBytes
  | .present _, _ => loadFailure t (qstr "Last-good state exists without activation metadata")
  | _, .present _ => loadFailure t (qstr "Activation metadata exists without last-good state")
  | _, _ => pure { t with applied := none, appliedState := none, lastGoodBytes := [] }

def loadSnapshots (t : ConfigurationTransaction) : Loads ConfigurationTransaction := do
  let t := { t with desiredSemanticallyMatchesApplied := false }
  let desiredRead ← loadRead .desired
  let lastGoodRead ← loadRead .lastGood
  let activationRead ← loadRead .activation
  match unreadable [desiredRead, lastGoodRead, activationRead] with
  | some message => loadFailure t message
  | none => do
    let (t, bytes) ← loadDesiredBytes g t desiredRead lastGoodRead activationRead
    let (t, migrates) ← loadDesired g t bytes
    let t ← loadMirrors g t lastGoodRead activationRead
    migrateDesired t migrates

/-- A process that could not start has no authority. -/
def startFailure (t : ConfigurationTransaction) (message : QString) : Stored (ConfigurationTransaction × AuthorityResult) :=
  refuse g { t with failed := true, initialized := false, loadState := qstr "unavailable" } "Unavailable" message

def initializeAuthority (t : ConfigurationTransaction) : Stored (ConfigurationTransaction × AuthorityResult) :=
  if t.initialized then t.refuse g "Unavailable" (qstr "The compositor authority was already initialized")
  else do
    match ← openStore with
    | .error message => t.startFailure g message
    | .ok () => do
      match ← openGenerations with
      | .error message => refuse g { t with failed := true } "Unavailable" message
      | .ok () => do
        let (t, reconciled) ← reconcilePending g { t with initialized := true, loadState := qstr "normal" }
        match reconciled with
        | .error message => t.startFailure g message
        | .ok () => do
          match ← (loadSnapshots g t).run with
          | .error (t, message) => t.startFailure g message
          | .ok t => t.succeed g

end Loading

section Replacing
variable (t : ConfigurationTransaction)

/-- The state of a candidate that may be edited and names the revision it expects. -/
def readCandidate (expectedRevision : UInt64) (candidateBytes : QByteArray) : Except QString DesiredState :=
  let parsed := parseDesiredState g.platform candidateBytes g.catalog g.actions
  match if parsed.ok then parsed.value else none with
  | none => .error (describeErrors parsed.errors)
  | some state =>
    if !state.readOnly && state.revision = expectedRevision then .ok state
    else .error (qstr "The candidate must embed the current expected revision")

def desiredRevisionChanged : QString := qstr "The desired revision changed"

/-- The retry of a write whose answer was lost. -/
def retryReplace (state : DesiredState) : Stored (ConfigurationTransaction × AuthorityResult) :=
  if serializeDesiredState g.platform { state with revision := t.desired.revision } = t.desiredBytes then t.succeed g
  else t.refuse g "StaleRevision" desiredRevisionChanged

/-- The next desired state, checked once more in the form it is stored in. -/
def publishDesired (next : DesiredState) : Stored (ConfigurationTransaction × AuthorityResult) :=
  let canonical := serializeDesiredState g.platform next
  let revalidated := parseDesiredState g.platform canonical g.catalog g.actions
  if !(revalidated.ok && revalidated.value = some next) then
    t.refuse g "InvalidSnapshot" (qstr "The incremented candidate failed canonical validation")
  else
    let safetyErrors := validateManagedActivationSafety next g.catalog
    if safetyErrors ≠ [] then t.refuse g "InvalidSnapshot" (describeErrors safetyErrors)
    else do
      match ← writeStore .desired canonical with
      | .success =>
        succeed g { t with
          desired := next
          desiredBytes := canonical
          desiredDigest := g.platform.sha256 canonical
          desiredSemanticallyMatchesApplied := false
          loadState := qstr "normal" }
      | .failure message => t.persistenceFailed g (.failure message)
      | .committedButNotDurable message => t.persistenceFailed g (.committedButNotDurable message)

def replaceSnapshot (expectedRevision : UInt64) (candidateBytes : QByteArray) :
    Stored (ConfigurationTransaction × AuthorityResult) :=
  if t.unavailable then t.refuse g "Unavailable" (qstr "The compositor authority is unavailable")
  else if t.desired.readOnly then t.refuse g "ReadOnly" (qstr "The desired snapshot is read-only")
  else
    let currentToken := expectedRevision = t.desired.revision
    let possibleRetry := expectedRevision ≠ maximumRevision ∧ expectedRevision + 1 = t.desired.revision
    if ¬ currentToken ∧ ¬ possibleRetry then t.refuse g "StaleRevision" desiredRevisionChanged
    else
      match readCandidate g expectedRevision candidateBytes with
      | .error message => t.refuse g "InvalidSnapshot" message
      | .ok state =>
        if possibleRetry then t.retryReplace g state
        else if t.pending.isSome then
          t.refuse g "ConfirmationPending" (qstr "A compositor transaction is already pending")
        else if serializeDesiredState g.platform state = t.desiredBytes then t.succeed g
        else if expectedRevision = maximumRevision then
          t.refuse g "RevisionExhausted" (qstr "The desired revision cannot advance")
        else t.publishDesired g { state with revision := expectedRevision + 1 }

end Replacing

section Preparing
variable (t : ConfigurationTransaction)

/-- The journal of a candidate whose generation was published. -/
def journal (kind : PendingKind) (expectedRevision : UInt64) (candidate : DesiredState) (candidateBytes : QByteArray)
    (nonce : QString) (published : VerifiedGeneration) : PendingRecord where
  kind
  phase := .prepared
  expectedRevision
  beforeDesiredDigest := t.desiredDigest
  candidate
  candidateBytes
  snapshotDigest := g.platform.sha256 candidateBytes
  after := {
    revision := published.revision
    snapshotDigest := g.platform.sha256 candidateBytes
    generation := published.id
    nonce
    entrypoint := published.entrypoint
    requirement := activationRequirementForDelta g.platform g.catalog t.appliedState candidate }
  before := t.applied

def preparedGeneration (published : VerifiedGeneration) (nonce : QString) (requirement : ActivationRequirement) :
    ActivationGeneration where
  id := published.id
  nonce
  snapshotDigest := published.snapshotDigest
  revision := published.revision
  directory := published.directory
  entrypoint := published.entrypoint
  manifest := published.manifest
  requirement

def isDeferred (error : ValidationError) : Bool :=
  error.code = qstr "renderer.broker-unavailable" || error.code = qstr "renderer.uwsm-unavailable"

/-- The journal is verified against its generation and written. -/
def writeJournal (transaction : PendingRecord) (published : VerifiedGeneration) :
    Stored (ConfigurationTransaction × AuthorityResult) := do
  match ← (crossCheckGeneration g transaction).run with
  | .error message => t.refuse g "VerificationFailed" message
  | .ok () => do
    match ← writeStore .pending (pendingBytes g.platform transaction) with
    | .success =>
      let t := { t with pending := some transaction }
      pure (t, {
        success := true
        snapshot := t.snapshot g
        prepared := some (preparedGeneration published transaction.after.nonce transaction.after.requirement) })
    | .failure message => t.persistenceFailed g (.failure message)
    | .committedButNotDurable message => t.persistenceFailed g (.committedButNotDurable message)

def stageCandidate (expectedRevision : UInt64) (nonce : QString) (createdAt : QDateTime) (kind : PendingKind)
    (candidate : DesiredState) (candidateBytes : QByteArray) : Stored (ConfigurationTransaction × AuthorityResult) :=
  let safetyErrors := validateManagedActivationSafety candidate g.catalog
  if safetyErrors ≠ [] then t.refuse g "VerificationFailed" (describeErrors safetyErrors)
  else
    let rendered := renderGeneration g.platform candidate g.catalog g.actions (g.directoryForNonce nonce) g.userCustomPath
      nonce createdAt
    match if rendered.ok then rendered.value else none with
    | none =>
      t.refuse g (if rendered.errors.any isDeferred then "ActivationRequired" else "VerificationFailed")
        (describeErrors rendered.errors)
    | some generation => do
      let requirement := activationRequirementForDelta g.platform g.catalog t.appliedState candidate
      match ← publishGeneration { generation with activationRequirement := requirement } with
      | .error message => t.refuse g "VerificationFailed" message
      | .ok published =>
        t.writeJournal g (t.journal g kind expectedRevision candidate candidateBytes nonce published) published

/-- A recovery takes the applied state under the next revision. -/
def prepare (expectedRevision : UInt64) (nonce : QString) (createdAt : QDateTime) (recovery : Bool) :
    Stored (ConfigurationTransaction × AuthorityResult) :=
  if t.unavailable then t.refuse g "Unavailable" (qstr "The compositor authority is unavailable")
  else if t.desired.readOnly then
    t.refuse g "ReadOnly" (qstr "The desired snapshot is compatibility-preserved read-only")
  else if t.pending.isSome then t.refuse g "ApplyFailed" (qstr "A compositor transaction is already pending")
  else if expectedRevision ≠ t.desired.revision then t.refuse g "StaleRevision" desiredRevisionChanged
  else if !recovery then
    t.stageCandidate g expectedRevision nonce createdAt .apply t.desired (serializeDesiredState g.platform t.desired)
  else
    match t.appliedState with
    | none => t.refuse g "RecoveryUnavailable" (qstr "No successfully applied snapshot is available")
    | some appliedState =>
      if expectedRevision = maximumRevision then
        t.refuse g "RevisionExhausted" (qstr "The desired revision cannot advance")
      else
        let candidate : DesiredState := { appliedState with revision := expectedRevision + 1 }
        t.stageCandidate g expectedRevision nonce createdAt .recovery candidate (serializeDesiredState g.platform candidate)

def prepareApply (expectedRevision : UInt64) (nonce : QString) (createdAt : QDateTime) :
    Stored (ConfigurationTransaction × AuthorityResult) :=
  t.prepare g expectedRevision nonce createdAt false

def prepareRecovery (expectedRevision : UInt64) (nonce : QString) (createdAt : QDateTime) :
    Stored (ConfigurationTransaction × AuthorityResult) :=
  t.prepare g expectedRevision nonce createdAt true

/-- The desired state is exactly the one that runs. -/
def exactAppliedBaseline : Bool :=
  t.applied.any fun record => record.revision = t.desired.revision &&
    (record.snapshotDigest = t.desiredDigest || t.desiredSemanticallyMatchesApplied) &&
    decide (t.appliedState = some t.desired)

def prepareDisplayApply (expectedRevision : UInt64) (profile : DisplayProfile) (topology : ConnectedDisplayTopology)
    (nonce : QString) (createdAt : QDateTime) : Stored (ConfigurationTransaction × AuthorityResult) :=
  if t.unavailable then t.refuse g "Unavailable" (qstr "The compositor authority is unavailable")
  else if t.desired.readOnly then t.refuse g "ReadOnly" (qstr "The desired snapshot is read-only")
  else if t.pending.isSome then t.refuse g "ConfirmationPending" (qstr "A compositor transaction is already pending")
  else if expectedRevision ≠ t.desired.revision then t.refuse g "StaleRevision" desiredRevisionChanged
  else if !t.exactAppliedBaseline then
    t.refuse g "DisplayScopeConflict" (qstr "A display preview requires the exact current applied baseline")
  else
    let candidate := buildDisplayCandidate g.platform t.desired profile topology g.catalog g.actions
    match if candidate.ok then candidate.value else none with
    | none => t.refuse g "InvalidDisplayProfile" (describeErrors candidate.errors)
    | some value => t.stageCandidate g expectedRevision nonce createdAt .displayPreview value.state value.bytes

end Preparing

section Committing
variable (t : ConfigurationTransaction)

/-- The mirrors of a commit decision, in their durable order. -/
def publishCommitted (record : PendingRecord) : Checks Unit := do
  persistentStateMatchesBefore g record
  (if record.kind.publishesDesired then writeFile .desired record.candidateBytes else pure ())
  writeFile .lastGood record.candidateBytes
  writeFile .activation (appliedBytes g.platform record.after)
  removeFile .pending

/-- The memory after a transaction went through. -/
def committed (record : PendingRecord) : ConfigurationTransaction :=
  let t := { t with
    pending := none
    applied := some record.after
    appliedState := some record.candidate
    lastGoodBytes := record.candidateBytes
    desiredSemanticallyMatchesApplied := false
    loadState := if record.kind = .recovery then qstr "recovered" else qstr "normal" }
  if record.kind.publishesDesired then
    { t with desired := record.candidate, desiredBytes := record.candidateBytes, desiredDigest := record.snapshotDigest }
  else t

def noPrepared : QString := qstr "No prepared compositor transaction exists"
def otherGeneration : QString := qstr "The generation does not match the pending transaction"

/-- Once the decision is durable, startup owns every failure. -/
def decided (t : ConfigurationTransaction) (durable : Bool) (message : QString) :
    Stored (ConfigurationTransaction × AuthorityResult) :=
  let t := { t with failed := true }
  pure (t, { t.fail g "PersistenceFailed" message with commitDecisionDurable := durable, commitDecisionMayExist := true })

def commitApply (generation : QString) : Stored (ConfigurationTransaction × AuthorityResult) :=
  match if t.unavailable then none else t.pending with
  | none => t.refuse g "ApplyFailed" noPrepared
  | some pending =>
    if pending.after.generation ≠ generation then t.refuse g "VerificationFailed" otherGeneration
    else if pending.phase ≠ .prepared then
      t.refuse g "ApplyFailed" (qstr "The compositor transaction already has a durable commit decision")
    else do
      match ← (crossCheckGeneration g pending).run with
      | .error message => t.refuse g "VerificationFailed" message
      | .ok () => do
        let committing := { pending with phase := .committing }
        match ← writeStore .pending (pendingBytes g.platform committing) with
        | .failure message => t.refuse g "PersistenceFailed" message
        | .committedButNotDurable message => t.decided g false message
        | .success => do
          match ← (publishCommitted g committing).run with
          | .error message => decided g { t with pending := some committing } true message
          | .ok () =>
            let t := t.committed committing
            pure (t, { success := true, commitDecisionDurable := true, commitDecisionMayExist := true, snapshot := t.snapshot g })

def abortApply (generation : QString) : Stored (ConfigurationTransaction × AuthorityResult) :=
  match if t.unavailable then none else t.pending with
  | none => t.refuse g "ApplyFailed" noPrepared
  | some pending =>
    if pending.after.generation ≠ generation then t.refuse g "VerificationFailed" otherGeneration
    else if pending.phase ≠ .prepared then
      refuse g { t with failed := true } "ApplyFailed" (qstr "A confirmed commit decision cannot be aborted")
    else do
      match ← (persistentStateMatchesBefore g pending).run with
      | .error message => refuse g { t with failed := true } "ApplyFailed" message
      | .ok () => do
        match ← (removeFile .pending).run with
        | .error message => refuse g { t with failed := true } "PersistenceFailed" message
        | .ok () => succeed g { t with pending := none }

end Committing
end ConfigurationTransaction
end HyprShelld.Compositor
