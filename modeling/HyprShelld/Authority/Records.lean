import HyprShelld.Authority.Compatible
import HyprShelld.Authority.Requirement
import HyprShelld.Component.Contract
import HyprShelld.Desired.RoundTrip

/-! The activation record and the journal of a pending transaction. -/
namespace HyprShelld

/-- An integral double in the range of an int, else the default. -/
def QJsonValue.toInt (v : QJsonValue) (fallback : Int) : Int :=
  (v.finite?.bind fun q => if q.den = 1 ∧ -2 ^ 31 ≤ q ∧ q < 2 ^ 31 then some q.num else none).getD fallback

namespace Compositor
open Hyprland

def maximumMetadataBytes : Nat := 4 * 1024 * 1024

def parseRevisionText (text : QString) : Option UInt64 :=
  if text.isEmpty || (decide (1 < text.length) && text.head? = some (unit '0')) then none
  else if !text.all (fun u => decide (unit '0' ≤ u) && decide (u ≤ unit '9')) then none
  else (toULongLong text).map UInt64.ofNat

def validSha256 (value : QString) : Bool := value.length = 64 && value.all isLowerHex

def parseRequirement (name : QString) : Option ActivationRequirement :=
  if name = qstr "reload" then some .reload
  else if name = qstr "restart" then some .restart
  else if name = qstr "session" then some .session
  else none

structure AppliedRecord where
  revision : UInt64 := 0
  snapshotDigest : QString
  generation : QString
  nonce : QString
  entrypoint : QString
  requirement : ActivationRequirement := .reload
  deriving DecidableEq

def appliedObject (record : AppliedRecord) : QJsonObject :=
  .ofList [(qstr "formatVersion", integer 1), (qstr "revision", .string (decimal record.revision.toNat)),
    (qstr "snapshotDigest", .string record.snapshotDigest), (qstr "generation", .string record.generation),
    (qstr "activationNonce", .string record.nonce), (qstr "entrypoint", .string record.entrypoint),
    (qstr "requiredActivation", .string (activationRequirementName record.requirement))]

def appliedFields : List QString :=
  ["formatVersion", "revision", "snapshotDigest", "generation", "activationNonce", "entrypoint",
    "requiredActivation"].map qstr

def textAt (object : QJsonObject) (key : String) : QString := (object.value (qstr key)).toString

def parseAppliedObject (object : QJsonObject) : Option AppliedRecord := do
  guard (hasExactKeys object appliedFields)
  guard ((object.value (qstr "formatVersion")).toInt (-1) = 1)
  let revision ← parseRevisionText (textAt object "revision")
  let snapshotDigest := textAt object "snapshotDigest"
  let generation := textAt object "generation"
  let nonce := textAt object "activationNonce"
  let entrypoint := textAt object "entrypoint"
  guard (snapshotDigest.length = 64 ∧ generation.length = 64)
  guard (32 ≤ nonce.length ∧ nonce.length ≤ 128)
  guard (entrypoint ≠ [])
  let requirement ← parseRequirement (textAt object "requiredActivation")
  return { revision, snapshotDigest, generation, nonce, entrypoint, requirement }

inductive PendingKind where
  | apply
  | recovery
  | displayPreview
  deriving DecidableEq

inductive PendingPhase where
  | prepared
  | committing
  deriving DecidableEq

def PendingKind.name : PendingKind → QString
  | .apply => qstr "apply"
  | .recovery => qstr "recovery"
  | .displayPreview => qstr "display-preview"

def PendingPhase.name : PendingPhase → QString
  | .prepared => qstr "prepared"
  | .committing => qstr "committing"

/-- A recovery or a display preview publishes its candidate as the desired state. -/
def PendingKind.publishesDesired : PendingKind → Bool
  | .apply => false
  | .recovery | .displayPreview => true

def parseKind (name : QString) : Option PendingKind :=
  [PendingKind.apply, .recovery, .displayPreview].find? (·.name = name)

def parsePhase (name : QString) : Option PendingPhase := [PendingPhase.prepared, .committing].find? (·.name = name)

structure PendingRecord where
  kind : PendingKind := .apply
  phase : PendingPhase := .prepared
  expectedRevision : UInt64 := 0
  beforeDesiredDigest : QString := []
  candidate : DesiredState
  candidateBytes : QByteArray
  snapshotDigest : QString
  after : AppliedRecord
  before : Option AppliedRecord := none
  deriving DecidableEq

def maximumRevision : UInt64 := 18446744073709551615

section Codec
variable (p : Platform)

def appliedBytes (record : AppliedRecord) : QByteArray := canonicalJson p (.object (appliedObject record)) ++ [0x0a]

/-- The object of a strict parse that reported nothing. -/
def strictObject (bytes : QByteArray) (maximumBytes maximumDepth : Int) : Option QJsonObject :=
  let parsed := parseStrictObject p bytes maximumBytes maximumDepth
  if parsed.ok then parsed.value else none

def parseAppliedBytes (bytes : QByteArray) : Option AppliedRecord := do
  let object ← strictObject p bytes maximumMetadataBytes 16
  let record ← parseAppliedObject object
  guard (appliedBytes p record = bytes)
  return record

def snapshotObject (bytes : QByteArray) : QJsonObject := (strictObject p bytes maximumDesiredStateBytes 64).getD []

def pendingObject (pending : PendingRecord) : QJsonObject :=
  .ofList [(qstr "formatVersion", integer 1), (qstr "kind", .string pending.kind.name),
    (qstr "phase", .string pending.phase.name),
    (qstr "expectedRevision", .string (decimal pending.expectedRevision.toNat)),
    (qstr "beforeDesiredDigest", .string pending.beforeDesiredDigest),
    (qstr "candidateSnapshot", .object (snapshotObject p pending.candidateBytes)),
    (qstr "snapshotDigest", .string pending.snapshotDigest), (qstr "afterActivation", .object (appliedObject pending.after)),
    (qstr "beforeActivation", pending.before.elim .null fun record => .object (appliedObject record))]

def pendingBytes (pending : PendingRecord) : QByteArray := canonicalJson p (.object (pendingObject p pending)) ++ [0x0a]

def pendingFields : List QString :=
  ["formatVersion", "kind", "phase", "expectedRevision", "beforeDesiredDigest", "candidateSnapshot", "snapshotDigest",
    "afterActivation", "beforeActivation"].map qstr

def parseBefore (v : QJsonValue) : Option (Option AppliedRecord) :=
  match v with
  | .null => some none
  | .object object => (parseAppliedObject object).map some
  | _ => none

/-- The revision of a candidate against the one it was prepared for. -/
def revisionFollows (kind : PendingKind) (expectedRevision revision : UInt64) : Bool :=
  if kind.publishesDesired then expectedRevision ≠ maximumRevision && revision = expectedRevision + 1
  else revision = expectedRevision

def parsePendingBytes (catalog : Catalog) (actions : ActionCatalog) (bytes : QByteArray) : Option PendingRecord := do
  let object ← strictObject p bytes maximumMetadataBytes 64
  guard (hasExactKeys object pendingFields)
  guard ((object.value (qstr "formatVersion")).toInt (-1) = 1)
  let expectedRevision ← parseRevisionText (textAt object "expectedRevision")
  let beforeDesiredDigest := textAt object "beforeDesiredDigest"
  guard (validSha256 beforeDesiredDigest)
  guard ((object.value (qstr "candidateSnapshot")).isObject ∧ (object.value (qstr "afterActivation")).isObject)
  let kind ← parseKind (textAt object "kind")
  let phase ← parsePhase (textAt object "phase")
  let candidateBytes := canonicalJson p (object.value (qstr "candidateSnapshot")) ++ [0x0a]
  let candidate ← parseCompatibleDesiredState p catalog actions candidateBytes
  let after ← parseAppliedObject (object.value (qstr "afterActivation")).toObject
  guard (after.revision = candidate.state.revision ∧ after.snapshotDigest = p.sha256 candidateBytes)
  guard (textAt object "snapshotDigest" = after.snapshotDigest)
  let before ← parseBefore (object.value (qstr "beforeActivation"))
  guard (revisionFollows kind expectedRevision candidate.state.revision)
  guard (kind = .apply → beforeDesiredDigest = after.snapshotDigest)
  let record : PendingRecord := {
    kind, phase, expectedRevision, beforeDesiredDigest, candidate := candidate.state, candidateBytes,
    snapshotDigest := after.snapshotDigest, after, before }
  guard (pendingBytes p record = bytes)
  return record

end Codec
end Compositor
end HyprShelld
