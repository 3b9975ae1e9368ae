import HyprShelld.Desired.CrossChecks

/-! Parsing of a desired state against its two authorities. -/
namespace HyprShelld.Hyprland

variable (p : Platform)

/-- `(0|[1-9][0-9]*)` -/
def canonicalNumber : Pattern :=
  .either (.text "0") (.sequence (.charset [('1', '9')] 1 (some 1)) (.charset [('0', '9')] 0 none))

/-- `^N\.N(?:\.N)?$` -/
def versionExpression : Pattern :=
  .sequenceOf [canonicalNumber, .text ".", canonicalNumber, .optional (.sequence (.text ".") canonicalNumber)]

def parseTargetVersion (text : QString) : Option SemanticVersion :=
  if !hasMatch versionExpression text then none
  else
    -- the end anchor also matches before a final line feed, which no group captures
    match (text.takeWhile (· ≠ 0x0a)).splitOn (unit '.') with
    | [major, minor] => do return ⟨← toUInt major, ← toUInt minor, 0⟩
    | [major, minor, patch] => do return ⟨← toUInt major, ← toUInt minor, ← toUInt patch⟩
    | _ => none

/-- `^(0|[1-9][0-9]{0,19})$` -/
def revisionExpression : Pattern := .either (.text "0") (positive 19)

def parseRevision (text : QString) : Option UInt64 :=
  if !hasMatch revisionExpression text then none else (toULongLong (trimmed text)).map UInt64.ofNat

def readRevision (root : QJsonObject) : Reads UInt64 := do
  let text ← readString p root (qstr "revision") (qstr "$") 20
  .rejectIf (!text.isEmpty && (parseRevision text).isNone) (issue (qstr "$.revision") "state.invalid-revision"
    "Revision must be a canonical unsigned 64-bit decimal string.")
  return (parseRevision text).getD 0

def readFormatVersion (root : QJsonObject) : Reads Nat := do
  let format ← readInteger root (qstr "formatVersion") (qstr "$") 0 (2 ^ 32 - 1) currentDesiredStateFormatVersion
  .rejectIf (format ≠ currentDesiredStateFormatVersion) (issue (qstr "$.formatVersion")
    "state.unsupported-format-version" "This desired-state format version is not supported.")
  return format.toNat

/-- The target version, its compatibility and whether it makes the state read-only. -/
def readTarget (catalog : Catalog) (root : QJsonObject) : Reads (QString × CompatibilityDecision × Bool) := do
  let text ← readString p root (qstr "targetHyprland") (qstr "$") 32
  let target := parseTargetVersion text
  .rejectIf (target.isNone && !text.isEmpty) (issue (qstr "$.targetHyprland") "state.invalid-target-version"
    "A strict major.minor or major.minor.patch version is required.")
  let compatibility := (target.map (compatibilityForVersion catalog)).getD .exact
  .rejectIf (compatibility = .unsupportedOlder || compatibility = .unsupportedMajor)
    (issue (qstr "$.targetHyprland") "state.unsupported-target-version"
      "Use the matching migration/catalog contract for this target.")
  let future := compatibility = .unsupportedFuture
  let readOnlyPolicy := catalog.compatibility.newerMinor = .readOnly
  .rejectIf (future && !readOnlyPolicy) (issue (qstr "$.targetHyprland") "state.unsupported-target-version"
    "The future target is not accepted by this catalog policy.")
  return (text, compatibility, future && readOnlyPolicy)

/-- A digest field, which an editable state must have taken from its authority. -/
def readDigest (root : QJsonObject) (key : String) (readOnly : Bool) (expected : QString)
    (invalidCode mismatchCode mismatch : String) : Reads QString := do
  let digest ← readString p root (qstr key) (qstr "$") 64
  .rejectIf (!digest.isEmpty && !hasMatch digestExpression digest)
    (issue (qstr ("$." ++ key)) invalidCode "A lowercase SHA-256 digest is required.")
  .rejectIf (!readOnly && !digest.isEmpty && digest ≠ expected) (issue (qstr ("$." ++ key)) mismatchCode mismatch)
  return digest

def parseHeader (catalog : Catalog) (actionCatalog : ActionCatalog) (root : QJsonObject) :
    Reads DesiredState := do
  .rejectIf (actionCatalog.reviewedVersion ≠ catalog.hyprland.reviewedVersion ||
      actionCatalog.reviewedTag ≠ catalog.hyprland.reviewedTag ||
      actionCatalog.reviewedCommit ≠ catalog.hyprland.reviewedCommit)
    (issue (qstr "$") "state.authority-version-mismatch"
      "The scalar and action authorities were reviewed against different Hyprland sources.")
  let formatVersion ← readFormatVersion root
  let revision ← readRevision p root
  let (targetHyprland, compatibility, readOnly) ← readTarget p catalog root
  let catalogDigest ← readDigest p root "catalogDigest" readOnly (catalogDigest p catalog)
    "state.invalid-catalog-digest" "state.catalog-digest-mismatch"
    "The state was not authored against this catalog."
  let actionCatalogDigest ← readDigest p root "actionCatalogDigest" readOnly (actionCatalogDigest actionCatalog)
    "state.invalid-action-catalog-digest" "state.action-catalog-digest-mismatch"
    "The state was not authored against this action catalog and schema authority."
  return {
    formatVersion, revision, targetHyprland, catalogDigest, actionCatalogDigest, compatibility, readOnly }

def rootFields : List QString :=
  [qstr "formatVersion", qstr "revision", qstr "targetHyprland", qstr "catalogDigest",
    qstr "actionCatalogDigest", qstr "overrides", qstr "monitors", qstr "devices", qstr "curves",
    qstr "animations", qstr "gestures", qstr "workspaceRules", qstr "windowRules", qstr "layerRules",
    qstr "submaps", qstr "bindings", qstr "permissions", qstr "environment"]

def requiredSurfaces : List QString :=
  [qstr "monitors", qstr "devices", qstr "curves", qstr "animations", qstr "gestures", qstr "workspaceRules",
    qstr "windowRules", qstr "layerRules", qstr "submaps", qstr "bindings", qstr "permissions",
    qstr "environment"]

def rejectIncompleteCatalog (catalog : Catalog) : Reads Unit :=
  .forEach (fun _ surface => .rejectIf (!(catalog.complexSurfaces.find? (·.id = surface)).any (·.ordered))
    ⟨qstr "$.catalogDigest", qstr "state.incomplete-catalog",
      qstr "The catalog does not declare ordered surface " ++ surface ++ qstr "."⟩) 0 requiredSurfaces

/-- The checks on the value of a writable option. -/
def validateOverride (option : OptionDefinition) (v : QJsonValue) (path : QString) : Reads Unit := do
  validateOptionValue p option v path
  .rejectIf ((option.path = qstr "misc:swallow_regex" || option.path = qstr "misc:swallow_exception_regex") &&
      v.isString && (v.toString.isEmpty || !compilesAsRe2 p v.toString))
    (issue path "state.invalid-regex" "Swallow overrides require nonempty valid RE2 syntax.")
  (if option.path = qstr "cursor:default_monitor" ∧ v.isString ∧ ¬ v.toString.isEmpty then
      validateStaticMonitorSelector p v.toString path
    else pure ())
  .rejectIf (canonicalJson p v = canonicalJson p option.defaultValue) (issue path "state.redundant-override"
    "Explicit overrides must differ from the catalog default.")

/-- The overrides of known and writable options. -/
def parseOverrides (catalog : Catalog) : QJsonObject → Reads QJsonObject
  | [] => pure []
  | (key, v) :: rest =>
    let path := qstr "$.overrides." ++ key
    match findOption catalog key with
    | none => do
      addError path "state.unknown-option" "The override ID is not in the exact catalog."
      parseOverrides catalog rest
    | some option =>
      if !option.writable then do
        addError path "state.read-only-option"
          "This complete catalog entry is not writable through managed desired state."
        parseOverrides catalog rest
      else do
        validateOverride p option v path
        let overrides ← parseOverrides catalog rest
        return (key, v) :: overrides

def readOverrides (catalog : Catalog) (root : QJsonObject) : Reads QJsonObject := do
  let overrides ← readObject root (qstr "overrides") (qstr "$")
  .rejectIf (maximumOverrides < overrides.length) (issue (qstr "$.overrides") "state.collection-limit"
    "The override map exceeds its catalog bound.")
  parseOverrides p catalog (overrides.take maximumOverrides)

def readDevices (root : QJsonObject) : Reads (List DeviceConfiguration) :=
  ⟨(parseDesiredInputDevices p root).value.getD [], (parseDesiredInputDevices p root).errors⟩

def rejectTooManyWorkspaceRules (rules : List WorkspaceRule) : Reads Unit :=
  .rejectIf (maximumUserWorkspaceRules < rules.countP fun rule => rule.id ≠ sharedSpacingWorkspaceRuleId)
    (issue (qstr "$.workspaceRules") "state.too-many-workspace-rules"
      "At most 1024 user workspace rules are accepted.")

/-- Everything below the header of an editable state. -/
def parseBody (catalog : Catalog) (actionCatalog : ActionCatalog) (root : QJsonObject) (header : DesiredState) :
    Reads DesiredState := do
  rejectUnknownFields root rootFields (qstr "$")
  rejectIncompleteCatalog catalog
  let overrides ← readOverrides p catalog root
  let monitors ← parseRecordArray root (qstr "monitors") maximumMonitors (·.id) (parseMonitor p)
  let devices ← readDevices p root
  let curves ← parseRecordArray root (qstr "curves") maximumCurves (·.id) (parseCurve p)
  let animations ← parseRecordArray root (qstr "animations") maximumAnimations (·.id) (parseAnimation p)
  let gestures ← parseRecordArray root (qstr "gestures") maximumGestures (·.id) (parseGesture p actionCatalog)
  let workspaceRules ←
    parseRecordArray root (qstr "workspaceRules") maximumWorkspaceRules (·.id) (parseWorkspaceRule p)
  rejectTooManyWorkspaceRules workspaceRules
  let windowRules ← parseRecordArray root (qstr "windowRules") maximumWindowRules (·.id) (parseWindowRule p)
  let layerRules ← parseRecordArray root (qstr "layerRules") maximumLayerRules (·.id) (parseLayerRule p)
  let submaps ← parseRecordArray root (qstr "submaps") maximumSubmaps (·.id) (parseSubmap p)
  let bindings ← parseRecordArray root (qstr "bindings") maximumBindings (·.id) (parseBinding p actionCatalog)
  let permissions ← parseRecordArray root (qstr "permissions") maximumPermissions (·.id) (parsePermission p)
  let environment ←
    parseRecordArray root (qstr "environment") maximumEnvironmentVariables (·.id) (parseEnvironment p)
  let state := { header with
    overrides, monitors, devices, curves, animations, gestures, workspaceRules, windowRules, layerRules,
    submaps, bindings, permissions, environment }
  crossCheck p catalog actionCatalog state
  return state

/-- A future target may extend every record, so its document is kept whole and unread. -/
def parseRoot (catalog : Catalog) (actionCatalog : ActionCatalog) (root : QJsonObject) :
    ValidationResult DesiredState :=
  Checked.result do
    let header ← parseHeader p catalog actionCatalog root
    (if header.readOnly then pure { header with opaqueFutureDocument := some root }
      else parseBody p catalog actionCatalog root header)

def parseDesiredStateForAuthorities (bytes : QByteArray) (catalog : Catalog) (actionCatalog : ActionCatalog) :
    ValidationResult DesiredState :=
  let parsed := parseStrictObject p bytes maximumDesiredStateBytes maximumDesiredStateDepth
  match parsed.value with
  | some root => parseRoot p catalog actionCatalog root
  | none => ⟨none, parsed.errors⟩

def reviewedVersionV1 : SemanticVersion := ⟨0, 56, 1⟩
def reviewedCommitV1 : QString := qstr "5c9377c15f85c50648f35ca5a213754f95b93ca0"

def validateActiveV1Authorities (catalog : Catalog) (actionCatalog : ActionCatalog) : Reads Unit := do
  .rejectIf (!(catalog.contractVersion = currentCatalogContractVersion && catalog.digest = reviewedCatalogDigest &&
      catalog.sourceManifestDigest.isEmpty && catalog.hyprland.reviewedVersion = reviewedVersionV1 &&
      catalog.hyprland.reviewedTag = qstr "v0.56.1" && catalog.hyprland.reviewedCommit = reviewedCommitV1 &&
      catalog.hyprland.minimumPatch = 0 && catalog.hyprland.maximumPatch.isNone))
    (issue (qstr "$.catalogDigest") "state.active-v1-catalog-authority-required"
      "Production desired-state parsing requires the exact active v1 scalar authority.")
  .rejectIf (!(actionCatalog.contractVersion = currentActionCatalogContractVersion &&
      actionCatalog.digest = reviewedActionCatalogDigest && actionCatalog.sourceManifestDigest.isEmpty &&
      actionCatalog.reviewedVersion = reviewedVersionV1 && actionCatalog.reviewedTag = qstr "v0.56.1" &&
      actionCatalog.reviewedCommit = reviewedCommitV1 && actionCatalog.minimumPatch = 0 &&
      actionCatalog.maximumPatch.isNone))
    (issue (qstr "$.actionCatalogDigest") "state.active-v1-action-authority-required"
      "Production desired-state parsing requires the exact active v1 action authority.")

def parseDesiredState (bytes : QByteArray) (catalog : Catalog) (actionCatalog : ActionCatalog) :
    ValidationResult DesiredState :=
  let errors := (validateActiveV1Authorities catalog actionCatalog).errors
  let semantic := parseDesiredStateForAuthorities p bytes catalog actionCatalog
  if errors = [] then semantic else ⟨none, errors ++ semantic.errors⟩

end HyprShelld.Hyprland
