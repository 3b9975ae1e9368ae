import HyprShelld.Desired.RoundTrip

/-! Display profiles: what a user asks of the connected outputs, checked against the connected
outputs and merged into a desired state. -/
namespace HyprShelld.Hyprland

def maximumDisplayProfileBytes : Nat := 512 * 1024
def maximumProfileDepth : Nat := 32

structure DisplayProfile where
  topologyDigest : QString
  outputs : QJsonArray
  deriving DecidableEq

structure ConnectedDisplayMode where
  width : Int
  height : Int
  refreshRate : ℚ
  managedMode : QString
  deriving DecidableEq

structure ConnectedDisplay where
  upstreamId : Int := -1
  selector : QString
  description : QString := []
  make : QString := []
  model : QString := []
  serial : QString := []
  enabled : Bool := false
  width : Int := 0
  height : Int := 0
  physicalWidthMm : Int := 0
  physicalHeightMm : Int := 0
  refreshRate : ℚ := 0
  x : Int := 0
  y : Int := 0
  reserved : List Int := []
  scale : ℚ := 1
  transform : Int := 0
  focused : Bool := false
  dpms : Bool := false
  vrrActive : Bool := false
  mirrorOf : QString := []
  modes : List ConnectedDisplayMode := []
  colorManagement : QString := []
  currentFormat : QString := []
  sdrBrightness : ℚ := 1
  sdrSaturation : ℚ := 1
  sdrMinLuminance : ℚ := dyadic 3602879701896397 54
  sdrMaxLuminance : Int := 80
  deriving DecidableEq

structure ConnectedDisplayTopology where
  outputs : List ConnectedDisplay
  topologyDigest : QString

structure DisplayCandidate where
  state : DesiredState
  bytes : QByteArray

variable (p : Platform)

section Parsing

def validDigest (digest : QString) : Bool := digest.length = 64 && digest.all isLowerHex

def exactInteger (v : QJsonValue) (minimum maximum : Int) : Option Int :=
  match v.finite? with
  | some q => if q.den = 1 ∧ minimum ≤ q ∧ q ≤ maximum then some q.num else none
  | none => none

def profileFields : List QString := [qstr "formatVersion", qstr "topologyDigest", qstr "outputs"]

def readOutputs (v : QJsonValue) : Reads QJsonArray :=
  let invalid : Reads QJsonArray := ⟨[], [issue (qstr "$.outputs") "display.invalid-output-list"
    "A bounded display-output array is required."]⟩
  match v with
  | .array outputs =>
    if maximumMonitors < outputs.length then invalid
    else do
      .forEach (fun index output => .rejectIf (!output.isObject)
        (issue (element (qstr "$.outputs") index) "display.output-object-required"
          "Each display output must be an object.")) 0 outputs
      return outputs
  | _ => invalid

def parseProfileRoot (root : QJsonObject) (bytes : QByteArray) : Reads DisplayProfile := do
  .rejectIf (!sameMembers root.keys profileFields) (issue (qstr "$") "display.invalid-profile-shape"
    "A display profile must contain exactly formatVersion, topologyDigest, and outputs.")
  .rejectIf (exactInteger (root.value (qstr "formatVersion")) 1 1).isNone
    (issue (qstr "$.formatVersion") "display.unsupported-profile-version"
      "Only display profile format version 1 is supported.")
  let digest := (root.value (qstr "topologyDigest")).toString
  .rejectIf (!(root.value (qstr "topologyDigest")).isString || !validDigest digest)
    (issue (qstr "$.topologyDigest") "display.invalid-topology-digest"
      "A lowercase SHA-256 topology digest is required.")
  let outputs ← readOutputs (root.value (qstr "outputs"))
  .rejectIf (canonicalJson p (.object root) ++ [0x0a] ≠ bytes) (issue (qstr "$") "display.noncanonical-profile"
    "The display profile must use canonical JSON with one trailing newline.")
  return { topologyDigest := digest, outputs }

def parseDisplayProfile (bytes : QByteArray) : ValidationResult DisplayProfile :=
  let parsed := parseStrictObject p bytes maximumDisplayProfileBytes maximumProfileDepth
  match parsed.value with
  | some root => Checked.result (parseProfileRoot p root bytes)
  | none => ⟨none, parsed.errors⟩

end Parsing

section Topology

def validConnector (value : QString) : Bool := hasMatch outputName value

def selectorOf (object : QJsonObject) : QString := (object.value (qstr "selector")).toString
def isEnabled (object : QJsonObject) : Bool := (object.value (qstr "enabled")).toBool
def mirrorOf (object : QJsonObject) : QString := (object.value (qstr "mirror")).toString

/-- The output objects by selector, the last one of a selector. -/
def profileRecords (outputs : QJsonArray) : QMap QJsonObject :=
  .ofList (outputs.map fun v => (selectorOf v.toObject, v.toObject))

def checkSelectors : Nat → List QString → List QString → Reads Unit
  | _, _, [] => pure ()
  | index, observed, selector :: rest => do
    let path := field (element (qstr "$.outputs") index) (qstr "selector")
    .rejectIf (!validConnector selector) (issue path "display.connector-selector-required"
      "Live display previews require exact connector-name selectors.")
    .rejectIf (observed.contains selector) (issue path "display.duplicate-connector"
      "A connected output appears more than once.")
    checkSelectors (index + 1) (selector :: observed) rest

/-- The checks on an enabled mirror; its target must be there. -/
def checkMirror (records : QMap QJsonObject) (selector : QString) (record : QJsonObject) : Reads Unit :=
  let target := (records.lookup (mirrorOf record)).getD []
  if mirrorOf record = selector ∨ target = [] ∨ isEnabled target = false then
    addError (qstr "$.outputs") "display.invalid-live-mirror"
      "A live mirror requires a distinct enabled connected target."
  else do
    .rejectIf (mirrorOf target ≠ []) (issue (qstr "$.outputs") "display.mirror-chain"
      "Live display previews do not accept mirror chains.")
    .rejectIf (record.value (qstr "position") ≠ target.value (qstr "position"))
      (issue (qstr "$.outputs") "display.mirror-position-mismatch"
        "A mirrored output must use its target's desired position.")

def usable (record : QJsonObject) : Bool := isEnabled record && (mirrorOf record).isEmpty

def validateDisplayProfileTopology (profile : DisplayProfile) (topology : ConnectedDisplayTopology) : Reads Unit := do
  .rejectIf (profile.topologyDigest ≠ topology.topologyDigest) (issue (qstr "$.topologyDigest")
    "display.stale-topology" "The connected-display topology changed.")
  let selectors := profile.outputs.map fun v => selectorOf v.toObject
  checkSelectors 0 [] selectors
  .rejectIf (!sameMembers selectors (topology.outputs.map (·.selector))) (issue (qstr "$.outputs")
    "display.connector-set-changed" "The profile must contain exactly the currently connected connector set.")
  let records := profileRecords profile.outputs
  .forEach (fun _ entry => if isEnabled entry.2 && !(mirrorOf entry.2).isEmpty
    then checkMirror records entry.1 entry.2 else pure ()) 0 records
  .rejectIf (!records.any fun entry => usable entry.2) (issue (qstr "$.outputs") "display.no-enabled-output"
    "At least one connected non-mirrored output must remain enabled.")

end Topology

section Merge

/-- An id for a selector, and the ids used with it. The digest keeps it short enough for any selector. -/
def stableMonitorId (selector : QString) (used : List QString) : QString × List QString :=
  let base := qstr "monitor:" ++ (p.sha256 (toUtf8 selector)).take 32
  if !used.contains base then (base, base :: used)
  else
    match (List.range' 2 9998).find? fun suffix => !used.contains (base ++ unit ':' :: decimal suffix) with
    | some suffix => (base ++ unit ':' :: decimal suffix, (base ++ unit ':' :: decimal suffix) :: used)
    | none => (base, used)

/-- The proposed objects of the connected outputs, under the ids they had or under new ones. -/
def connectedObjects (proposed : QMap QJsonObject) (baselineIds : QMap QString) :
    List QString → List QString → List QJsonObject
  | _, [] => []
  | used, selector :: rest =>
    let object := (proposed.lookup selector).getD []
    match baselineIds.lookup selector with
    | some id => object.insert (qstr "id") (.string id) :: connectedObjects proposed baselineIds used rest
    | none =>
      object.insert (qstr "id") (.string (stableMonitorId p selector used).1) ::
        connectedObjects proposed baselineIds (stableMonitorId p selector used).2 rest

/-- QString::replace of every occurrence, from the left; the number counts the units still to drop. -/
def replaceText (before after : QString) : Nat → QString → QString
  | _, [] => []
  | skip + 1, _ :: rest => replaceText before after skip rest
  | 0, u :: rest =>
    if before.isPrefixOf (u :: rest) then after ++ replaceText before after (before.length - 1) rest
    else u :: replaceText before after 0 rest

def outputError (error : ValidationError) : ValidationError :=
  { error with path := replaceText (qstr "$.monitors") (qstr "$.outputs") 0 error.path }

def checkDisplayRequest (baseline : DesiredState) (profile : DisplayProfile) (topology : ConnectedDisplayTopology) :
    Reads Unit := do
  validateDisplayProfileTopology profile topology
  .rejectIf (baseline.readOnly || baseline.opaqueFutureDocument.isSome) (issue (qstr "$")
    "display.read-only-baseline" "A display preview requires an exact writable desired-state baseline.")
  .rejectIf (baseline.revision = UInt64.ofNat (2 ^ 64 - 1)) (issue (qstr "$.revision") "display.revision-exhausted"
    "The display preview revision cannot advance.")

/-- The monitors of a candidate: the objects of no connected output, and the connected ones behind them. -/
def mergedMonitors (baseline : DesiredState) (profile : DisplayProfile) (topology : ConnectedDisplayTopology)
    (baselineRoot : QJsonObject) : List QJsonObject :=
  let connected := topology.outputs.map (·.selector)
  let baselineIds : QMap QString := .ofList
    ((baseline.monitors.filter fun record => connected.contains record.selector).map fun record =>
      (record.selector, record.id))
  ((baselineRoot.value (qstr "monitors")).toArray.map QJsonValue.toObject).filter
      (fun object => !connected.contains (selectorOf object)) ++
    connectedObjects p (profileRecords profile.outputs) baselineIds (baseline.monitors.map (·.id)) connected

def candidateRoot (baseline : DesiredState) (profile : DisplayProfile) (topology : ConnectedDisplayTopology)
    (baselineRoot : QJsonObject) : QJsonObject :=
  (baselineRoot.insert (qstr "revision") (.string (decimal (baseline.revision + 1).toNat))).insert (qstr "monitors")
    (.array ((mergedMonitors p baseline profile topology baselineRoot).map .object))

def buildDisplayCandidate (baseline : DesiredState) (profile : DisplayProfile) (topology : ConnectedDisplayTopology)
    (catalog : Catalog) (actionCatalog : ActionCatalog) : ValidationResult DisplayCandidate :=
  let errors := (checkDisplayRequest baseline profile topology).errors
  if errors ≠ [] then ⟨none, errors⟩
  else
    let parsed := parseStrictObject p (serializeDesiredState p baseline) maximumDesiredStateBytes 64
    match parsed.value with
    | none => ⟨none, parsed.errors⟩
    | some baselineRoot =>
      let bytes := canonicalJson p (.object (candidateRoot p baseline profile topology baselineRoot)) ++ [0x0a]
      let candidate := parseDesiredState p bytes catalog actionCatalog
      match candidate.value with
      | none => ⟨none, candidate.errors.map outputError⟩
      | some state =>
        if state.monitors = baseline.monitors then
          ⟨none, [issue (qstr "$.outputs") "display.no-change"
            "The display profile does not change the active monitor configuration."]⟩
        else ⟨some { state, bytes }, []⟩

end Merge

end HyprShelld.Hyprland
