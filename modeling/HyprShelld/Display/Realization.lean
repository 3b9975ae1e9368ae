import HyprShelld.Display.Candidate
import Mathlib.Data.Int.Log
import Mathlib.Data.Rat.Floor

/-! Whether the outputs show what was asked of them, judged by a desired state and by a display profile. -/
namespace HyprShelld

section Rounding

/-- The nearest integer, the even one of two. -/
def roundEven (q : ℚ) : ℤ :=
  if q - ⌊q⌋ < 1 / 2 ∨ q - ⌊q⌋ = 1 / 2 ∧ ⌊q⌋ % 2 = 0 then ⌊q⌋ else ⌊q⌋ + 1

/-- The nearest binary64 value of a rational that is not too large for one. -/
def nearestDouble (q : ℚ) : ℚ :=
  let exponent := max (-1074) (Int.log 2 |q| - 52)
  roundEven (q / 2 ^ exponent) * 2 ^ exponent

end Rounding

namespace Hyprland

variable (p : Platform)

section Records

/-- std::abs(a - b) > 0.00505, for the refresh rate and for what is published at two decimal places. -/
def farFrom (a b : ℚ) : Bool := decide (nearestDouble 0.00505 < |nearestDouble (a - b)|)

/-- toInt of decimal text. -/
def toInt32 (s : QString) : Option Int := (toLongLong s).filter fun n => -2 ^ 31 ≤ n ∧ n ≤ maximumInt32

/-- The two sides of a text that has the form of a position. -/
def positionGroups (position : QString) : QString × QString :=
  (position.takeWhile (· ≠ unit 'x'), ((position.dropWhile (· ≠ unit 'x')).drop 1).takeWhile (· ≠ unit '\n'))

/-- Width, height and refresh rate of a text that has the form of a mode. -/
def modeGroups (mode : QString) : QString × QString × QString :=
  let rest := (mode.dropWhile (· ≠ unit 'x')).drop 1
  (mode.takeWhile (· ≠ unit 'x'), rest.takeWhile isDigit,
    ((rest.dropWhile (· ≠ unit '@')).drop 1).takeWhile (· ≠ unit '\n'))

def automaticModes : List QString := [qstr "preferred", qstr "highrr", qstr "highres", qstr "maxwidth"]

def checkRealizedPosition (path : QString) (record : MonitorConfiguration) (output : ConnectedDisplay) : Reads Unit :=
  let (x, y) := positionGroups record.position
  .rejectIf (hasMatch explicitPosition record.position && !(toInt32 x = some output.x && toInt32 y = some output.y))
    (issue path "display.realization-position-mismatch" "Hyprland did not realize the requested position.")

def checkRealizedMode (path : QString) (record : MonitorConfiguration) (output : ConnectedDisplay) : Reads Unit :=
  if hasMatch explicitMode record.mode then do
    let (width, height, refresh) := modeGroups record.mode
    .rejectIf (!(toInt32 width = some output.width && toInt32 height = some output.height))
      (issue path "display.realization-mode-mismatch" "Hyprland did not realize the requested resolution.")
    .rejectIf (!refresh.isEmpty && (match p.number.read refresh with
        | .finite rate => farFrom rate output.refreshRate
        | _ => true))
      (issue path "display.realization-refresh-mismatch" "Hyprland did not realize the requested refresh rate.")
  else if automaticModes.contains record.mode then
    .rejectIf (record.mirror.isEmpty &&
        !((0 < output.width && 0 < output.height && 0 < output.refreshRate) && output.modes.any fun mode =>
          mode.width = output.width && mode.height = output.height && !farFrom mode.refreshRate output.refreshRate))
      (issue path "display.realization-mode-mismatch" "Hyprland did not realize an advertised positive output mode.")
  else addError path "display.realization-mode-mismatch" "The requested output mode cannot be proven."

def checkRealizedColors (path : QString) (record : MonitorConfiguration) (output : ConnectedDisplay) : Reads Unit := do
  let tenBit := memberOf ["XRGB2101010", "XBGR2101010"] output.currentFormat
  let eightBit := memberOf ["XRGB8888", "XBGR8888"] output.currentFormat
  .rejectIf ((record.bitdepth = 10 && !tenBit) || (record.bitdepth = 8 && !eightBit))
    (issue path "display.realization-bitdepth-mismatch" "Hyprland did not realize the requested output bit depth.")
  .rejectIf (record.colorManagement ≠ qstr "auto" && record.colorManagement ≠ output.colorManagement)
    (issue path "display.realization-color-mismatch" "Hyprland did not realize the requested color preset.")
  .rejectIf (farFrom record.sdrBrightness output.sdrBrightness || farFrom record.sdrSaturation output.sdrSaturation ||
      farFrom record.sdrMinLuminance output.sdrMinLuminance || record.sdrMaxLuminance ≠ output.sdrMaxLuminance)
    (issue path "display.realization-sdr-mismatch" "Hyprland did not realize the requested SDR output values.")

/-- One output beside the record for it. -/
def checkRealizedOutput (path : QString) (record : MonitorConfiguration) (output : ConnectedDisplay) : Reads Unit :=
  if record.enabled ≠ output.enabled then
    addError path "display.realization-enabled-mismatch" "Hyprland did not realize the requested enabled state."
  else if record.enabled = false then pure ()
  else do
    .rejectIf (record.mirror ≠ output.mirrorOf)
      (issue path "display.realization-mirror-mismatch" "Hyprland did not realize the requested mirror target.")
    .rejectIf (record.transform ≠ output.transform)
      (issue path "display.realization-transform-mismatch" "Hyprland did not realize the requested transform.")
    .rejectIf (match record.scale with
        | .number scale => farFrom scale output.scale
        | .text _ => false)
      (issue path "display.realization-scale-mismatch" "Hyprland did not realize the requested scale.")
    checkRealizedPosition path record output
    checkRealizedMode p path record output
    checkRealizedColors path record output

/-- The records of exact connector names, the last one of a name. -/
def connectorRecords (monitors : List MonitorConfiguration) : QMap MonitorConfiguration :=
  .ofList ((monitors.filter fun record => validConnector record.selector).map fun record => (record.selector, record))

def checkRealization (records : QMap MonitorConfiguration) (topology : ConnectedDisplayTopology) : Reads Unit :=
  .forEach (fun _ output =>
    let path := qstr "$.outputs[" ++ output.selector ++ qstr "]"
    match records.lookup output.selector with
    | none => addError path "display.realization-selector-changed"
        "A connected output is absent from the preview candidate."
    | some record => checkRealizedOutput p path record output) 0 topology.outputs

/-- The first of the two functions of this name. -/
def validateDisplayRealization (candidate : DesiredState) (topology : ConnectedDisplayTopology) : ValidationErrors :=
  (checkRealization p (connectorRecords candidate.monitors) topology).errors

/-- toInt of a value: an integer in range, or zero. -/
def toIntOrZero (v : QJsonValue) : Int := (v.integer?.filter fun n => -2 ^ 31 ≤ n ∧ n ≤ maximumInt32).getD 0

/-- toDouble of a value that was read from text. -/
def toDoubleOrZero (v : QJsonValue) : ℚ := v.finite?.getD 0

/-- The record read from an output object, whatever its members are. -/
def profileRecord (object : QJsonObject) : MonitorConfiguration where
  selector := selectorOf object
  enabled := isEnabled object
  mode := (object.value (qstr "mode")).toString
  position := (object.value (qstr "position")).toString
  scale :=
    match (object.value (qstr "scale")).finite? with
    | some q => .number q
    | none => .text (object.value (qstr "scale")).toString
  transform := toIntOrZero (object.value (qstr "transform"))
  mirror := mirrorOf object
  bitdepth := toIntOrZero (object.value (qstr "bitdepth"))
  colorManagement := (object.value (qstr "cm")).toString
  sdrBrightness := toDoubleOrZero (object.value (qstr "sdrBrightness"))
  sdrSaturation := toDoubleOrZero (object.value (qstr "sdrSaturation"))
  sdrMinLuminance := toDoubleOrZero (object.value (qstr "sdrMinLuminance"))
  sdrMaxLuminance :=
    let luminance := toDoubleOrZero (object.value (qstr "sdrMaxLuminance"))
    p.toInt64 (luminance.num.tdiv luminance.den)

/-- The second of the two functions of this name. -/
def validateProfileRealization (profile : DisplayProfile) (topology : ConnectedDisplayTopology) : ValidationErrors :=
  validateDisplayRealization p { monitors := profile.outputs.map fun v => profileRecord p v.toObject } topology

end Records

section Agreement
variable {p : Platform} {catalog : Catalog} {actionCatalog : ActionCatalog}

/-- Where a parser leaves a record that both overloads read alike. -/
structure InRange (record : MonitorConfiguration) : Prop where
  transform : 0 ≤ record.transform ∧ record.transform ≤ 7
  bitdepth : 8 ≤ record.bitdepth ∧ record.bitdepth ≤ 10
  sdrMaxLuminance : -1 ≤ record.sdrMaxLuminance ∧ record.sdrMaxLuminance ≤ maximumInt32

theorem readInteger_range {object : QJsonObject} {key path : QString} {minimum maximum fallback : Int}
    (h : (readInteger object key path minimum maximum fallback).errors = []) :
    minimum ≤ (readInteger object key path minimum maximum fallback).value ∧
      (readInteger object key path minimum maximum fallback).value ≤ maximum := by
  revert h
  unfold readInteger
  split
  · rename_i n hread
    intro _
    simpa using (Option.filter_eq_some_iff.mp hread).2
  · simp

theorem parseMonitor_inRange {object : QJsonObject} {path : QString} (h : (parseMonitor p object path).errors = []) :
    InRange (parseMonitor p object path).value := by
  simp only [parseMonitor, Checked.bind_errors, List.append_eq_nil_iff] at h
  obtain ⟨-, -, -, -, -, -, -, -, -, -, -, htransform, -, -, hbitdepth, -, -, -, -, -, -, -, -, -, -, -, -, hsdrMax, -⟩ := h
  exact ⟨readInteger_range htransform, readInteger_range hbitdepth, readInteger_range hsdrMax⟩

theorem toIntOrZero_integer {n : Int} (h : -2 ^ 31 ≤ n ∧ n ≤ maximumInt32) : toIntOrZero (integer n) = n := by
  have hsafe : |n| ≤ maximumSafeJsonInteger := by
    rw [maximumInt32] at h
    rw [maximumSafeJsonInteger, abs_le]
    omega
  have hread : (integer n).integer? = some n := by simp [integer, QJsonValue.integer?, QJsonValue.finite?, hsafe]
  rw [toIntOrZero, hread, Option.filter_some, if_pos (by simpa using h), Option.getD_some]

theorem toInt64_integer {n : Int} (h : -1 ≤ n ∧ n ≤ maximumInt32) :
    p.toInt64 ((toDoubleOrZero (integer n)).num.tdiv (toDoubleOrZero (integer n)).den : ℤ) = n := by
  rw [maximumInt32] at h
  have hread : toDoubleOrZero (integer n) = n := rfl
  have hrange : (-2 ^ 63 : ℚ) ≤ n ∧ (n : ℚ) < 2 ^ 63 := by
    constructor
    · exact_mod_cast (show (-2 ^ 63 : ℤ) ≤ n by omega)
    · exact_mod_cast (show n < (2 ^ 63 : ℤ) by omega)
  rw [hread, Rat.num_intCast, Rat.den_intCast, Nat.cast_one, Int.tdiv_one, Platform.toInt64, if_pos hrange, Rat.num_intCast]

/-- What the checks look at is the same in two records. -/
structure SameRealization (a b : MonitorConfiguration) : Prop where
  enabled : a.enabled = b.enabled
  mode : a.mode = b.mode
  position : a.position = b.position
  scale : a.scale = b.scale
  transform : a.transform = b.transform
  mirror : a.mirror = b.mirror
  bitdepth : a.bitdepth = b.bitdepth
  colorManagement : a.colorManagement = b.colorManagement
  sdrBrightness : a.sdrBrightness = b.sdrBrightness
  sdrSaturation : a.sdrSaturation = b.sdrSaturation
  sdrMinLuminance : a.sdrMinLuminance = b.sdrMinLuminance
  sdrMaxLuminance : a.sdrMaxLuminance = b.sdrMaxLuminance

theorem SameRealization.symm {a b : MonitorConfiguration} (h : SameRealization a b) : SameRealization b a :=
  ⟨h.1.symm, h.2.symm, h.3.symm, h.4.symm, h.5.symm, h.6.symm, h.7.symm, h.8.symm, h.9.symm, h.10.symm, h.11.symm,
    h.12.symm⟩

theorem checkRealizedOutput_congr {a b : MonitorConfiguration} (h : SameRealization a b) (path : QString)
    (output : ConnectedDisplay) : checkRealizedOutput p path a output = checkRealizedOutput p path b output := by
  unfold checkRealizedOutput checkRealizedPosition checkRealizedMode checkRealizedColors
  rw [h.enabled, h.mode, h.position, h.scale, h.transform, h.mirror, h.bitdepth, h.colorManagement, h.sdrBrightness,
    h.sdrSaturation, h.sdrMinLuminance, h.sdrMaxLuminance]

/-- Reading the object of a record permissively gives what the record holds. -/
theorem sameRealization_of_insert {object : QJsonObject} {id : QString} {record : MonitorConfiguration}
    (h : monitorObject record = object.insert (qstr "id") (.string id)) (hrange : InRange record) :
    SameRealization (profileRecord p object) record := by
  have hvalue : ∀ key v, key ≠ qstr "id" → (key, v) ∈ monitorMembers record → object.value key = v := by
    intro key v hkey hmem
    have hwritten := monitor_value record key v hmem
    rwa [h, value_insert (by simp), if_neg hkey] at hwritten
  obtain ⟨hrealizes, -⟩ := realizes_of_insert h
  have hint32 : ∀ n : Int, 0 ≤ n → n ≤ 10 → toIntOrZero (integer n) = n := fun n hmin hmax =>
    toIntOrZero_integer (by rw [maximumInt32]; omega)
  have hmode := hvalue (qstr "mode") (.string record.mode) (by decide) (by simp [monitorMembers])
  have hscale := hvalue (qstr "scale") (scaleValue record.scale) (by decide) (by simp [monitorMembers])
  have htransform := hvalue (qstr "transform") (integer record.transform) (by decide) (by simp [monitorMembers])
  have hbitdepth := hvalue (qstr "bitdepth") (integer record.bitdepth) (by decide) (by simp [monitorMembers])
  have hcm := hvalue (qstr "cm") (.string record.colorManagement) (by decide) (by simp [monitorMembers])
  have hbrightness := hvalue (qstr "sdrBrightness") (number record.sdrBrightness) (by decide) (by simp [monitorMembers])
  have hsaturation := hvalue (qstr "sdrSaturation") (number record.sdrSaturation) (by decide) (by simp [monitorMembers])
  have hsdrMin := hvalue (qstr "sdrMinLuminance") (number record.sdrMinLuminance) (by decide) (by simp [monitorMembers])
  have hsdrMax := hvalue (qstr "sdrMaxLuminance") (integer record.sdrMaxLuminance) (by decide) (by simp [monitorMembers])
  exact {
    enabled := hrealizes.enabled
    mode := by rw [profileRecord, hmode, QJsonValue.toString]
    position := by rw [profileRecord, hrealizes.position, QJsonValue.toString]
    scale := by
      rw [profileRecord, hscale]
      cases record.scale <;> rfl
    transform := by
      rw [profileRecord, htransform]
      exact hint32 _ hrange.transform.1 (hrange.transform.2.trans (by decide))
    mirror := hrealizes.mirror
    bitdepth := by
      rw [profileRecord, hbitdepth]
      exact hint32 _ (le_trans (by decide) hrange.bitdepth.1) hrange.bitdepth.2
    colorManagement := by rw [profileRecord, hcm, QJsonValue.toString]
    sdrBrightness := by rw [profileRecord, hbrightness]; rfl
    sdrSaturation := by rw [profileRecord, hsaturation]; rfl
    sdrMinLuminance := by rw [profileRecord, hsdrMin]; rfl
    sdrMaxLuminance := by
      rw [profileRecord, hsdrMax]
      exact toInt64_integer hrange.sdrMaxLuminance }

theorem lookup_connectorRecords {monitors : List MonitorConfiguration} (hselectors : (monitors.map (·.selector)).Nodup)
    {record : MonitorConfiguration} (hrecord : record ∈ monitors) (hvalid : validConnector record.selector = true) :
    (connectorRecords monitors).lookup record.selector = some record := by
  refine QMap.lookup_ofList_of_mem ?_ (List.mem_map.mpr ⟨record, List.mem_filter.mpr ⟨hrecord, hvalid⟩, rfl⟩)
  rw [List.map_map]
  exact hselectors.sublist (List.filter_sublist.map _)

theorem checkSelectors_valid {selectors observed : List QString} {index : Nat}
    (h : (checkSelectors index observed selectors).errors = []) : ∀ s ∈ selectors, validConnector s = true := by
  induction selectors generalizing index observed with
  | nil => exact nofun
  | cons s rest ih =>
    simp only [checkSelectors, Checked.bind_errors, List.append_eq_nil_iff, Checked.rejectIf_errors] at h
    exact List.forall_mem_cons.mpr ⟨by simpa using h.1, ih h.2.2⟩

/-- The records that the second overload makes of an accepted profile. -/
theorem lookup_profile {profile : DisplayProfile} {topology : ConnectedDisplayTopology}
    (h : (validateDisplayProfileTopology profile topology).errors = []) {s : QString} {object : QJsonObject}
    (hlookup : (profileRecords profile.outputs).lookup s = some object) :
    validConnector s = true ∧
      (connectorRecords (profile.outputs.map fun v => profileRecord p v.toObject)).lookup s = some (profileRecord p object) := by
  simp only [validateDisplayProfileTopology, Checked.bind_errors, List.append_eq_nil_iff] at h
  obtain ⟨-, hselectors, -⟩ := h
  obtain ⟨v, hv, heq⟩ := List.mem_map.mp (QMap.mem_ofList (QMap.mem_of_lookup hlookup))
  cases heq
  have hvalid := checkSelectors_valid hselectors _ (List.mem_map_of_mem hv)
  refine ⟨hvalid, ?_⟩
  have hnodup : ((profile.outputs.map fun v => profileRecord p v.toObject).map (·.selector)).Nodup := by
    rw [List.map_map]
    exact (checkSelectors_errors hselectors).1
  exact @lookup_connectorRecords _ hnodup (profileRecord p v.toObject) (List.mem_map_of_mem hv) hvalid

theorem checkRealization_congr {a b : QMap MonitorConfiguration} {topology : ConnectedDisplayTopology}
    (h : ∀ output ∈ topology.outputs, ∃ left right, a.lookup output.selector = some left ∧
      b.lookup output.selector = some right ∧ SameRealization left right) :
    checkRealization p a topology = checkRealization p b topology := by
  unfold checkRealization
  refine Checked.forEach_congr (fun _ output houtput => ?_) 0
  obtain ⟨left, right, hleft, hright, hsame⟩ := h output houtput
  simp only [hleft, hright]
  exact checkRealizedOutput_congr hsame _ output

variable {baseline : DesiredState} {profile : DisplayProfile} {topology later : ConnectedDisplayTopology}
  {candidate : DisplayCandidate} {baselineRoot : QJsonObject}

/-- The monitors of an editable state are in range. -/
theorem inRange_of_parseRoot {root : QJsonObject} {state : DesiredState}
    (h : (parseRoot p catalog actionCatalog root).value = some state) (hw : state.readOnly = false) :
    ∀ record ∈ state.monitors, InRange record := by
  obtain ⟨-, herrors, hstate⟩ := parseRoot_editable h hw
  simp only [parseBody, Checked.bind_errors, List.append_eq_nil_iff] at herrors
  obtain ⟨-, -, -, hmonitors, -⟩ := herrors
  intro record hrecord
  rw [hstate, parseBody_monitors] at hrecord
  obtain ⟨o, path, ho, rfl⟩ := parseRecordArray_each hmonitors record hrecord
  exact parseMonitor_inRange ho

/-- The record of a connected output holds what was proposed for it. -/
theorem BuiltFrom.record (h : BuiltFrom p catalog actionCatalog baseline profile topology candidate baselineRoot)
    {s : QString} (hs : s ∈ topology.outputs.map (·.selector)) :
    ∃ object record, (profileRecords profile.outputs).lookup s = some object ∧ record ∈ candidate.state.monitors ∧
      record.selector = s ∧ SameRealization (profileRecord p object) record := by
  have hmerged := mergedMonitors_eq (monitorFacts h.fits.1 h.state h.editable)
  obtain ⟨object, hlookup, hselector⟩ := (requested_of_validate h.valid).found s hs
  obtain ⟨merged, hmem, id, hobject⟩ := exists_of_mem_right (connectedObjects_spec (p := p) _ _).flip s hs
  have hstate : merged ∈ candidate.state.monitors.map monitorObject := hmerged ▸ List.mem_append_right _ hmem
  obtain ⟨record, hrecord, rfl⟩ := List.mem_map.mp hstate
  have hinsert := hobject.object
  rw [hlookup, Option.getD_some] at hinsert
  refine ⟨object, record, hlookup, hrecord, ?_, ?_⟩
  · exact (realizes_of_insert hinsert).1.selector.symm.trans hselector
  · exact sameRealization_of_insert hinsert (inRange_of_parseRoot h.state h.editable record hrecord)

theorem BuiltFrom.realization (h : BuiltFrom p catalog actionCatalog baseline profile topology candidate baselineRoot)
    (hlater : ∀ s ∈ later.outputs.map (·.selector), s ∈ topology.outputs.map (·.selector)) :
    validateDisplayRealization p candidate.state later = validateProfileRealization p profile later := by
  refine congrArg Checked.errors (checkRealization_congr fun output houtput => ?_)
  obtain ⟨object, record, hlookup, hrecord, hselector, hsame⟩ := h.record (hlater _ (List.mem_map_of_mem houtput))
  obtain ⟨hvalid, hprofile⟩ := lookup_profile (p := p) h.valid hlookup
  have hselectors := (monitorFacts h.fits.1 h.state h.editable).selectors
  have hstate := lookup_connectorRecords hselectors hrecord (hselector ▸ hvalid)
  rw [hselector] at hstate
  exact ⟨record, profileRecord p object, hstate, hprofile, hsame.symm⟩

end Agreement

/-- A candidate and the profile it was built from are judged alike by every later topology of the same connectors. -/
theorem displayRealization_agrees (p : Platform) (hp : WritesHexDigests p) (catalog : Catalog) (actionCatalog : ActionCatalog)
    (baseline : DesiredState) (profile : DisplayProfile) (topology later : ConnectedDisplayTopology)
    (candidate : DisplayCandidate) (hbaseline : ∃ bytes, (parseDesiredState p bytes catalog actionCatalog).value = some baseline)
    (hprofile : ∃ bytes, (parseDisplayProfile p bytes).value = some profile)
    (h : (buildDisplayCandidate p baseline profile topology catalog actionCatalog).value = some candidate)
    (hlater : ∀ s, s ∈ later.outputs.map (·.selector) ↔ s ∈ topology.outputs.map (·.selector)) :
    validateDisplayRealization p candidate.state later = validateProfileRealization p profile later := by
  obtain ⟨bytes, hbaseline⟩ := hbaseline
  obtain ⟨profileBytes, hprofile⟩ := hprofile
  obtain ⟨baselineRoot, hbuilt⟩ := builtFrom_of_build hp hbaseline hprofile h
  exact hbuilt.realization fun s => (hlater s).mp

/-- The outputs of the sample in another order, lit but without the mode that was asked of them. -/
def sampleLater : ConnectedDisplayTopology where
  outputs := [qstr "DP-1", qstr "eDP-1"].map fun selector => {
    selector, enabled := true, width := 1920, height := 1080, refreshRate := 60, currentFormat := qstr "XRGB8888" }
  topologyDigest := sampleTopology.topologyDigest

theorem displayRealization_agrees_sample :
    validateDisplayRealization displayPlatform sampleNext sampleLater =
      validateProfileRealization displayPlatform sampleProfile sampleLater :=
  displayRealization_agrees displayPlatform hexDigest_sample sampleCatalog sampleActionCatalog sampleBaseline sampleProfile
    sampleTopology sampleLater ⟨sampleNext, _⟩ ⟨_, sampleBaseline_checks.parsed⟩ ⟨_, sampleProfile_parsed⟩ sampleNext_built
    fun s => by simp [sampleLater, sampleTopology, or_comm]

end Hyprland
end HyprShelld
