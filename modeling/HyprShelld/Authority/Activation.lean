import HyprShelld.Authority.Requirement
import HyprShelld.Json.Injective
import HyprShelld.Renderer.Exact

/-! How strong an activation a change needs, and how it compares with what the renderer reports. -/
namespace HyprShelld.Compositor
open Hyprland

section Strength
variable (catalog : Catalog)

theorem activationRank_injective {a b : ActivationRequirement} (h : activationRank a = activationRank b) : a = b := by
  cases a <;> cases b <;> first | rfl | cases h

theorem rank_strongest (a b : ActivationRequirement) :
    activationRank (strongest a b) = max (activationRank a) (activationRank b) := by
  unfold strongest
  split <;> omega

theorem rank_includeRequirement (current : ActivationRequirement) (mode : ApplyMode) :
    activationRank (includeRequirement current mode) = max (activationRank current) (activationRank (fromApplyMode mode)) := by
  cases mode <;> simp only [includeRequirement, fromApplyMode] <;> split <;> omega

/-- What an option asks for; an id that the catalog does not have asks for nothing. -/
def optionRank (catalog : Catalog) (id : QString) : Nat :=
  ((findOption catalog id).map fun option => activationRank (fromApplyMode option.applyMode)).getD 0

def surfaceRank (catalog : Catalog) (id : QString) : Nat :=
  ((catalog.complexSurfaces.find? (·.id = id)).map fun surface => activationRank (fromApplyMode surface.applyMode)).getD 0

theorem rank_includeOption (result : ActivationRequirement) (id : QString) :
    activationRank (includeOption catalog result id) = max (activationRank result) (optionRank catalog id) := by
  unfold includeOption optionRank
  cases findOption catalog id with
  | none => simp
  | some option => exact rank_strongest _ _

theorem rank_includeSurface (result : ActivationRequirement) (id : String) :
    activationRank (includeSurface catalog result id) = max (activationRank result) (surfaceRank catalog (qstr id)) := by
  unfold includeSurface surfaceRank
  cases catalog.complexSurfaces.find? (·.id = qstr id) with
  | none => simp
  | some surface => exact rank_strongest _ _

theorem rank_includeSurfaceRequirement (current : ActivationRequirement) (id : QString) :
    activationRank (includeSurfaceRequirement catalog current id) = max (activationRank current) (surfaceRank catalog id) := by
  unfold includeSurfaceRequirement surfaceRank
  cases catalog.complexSurfaces.find? (·.id = id) with
  | none => simp
  | some surface => exact rank_includeRequirement _ _

/-- Including one thing after another stays within a bound exactly when each of them does. -/
theorem rank_foldl_le_iff {β : Type} {combine : ActivationRequirement → β → ActivationRequirement} {weight : β → Nat}
    (h : ∀ r b, activationRank (combine r b) = max (activationRank r) (weight b)) (items : List β)
    (start : ActivationRequirement) (n : Nat) :
    activationRank (items.foldl combine start) ≤ n ↔ activationRank start ≤ n ∧ ∀ b ∈ items, weight b ≤ n := by
  induction items generalizing start with
  | nil => simp
  | cons b items ih => rw [List.foldl_cons, ih, h, max_le_iff, List.forall_mem_cons, and_assoc]

end Strength

section Surfaces

/-- The collections of records of a desired state. -/
inductive RecordSurface where
  | monitors | devices | curves | animations | gestures | workspaceRules
  | windowRules | layerRules | submaps | bindings | permissions | environment
  deriving DecidableEq

namespace RecordSurface

def id : RecordSurface → String
  | monitors => "monitors"
  | devices => "devices"
  | curves => "curves"
  | animations => "animations"
  | gestures => "gestures"
  | workspaceRules => "workspaceRules"
  | windowRules => "windowRules"
  | layerRules => "layerRules"
  | submaps => "submaps"
  | bindings => "bindings"
  | permissions => "permissions"
  | environment => "environment"

def unchanged (before after : DesiredState) : RecordSurface → Bool
  | monitors => before.monitors = after.monitors
  | devices => before.devices = after.devices
  | curves => before.curves = after.curves
  | animations => before.animations = after.animations
  | gestures => before.gestures = after.gestures
  | workspaceRules => before.workspaceRules = after.workspaceRules
  | windowRules => before.windowRules = after.windowRules
  | layerRules => before.layerRules = after.layerRules
  | submaps => before.submaps = after.submaps
  | bindings => before.bindings = after.bindings
  | permissions => before.permissions = after.permissions
  | environment => before.environment = after.environment

theorem unchanged_comm (before after : DesiredState) (surface : RecordSurface) :
    surface.unchanged before after = surface.unchanged after before := by
  cases surface <;> exact decide_eq_decide.mpr eq_comm

def unused (state : DesiredState) : RecordSurface → Bool
  | monitors => state.monitors.isEmpty
  | devices => state.devices.isEmpty
  | curves => state.curves.isEmpty
  | animations => state.animations.isEmpty
  | gestures => state.gestures.isEmpty
  | workspaceRules => state.workspaceRules.isEmpty
  | windowRules => state.windowRules.isEmpty
  | layerRules => state.layerRules.isEmpty
  | submaps => state.submaps.isEmpty
  | bindings => state.bindings.isEmpty
  | permissions => state.permissions.isEmpty
  | environment => state.environment.isEmpty

/-- The order of the authority and the order of the renderer. -/
def all : List RecordSurface := [monitors, devices, curves, animations, gestures, workspaceRules, windowRules,
  layerRules, submaps, bindings, permissions, environment]

def rendered : List RecordSurface := [monitors, environment, devices, gestures, workspaceRules, curves, animations,
  windowRules, layerRules, submaps, bindings, permissions]

theorem mem_all (surface : RecordSurface) : surface ∈ all := by cases surface <;> decide

theorem mem_rendered (surface : RecordSurface) : surface ∈ rendered := by cases surface <;> decide

end RecordSurface

variable {before after state : DesiredState}

theorem surfaceDeltas_eq :
    surfaceDeltas before after = RecordSurface.all.map fun surface => (surface.id, surface.unchanged before after) := rfl

theorem recordSurfaces_eq :
    recordSurfaces state = RecordSurface.all.map fun surface => (surface.id, surface.unused state) := rfl

theorem surfacesInUse_eq : surfacesInUse state =
    ((RecordSurface.rendered.map fun surface => (surface.id, surface.unused state)).filter (!·.2)).map (qstr ·.1) := rfl

/-- A statement about the listed surfaces that have some flag off, for each surface on its own. -/
theorem forall_flagged {surfaces : List RecordSurface} (hall : ∀ surface, surface ∈ surfaces) (flag : RecordSurface → Bool)
    (P : String → Prop) :
    (∀ entry ∈ (surfaces.map fun surface => (surface.id, flag surface)).filter (!·.2), P entry.1) ↔
      ∀ surface, flag surface = false → P surface.id := by
  simp only [List.mem_filter, List.mem_map, Bool.not_eq_true']
  constructor
  · exact fun h surface hflag => h _ ⟨⟨surface, hall surface, rfl⟩, hflag⟩
  · rintro h _ ⟨⟨surface, -, rfl⟩, hflag⟩
    exact h surface hflag

end Surfaces

section Bounds
variable {p : Platform} {catalog : Catalog} {before after state : DesiredState} {n : Nat}

/-- The requirement of a change is the strongest of its options, its surfaces and, where the
structure of the curves changes, a restart. -/
theorem rank_delta_le_iff : activationRank (activationRequirementForDelta p catalog (some before) after) ≤ n ↔ 1 ≤ n ∧
    (∀ id ∈ changedOptions p before after, optionRank catalog id ≤ n) ∧
    (curveStructureRequiresRestart before.curves after.curves = true → 2 ≤ n) ∧
    ∀ surface : RecordSurface, surface.unchanged before after = false → surfaceRank catalog (qstr surface.id) ≤ n := by
  have hoptions := rank_foldl_le_iff (rank_includeOption catalog) (changedOptions p before after) .reload n
  have hsurfaces := rank_foldl_le_iff (fun r (surface : String × Bool) => rank_includeSurface catalog r surface.1)
    ((surfaceDeltas before after).filter (!·.2))
  simp only [activationRequirementForDelta]
  rw [hsurfaces, surfaceDeltas_eq, forall_flagged RecordSurface.mem_all (RecordSurface.unchanged before after)
    (fun id => surfaceRank catalog (qstr id) ≤ n)]
  split
  · rename_i hcurves
    rw [rank_strongest, max_le_iff, hoptions]
    simp only [activationRank, hcurves, true_implies, and_assoc]
  · rename_i hcurves
    rw [hoptions]
    simp only [activationRank, hcurves, Bool.false_eq_true, false_implies, true_and, and_assoc]

theorem rank_initial_le_iff : activationRank (activationRequirementForDelta p catalog none state) ≤ n ↔ 1 ≤ n ∧
    (∀ id ∈ state.overrides.map (·.1), optionRank catalog id ≤ n) ∧ (state.curves ≠ [] → 2 ≤ n) ∧
    ∀ surface : RecordSurface, surface.unused state = false → surfaceRank catalog (qstr surface.id) ≤ n := by
  have hoptions := rank_foldl_le_iff (rank_includeOption catalog) (state.overrides.map (·.1)) .reload n
  have hsurfaces := rank_foldl_le_iff (fun r (surface : String × Bool) => rank_includeSurface catalog r surface.1)
    ((recordSurfaces state).filter (!·.2))
  have hstate : activationRank (activationRequirementForDesiredState catalog state) ≤ n ↔ (1 ≤ n ∧
      ∀ id ∈ state.overrides.map (·.1), optionRank catalog id ≤ n) ∧
      ∀ surface : RecordSurface, surface.unused state = false → surfaceRank catalog (qstr surface.id) ≤ n := by
    rw [activationRequirementForDesiredState, hsurfaces, recordSurfaces_eq, hoptions,
      forall_flagged RecordSurface.mem_all (RecordSurface.unused state) (fun id => surfaceRank catalog (qstr id) ≤ n)]
    simp only [activationRank]
  simp only [activationRequirementForDelta]
  split
  · rename_i hcurves
    rw [hstate]
    simp only [List.isEmpty_iff.mp hcurves, ne_eq, not_true_eq_false, false_implies, true_and, and_assoc]
  · rename_i hcurves
    have hne : state.curves ≠ [] := by simpa using hcurves
    rw [rank_strongest, max_le_iff, hstate]
    simp only [hne, ne_eq, not_false_eq_true, true_implies, activationRank]
    tauto

/-- The renderer only counts options with a path in the configuration. -/
theorem rank_required_le_iff : activationRank (requiredActivation catalog state) ≤ n ↔ 1 ≤ n ∧
    (∀ id ∈ state.overrides.map (·.1), ∀ option, findOption catalog id = some option → option.luaPath ≠ [] →
      activationRank (fromApplyMode option.applyMode) ≤ n) ∧
    ∀ surface : RecordSurface, surface.unused state = false → surfaceRank catalog (qstr surface.id) ≤ n := by
  have hoptions := rank_foldl_le_iff (fun r (option : OptionDefinition) => rank_includeRequirement r option.applyMode)
    ((state.overrides.filterMap fun entry => findOption catalog entry.1).filter fun option => !option.luaPath.isEmpty)
    .reload n
  have hsurfaces := rank_foldl_le_iff (rank_includeSurfaceRequirement catalog) (surfacesInUse state)
  have hused : (∀ id ∈ surfacesInUse state, surfaceRank catalog id ≤ n) ↔
      ∀ surface : RecordSurface, surface.unused state = false → surfaceRank catalog (qstr surface.id) ≤ n := by
    rw [surfacesInUse_eq, List.forall_mem_map, forall_flagged RecordSurface.mem_rendered (RecordSurface.unused state)
      (fun id => surfaceRank catalog (qstr id) ≤ n)]
  rw [requiredActivation, hsurfaces, hoptions, hused, and_assoc]
  refine and_congr_right fun _ => and_congr_left fun _ => ?_
  simp only [List.mem_filter, List.mem_filterMap, List.mem_map, Bool.not_eq_true', List.isEmpty_eq_false_iff]
  constructor
  · rintro h _ ⟨entry, hentry, rfl⟩ option hoption hpath
    exact h option ⟨⟨entry, hentry, hoption⟩, hpath⟩
  · rintro h option ⟨⟨entry, hentry, hoption⟩, hpath⟩
    exact h _ ⟨entry, hentry, rfl⟩ option hoption hpath

end Bounds

section Accepted
variable {p : Platform} {catalog : Catalog} {actionCatalog : ActionCatalog} {before after state : DesiredState}

theorem validateOverride_null (option : OptionDefinition) (path : QString) :
    (validateOverride p option .null path).errors ≠ [] := by
  intro h
  simp only [validateOverride, validateOptionValue, valueHasOptionType, Checked.bind_errors, List.append_eq_nil_iff,
    Checked.rejectIf_errors] at h
  obtain ⟨⟨⟨-, hvalid, -⟩, -⟩, -⟩ := h
  revert hvalid
  cases option.type <;> simp [QJsonValue.isBool, isIntegral, isBoundedOptionString, isCanonicalColor, QJsonValue.isString,
    QJsonValue.isArray, QJsonValue.isObject, QJsonValue.integer?, QJsonValue.finite?]

theorem parseOverrides_null {overrides : QJsonObject} (h : (parseOverrides p catalog overrides).errors = []) :
    ∀ e ∈ overrides, e.2 ≠ .null := by
  intro e he hnull
  obtain ⟨option, -, hvalid⟩ := parseOverrides_each h e he
  rw [hnull] at hvalid
  exact validateOverride_null _ _ hvalid

theorem readOverrides_mem {text : QString → Prop} {num : Double → Prop} {root : QJsonObject}
    (hroot : Json.Valid text num (.object root)) (h : (readOverrides p catalog root).errors = []) :
    ∀ e ∈ (readOverrides p catalog root).value, Json.Valid text num e.2 ∧ e.2 ≠ .null := by
  simp only [readOverrides, Checked.bind_errors, List.append_eq_nil_iff] at h
  obtain ⟨hobject, -, hoverrides⟩ := h
  have hv := value_valid hroot (readObject_ok hobject) (by simp)
  simp only [readOverrides, Checked.bind_value, parseOverrides_ok hoverrides]
  intro e he
  exact ⟨((Json.validMembers_iff.mp hv.2) e (List.mem_of_mem_take he)).2, parseOverrides_null hoverrides e he⟩

/-- The override map of an accepted state is the one of a document, checked entry by entry. -/
theorem parsed_overrides {bytes : QByteArray} (h : (parseDesiredState p bytes catalog actionCatalog).value = some state)
    {id : QString} {v : QJsonValue} (hv : (id, v) ∈ state.overrides) : Json.IsJson v ∧ v ≠ .null := by
  obtain ⟨root, hroot, -, -, hparsed⟩ := parsed_root (authorities_of_parse h).2
  obtain ⟨herrors, rfl⟩ := Checked.result_value.mp (congrArg ValidationResult.value hparsed)
  simp only [Checked.bind_errors, List.append_eq_nil_iff] at herrors
  simp only [Checked.bind_value] at hv
  split_ifs at herrors hv with hread
  · cases hv
  · simp only [parseBody, Checked.bind_errors, List.append_eq_nil_iff] at herrors
    obtain ⟨-, -, -, hoverrides, -⟩ := herrors
    obtain ⟨hvalid, hnull⟩ := readOverrides_mem hroot hoverrides (id, v) hv
    refine ⟨hvalid.mono (fun _ _ => trivial) ?_, hnull⟩
    rintro x ⟨q, hq, hbinary, -⟩
    exact ⟨q, hq, hbinary⟩

theorem canonicalJson_injective {v w : QJsonValue} (hv : v = .undefined ∨ Json.IsJson v ∧ v ≠ .null)
    (hw : w = .undefined ∨ Json.IsJson w ∧ w ≠ .null) (h : canonicalJson p v = canonicalJson p w) : v = w := by
  have hjson {v w : QJsonValue} (hv : Json.IsJson v) (hw : Json.IsJson w) (h : canonicalJson p v = canonicalJson p w) :
      v = w :=
    Json.render_injective p.number hv hw
      (toUtf8_injective (Json.isText_render_json p.number hv) (Json.isText_render_json p.number hw) h)
  have hnull : Json.IsJson .null := trivial
  rcases hv with rfl | ⟨hv, hv'⟩ <;> rcases hw with rfl | ⟨hw, hw'⟩
  · rfl
  · exact absurd (hjson hnull hw h).symm hw'
  · exact absurd (hjson hv hnull h) hv'
  · exact hjson hv hw h

theorem parsed_override_value {bytes : QByteArray}
    (h : (parseDesiredState p bytes catalog actionCatalog).value = some state) (id : QString) :
    QJsonObject.value state.overrides id = .undefined ∨
      Json.IsJson (QJsonObject.value state.overrides id) ∧ QJsonObject.value state.overrides id ≠ .null := by
  unfold QJsonObject.value
  cases hl : state.overrides.lookup id with
  | none => exact .inl rfl
  | some v => exact .inr (parsed_overrides h (QJsonObject.mem_of_lookup_eq_some hl))

theorem parsed_value_inj {bytes bytes' : QByteArray}
    (hbefore : (parseDesiredState p bytes catalog actionCatalog).value = some before)
    (hafter : (parseDesiredState p bytes' catalog actionCatalog).value = some after) {id : QString}
    (h : QJsonObject.value before.overrides id = QJsonObject.value after.overrides id) :
    before.overrides.lookup id = after.overrides.lookup id := by
  have hdefined {bytes : QByteArray} {state : DesiredState}
      (hstate : (parseDesiredState p bytes catalog actionCatalog).value = some state) {v : QJsonValue}
      (hl : state.overrides.lookup id = some v) : v ≠ .undefined := by
    rintro rfl
    exact (parsed_overrides hstate (QJsonObject.mem_of_lookup_eq_some hl)).1.ne_undefined rfl
  unfold QJsonObject.value at h
  cases hb : before.overrides.lookup id with
  | none => cases ha : after.overrides.lookup id with
    | none => rfl
    | some w =>
      rw [hb, ha] at h
      exact absurd h.symm (hdefined hafter ha)
  | some v => cases ha : after.overrides.lookup id with
    | none =>
      rw [hb, ha] at h
      exact absurd h (hdefined hbefore hb)
    | some w =>
      rw [hb, ha] at h
      exact congrArg some h

/-- The options whose text differs are those whose override differs. -/
theorem mem_changedOptions {bytes bytes' : QByteArray}
    (hbefore : (parseDesiredState p bytes catalog actionCatalog).value = some before)
    (hafter : (parseDesiredState p bytes' catalog actionCatalog).value = some after) {id : QString} :
    id ∈ changedOptions p before after ↔ before.overrides.lookup id ≠ after.overrides.lookup id := by
  have hcanonical : canonicalJson p (QJsonObject.value before.overrides id) =
      canonicalJson p (QJsonObject.value after.overrides id) ↔
        before.overrides.lookup id = after.overrides.lookup id := by
    constructor
    · intro h
      exact parsed_value_inj hbefore hafter
        (canonicalJson_injective (parsed_override_value hbefore id) (parsed_override_value hafter id) h)
    · intro h
      simp only [QJsonObject.value, h]
  simp only [changedOptions, List.mem_filter, List.mem_append, decide_eq_true_eq, ne_eq, hcanonical,
    Bool.not_eq_true', and_iff_right_iff_imp]
  intro hne
  by_cases hb : id ∈ before.overrides.map (·.1)
  · exact .inl hb
  by_cases ha : id ∈ after.overrides.map (·.1)
  · exact .inr ⟨ha, by simpa using hb⟩
  · exact absurd ((QMap.lookup_eq_none_iff.mpr hb).trans (QMap.lookup_eq_none_iff.mpr ha).symm) hne

theorem optionRank_of_find {id : QString} {option : OptionDefinition} (h : findOption catalog id = some option) :
    optionRank catalog id = activationRank (fromApplyMode option.applyMode) := by
  rw [optionRank, h]
  rfl

theorem surfaceRank_of_find {id : QString} {surface : ComplexSurfaceDefinition}
    (h : catalog.complexSurfaces.find? (·.id = id) = some surface) :
    surfaceRank catalog id = activationRank (fromApplyMode surface.applyMode) := by
  rw [surfaceRank, h]
  rfl

/-- Everything the one state sets is also set in the other. -/
def Covers (union state : DesiredState) : Prop :=
  (∀ id ∈ state.overrides.map (·.1), id ∈ union.overrides.map (·.1)) ∧
    ∀ surface : RecordSurface, surface.unused state = false → surface.unused union = false

theorem changed_used {surface : RecordSurface} (h : surface.unchanged before after = false) :
    surface.unused before = false ∨ surface.unused after = false := by
  by_contra hunused
  simp only [not_or, Bool.not_eq_false] at hunused
  obtain ⟨hb, ha⟩ := hunused
  have hsame : surface.unchanged before after = true := by
    cases surface <;> simp_all [RecordSurface.unused, RecordSurface.unchanged]
  exact Bool.noConfusion (h.symm.trans hsame)

theorem changed_covered {union : DesiredState} (hbefore : Covers union before) (hafter : Covers union after) {id : QString}
    (h : id ∈ changedOptions p before after) : id ∈ union.overrides.map (·.1) := by
  rcases List.mem_append.mp (List.mem_filter.mp h).1 with hb | ha
  · exact hbefore.1 id hb
  · exact hafter.1 id (List.mem_filter.mp ha).1

/-- A state that is rendered has a place in the configuration for each of its options. -/
theorem scalarConfig_paths {overrides : QJsonObject} {config : QMap QJsonObject}
    (h : (scalarConfig catalog overrides config).errors = []) :
    ∀ id ∈ overrides.map (·.1), ∃ option, findOption catalog id = some option ∧ option.luaPath ≠ [] := by
  induction overrides generalizing config with
  | nil => simp
  | cons entry overrides ih =>
    obtain ⟨key, v⟩ := entry
    unfold scalarConfig at h
    split at h
    · simp [addError, Checked.report] at h
    · rename_i option hoption
      obtain ⟨hfind, hpath⟩ := Option.filter_eq_some_iff.mp hoption
      exact List.forall_mem_cons.mpr ⟨⟨option, hfind, by simpa using hpath⟩, ih h⟩

theorem rendered_requirement {generationRoot userCustomPath activationNonce : QString} {createdAtUtc : QDateTime}
    {generation : RenderedGeneration}
    (h : (renderGeneration p state catalog actionCatalog generationRoot userCustomPath activationNonce
      createdAtUtc).value = some generation) :
    generation.activationRequirement = requiredActivation catalog state ∧
      ∀ id ∈ state.overrides.map (·.1), ∃ option, findOption catalog id = some option ∧ option.luaPath ≠ [] := by
  obtain ⟨-, -, payload, hpayload, rfl⟩ := accepted_of_rendered h
  obtain ⟨herrors, rfl⟩ := Checked.result_value.mp hpayload
  simp only [Checked.bind_errors, List.append_eq_nil_iff] at herrors
  exact ⟨rfl, scalarConfig_paths herrors.1⟩

/-- The renderer's requirement for a state that sets all that both states set, raised to a restart
where the structure of the curves changes, bounds the requirement of the change. -/
theorem delta_le_rendered {union : DesiredState} (hbefore : Covers union before) (hafter : Covers union after)
    (hpaths : ∀ id ∈ union.overrides.map (·.1), ∃ option, findOption catalog id = some option ∧ option.luaPath ≠ []) :
    activationRank (activationRequirementForDelta p catalog (some before) after) ≤
      max (activationRank (requiredActivation catalog union))
        (if curveStructureRequiresRestart before.curves after.curves then activationRank .restart else 0) := by
  obtain ⟨hreload, hoptions, hsurfaces⟩ := (@rank_required_le_iff catalog union _).mp le_rfl
  refine rank_delta_le_iff.mpr ⟨hreload.trans (le_max_left _ _), ?_, ?_, ?_⟩
  · intro id hid
    have hcovered := changed_covered hbefore hafter hid
    obtain ⟨option, hfind, hpath⟩ := hpaths id hcovered
    rw [optionRank_of_find hfind]
    exact (hoptions id hcovered option hfind hpath).trans (le_max_left _ _)
  · intro hcurves
    rw [if_pos hcurves]
    exact le_max_right _ _
  · intro surface hchanged
    have hused : surface.unused union = false := (changed_used hchanged).elim (hbefore.2 surface) (hafter.2 surface)
    exact (hsurfaces surface hused).trans (le_max_left _ _)

theorem delta_swap :
    activationRequirementForDelta p catalog (some before) after =
      activationRequirementForDelta p catalog (some after) before := by
  have hle (before after : DesiredState) : activationRank (activationRequirementForDelta p catalog (some before) after) ≤
      activationRank (activationRequirementForDelta p catalog (some after) before) := by
    obtain ⟨hreload, hoptions, hcurves, hsurfaces⟩ :=
      (@rank_delta_le_iff p catalog after before _).mp le_rfl
    refine rank_delta_le_iff.mpr ⟨hreload, fun id hid => hoptions id ?_, fun h => hcurves ?_,
      fun surface h => hsurfaces surface ?_⟩
    · simp only [changedOptions, List.mem_filter, List.mem_append, decide_eq_true_eq, Bool.not_eq_true'] at hid ⊢
      refine ⟨?_, hid.2.symm⟩
      by_cases ha : id ∈ after.overrides.map (·.1)
      · exact .inl ha
      · exact .inr ⟨hid.1.elim (fun hb => hb) fun h => absurd h.1 ha, by simpa using ha⟩
    · simp only [curveStructureRequiresRestart, decide_eq_true_eq] at h ⊢
      exact h.symm
    · rwa [surface.unchanged_comm]
  exact activationRank_injective ((hle before after).antisymm (hle after before))

/-- An accepted state of the authorities. -/
def Accepted (p : Platform) (catalog : Catalog) (actionCatalog : ActionCatalog) (state : DesiredState) : Prop :=
  ∃ bytes, (parseDesiredState p bytes catalog actionCatalog).value = some state

/-- The requirement of a change is at least what each changed option and surface asks for, no more
than that and a restart for new curve structure, the same in both directions, at most the one
without a baseline, and within what the renderer reports. -/
theorem activationRequirement_bounds (p : Platform) (catalog : Catalog) (actionCatalog : ActionCatalog)
    (before after : DesiredState) (hbefore : Accepted p catalog actionCatalog before)
    (hafter : Accepted p catalog actionCatalog after) :
    (∀ id option, findOption catalog id = some option → before.overrides.lookup id ≠ after.overrides.lookup id →
      activationRank (fromApplyMode option.applyMode) ≤
        activationRank (activationRequirementForDelta p catalog (some before) after)) ∧
    (∀ surface : RecordSurface, surface.unchanged before after = false → ∀ definition,
      catalog.complexSurfaces.find? (·.id = qstr surface.id) = some definition →
        activationRank (fromApplyMode definition.applyMode) ≤
          activationRank (activationRequirementForDelta p catalog (some before) after)) ∧
    ((∀ id option, findOption catalog id = some option → before.overrides.lookup id ≠ after.overrides.lookup id →
        option.applyMode = .reload) →
      (∀ surface : RecordSurface, surface.unchanged before after = false → ∀ definition,
        catalog.complexSurfaces.find? (·.id = qstr surface.id) = some definition → definition.applyMode = .reload) →
      curveStructureRequiresRestart before.curves after.curves = false →
      activationRequirementForDelta p catalog (some before) after = .reload) ∧
    activationRequirementForDelta p catalog (some before) after =
      activationRequirementForDelta p catalog (some after) before ∧
    ((∀ id, before.overrides.lookup id ≠ after.overrides.lookup id → after.overrides.lookup id ≠ none) →
      (∀ surface : RecordSurface, surface.unchanged before after = false → surface.unused after = false) →
      activationRank (activationRequirementForDelta p catalog (some before) after) ≤
        activationRank (activationRequirementForDelta p catalog none after)) ∧
    ∀ union generationRoot userCustomPath activationNonce createdAtUtc generation,
      Covers union before → Covers union after →
      (renderGeneration p union catalog actionCatalog generationRoot userCustomPath activationNonce
        createdAtUtc).value = some generation →
      activationRank (activationRequirementForDelta p catalog (some before) after) ≤
        max (activationRank generation.activationRequirement)
          (if curveStructureRequiresRestart before.curves after.curves then activationRank .restart else 0) := by
  obtain ⟨bytes, hbefore⟩ := hbefore
  obtain ⟨bytes', hafter⟩ := hafter
  obtain ⟨-, hoptions, -, hsurfaces⟩ :=
    (@rank_delta_le_iff p catalog before after _).mp le_rfl
  refine ⟨?_, ?_, ?_, delta_swap, ?_, ?_⟩
  · intro id option hfind hne
    rw [← optionRank_of_find hfind]
    exact hoptions id ((mem_changedOptions hbefore hafter).mpr hne)
  · intro surface hchanged definition hfind
    rw [← surfaceRank_of_find hfind]
    exact hsurfaces surface hchanged
  · intro hreloads hreloaded hstructure
    have hweakest : activationRank (activationRequirementForDelta p catalog (some before) after) ≤ 1 := by
      refine rank_delta_le_iff.mpr ⟨le_rfl, ?_, by simp [hstructure], ?_⟩
      · intro id hid
        cases hfind : findOption catalog id with
        | none => simp [optionRank, hfind]
        | some option =>
          rw [optionRank_of_find hfind, hreloads id option hfind ((mem_changedOptions hbefore hafter).mp hid)]
          exact le_rfl
      · intro surface hchanged
        cases hfind : catalog.complexSurfaces.find? (·.id = qstr surface.id) with
        | none => simp [surfaceRank, hfind]
        | some definition =>
          rw [surfaceRank_of_find hfind, hreloaded surface hchanged definition hfind]
          exact le_rfl
    exact activationRank_injective (hweakest.antisymm (rank_delta_le_iff.mp le_rfl).1)
  · intro hoverrides hused
    obtain ⟨hreload, hset, hcurves, hfilled⟩ :=
      (@rank_initial_le_iff p catalog after _).mp le_rfl
    refine rank_delta_le_iff.mpr ⟨hreload, ?_, ?_, ?_⟩
    · intro id hid
      refine hset id (of_not_not fun hkey => ?_)
      exact hoverrides id ((mem_changedOptions hbefore hafter).mp hid) (QMap.lookup_eq_none_iff.mpr hkey)
    · intro hstructure
      have hchanged : RecordSurface.curves.unchanged before after = false := by
        refine decide_eq_false fun he => ?_
        rw [curveStructureRequiresRestart, he] at hstructure
        simp at hstructure
      exact hcurves (List.isEmpty_eq_false_iff.mp (hused .curves hchanged))
    · exact fun surface hchanged => hfilled surface (hused surface hchanged)
  · intro union _ _ _ _ generation hcb hca hrendered
    obtain ⟨he, hpaths⟩ := rendered_requirement hrendered
    rw [he]
    exact delta_le_rendered hcb hca hpaths

end Accepted

section Sample

/-- The same state with a first curve. -/
def curveState : DesiredState :=
  { keybindState with curves := [{ id := qstr "c1", name := qstr "quick", parameters := .spring { stiffness := 2 } }] }

private theorem curveState_evaluated : Evaluated plainPlatform sampleCatalog keybindActionCatalog curveState ∧
    activationRequirementForDelta plainPlatform sampleCatalog (some keybindState) curveState = .restart ∧
    requiredActivation sampleCatalog curveState = .reload := by
  decide +kernel

theorem curveState_parsed :
    parseDesiredState plainPlatform (serializeDesiredState plainPlatform curveState) sampleCatalog
      keybindActionCatalog = ⟨some curveState, []⟩ := curveState_evaluated.1.parsed

theorem curveState_accepted : Accepted plainPlatform sampleCatalog keybindActionCatalog curveState :=
  ⟨_, congrArg ValidationResult.value curveState_parsed⟩

theorem keybindState_accepted : Accepted plainPlatform sampleCatalog keybindActionCatalog keybindState :=
  ⟨_, congrArg ValidationResult.value keybindState_parsed⟩

/-- Curves are never refused by the renderer. -/
theorem curveState_payload : ∃ payload, (renderSemanticLuaPayload plainPlatform curveState sampleCatalog
    keybindActionCatalog true).value = some payload := by
  obtain ⟨payload, hpayload⟩ := Option.isSome_iff_exists.mp keybindState_payload
  obtain ⟨herrors, -⟩ := Checked.result_value.mp hpayload
  exact ⟨_, Checked.result_value.mpr ⟨herrors, rfl⟩⟩

theorem curveState_covers : Covers curveState keybindState ∧ Covers curveState curveState := by
  refine ⟨⟨by simp [keybindState], fun surface h => ?_⟩, ⟨fun _ h => h, fun _ h => h⟩⟩
  revert h
  cases surface <;> decide

theorem curveState_delta :
    activationRequirementForDelta plainPlatform sampleCatalog (some keybindState) curveState = .restart :=
  curveState_evaluated.2.1

/-- A first curve needs a restart, while the catalog and with it the renderer ask for a reload. -/
theorem activationRequirement_exceeds :
    Accepted plainPlatform sampleCatalog keybindActionCatalog keybindState ∧
    Accepted plainPlatform sampleCatalog keybindActionCatalog curveState ∧
    Covers curveState keybindState ∧ Covers curveState curveState ∧
    ∃ generation, (renderGeneration plainPlatform curveState sampleCatalog keybindActionCatalog sampleRoot
        (qstr "/config/custom.lua") sampleNonce sampleTime).value = some generation ∧
      activationRank generation.activationRequirement <
        activationRank (activationRequirementForDelta plainPlatform sampleCatalog (some keybindState) curveState) := by
  obtain ⟨payload, hpayload⟩ := curveState_payload
  have rendered := @renderGeneration_value _ _ _ _ _ _ _ sampleTime _ samplePaths_checked rfl curveState_parsed
    ⟨rfl, rfl⟩ hpayload
  refine ⟨keybindState_accepted, curveState_accepted, curveState_covers.1, curveState_covers.2, _, rendered, ?_⟩
  rw [(rendered_requirement rendered).1, curveState_delta, curveState_evaluated.2.2]
  decide

theorem activationRequirement_bounds_sample :
    activationRank (fromApplyMode .reload) ≤
      activationRank (activationRequirementForDelta plainPlatform sampleCatalog (some keybindState) curveState) ∧
    activationRequirementForDelta plainPlatform sampleCatalog (some keybindState) curveState =
      activationRequirementForDelta plainPlatform sampleCatalog (some curveState) keybindState := by
  obtain ⟨-, hsurfaces, -, hswap, -⟩ := activationRequirement_bounds plainPlatform sampleCatalog keybindActionCatalog
    keybindState curveState keybindState_accepted curveState_accepted
  exact ⟨hsurfaces .curves (by decide) { id := qstr "curves" } rfl, hswap⟩

end Sample
end HyprShelld.Compositor
