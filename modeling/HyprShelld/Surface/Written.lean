import HyprShelld.Surface.Artifact

/-! An artifact holds the plan it was made of, and every sound plan that fits has one. -/
namespace HyprShelld.Components
open Json

section Textual
variable (number : NumberText)

/-- What a snapshot's strings and settings promise an instance. -/
structure SurfaceInstance.Textual (i : SurfaceInstance) : Prop where
  componentId : IsText i.componentId
  componentType : IsText i.componentType
  packageDigest : IsText i.packageDigest
  runtimeKind : IsText i.runtimeKind
  factory : IsText i.factory
  declarativeText : IsText i.declarativeText
  declarativeTooltip : IsText i.declarativeTooltip
  settings : Persistable number (.object i.settings)
  flat : nesting (.object i.settings) ≤ 1

structure SurfaceBarLayout.Textual (l : SurfaceBarLayout) : Prop where
  outputMode : IsText l.outputMode
  start : ∀ id ∈ l.start, IsText id
  center : ∀ id ∈ l.center, IsText id
  «end» : ∀ id ∈ l.end, IsText id

structure SurfacePlan.Textual (plan : SurfacePlan) : Prop where
  catalogDigest : IsText plan.catalogDigest
  instances : ∀ e ∈ plan.instances, IsText e.1 ∧ e.2.Textual number
  layouts : ∀ e ∈ plan.barLayouts, IsText e.1 ∧ e.2.Textual

variable {number} (hplain : number.PlainIntegers)
include hplain

theorem persistable_runtimeObject {i : SurfaceInstance} (h : i.Textual number) :
    Persistable number (.object (runtimeObject i)) := by
  unfold runtimeObject
  split_ifs
  · apply valid_ofList
    simp only [List.forall_mem_cons, Valid]
    exact ⟨⟨isText_qstr _, h.runtimeKind⟩, ⟨isText_qstr _, h.factory⟩, by simp⟩
  · apply valid_ofList
    have hwidth := persistableNumber_natCast hplain (n := i.declarativeMaximumWidth.toNat)
      (lt_of_lt_of_le i.declarativeMaximumWidth.toNat_lt (by norm_num))
    simp only [List.forall_mem_cons, Valid]
    exact ⟨⟨isText_qstr _, h.runtimeKind⟩, ⟨isText_qstr _, h.declarativeText⟩, ⟨isText_qstr _, h.declarativeTooltip⟩,
      ⟨isText_qstr _, hwidth⟩, by simp⟩

theorem persistable_instanceObject {i : SurfaceInstance} (h : i.Textual number) :
    Persistable number (.object (instanceObject i)) := by
  apply valid_ofList
  have hruntime := persistable_runtimeObject hplain h
  have hsettings := h.settings
  simp only [List.forall_mem_cons, Valid] at hruntime hsettings ⊢
  exact ⟨⟨isText_qstr _, h.componentId⟩, ⟨isText_qstr _, h.componentType⟩, ⟨isText_qstr _, h.packageDigest⟩,
    ⟨isText_qstr _, hruntime⟩, ⟨isText_qstr _, hsettings⟩, by simp⟩

omit hplain in
theorem persistable_stringArray {ids : List QString} (h : ∀ id ∈ ids, IsText id) :
    Persistable number (stringArray ids) := by
  rw [stringArray, Persistable, Valid, validItems_iff, List.forall_mem_map]
  intro id hid
  exact h id hid

omit hplain in
theorem persistable_layoutObject {l : SurfaceBarLayout} (h : l.Textual) :
    Persistable number (.object (layoutObject l)) := by
  apply valid_ofList
  simp only [List.forall_mem_cons]
  refine ⟨⟨isText_qstr _, valid_ofList ?_⟩, ⟨isText_qstr _, valid_ofList ?_⟩, by simp⟩
  · simp only [List.forall_mem_cons, Valid]
    exact ⟨⟨isText_qstr _, h.outputMode⟩, by simp⟩
  · simp only [List.forall_mem_cons]
    exact ⟨⟨isText_qstr _, persistable_stringArray h.start⟩, ⟨isText_qstr _, persistable_stringArray h.center⟩,
      ⟨isText_qstr _, persistable_stringArray h.end⟩, by simp⟩

theorem persistable_surfacePlanObject {plan : SurfacePlan} (h : plan.Textual number) :
    Persistable number (.object (surfacePlanObject plan)) := by
  have hrevision := isText_digits (decimal_digits plan.configurationRevision.toNat)
  have hversion := persistableNumber_natCast hplain (n := 2) (by norm_num)
  have hinstances : Persistable number (.object (QJsonObject.ofList
      (plan.instances.map fun e => (e.1, .object (instanceObject e.2))))) := by
    apply valid_ofList
    rw [List.forall_mem_map]
    exact fun e he => ⟨(h.instances e he).1, persistable_instanceObject hplain (h.instances e he).2⟩
  have hlayouts : Persistable number (.object (QJsonObject.ofList
      (plan.barLayouts.map fun e => (e.1, .object (layoutObject e.2))))) := by
    apply valid_ofList
    rw [List.forall_mem_map]
    exact fun e he => ⟨(h.layouts e he).1, persistable_layoutObject (h.layouts e he).2⟩
  apply valid_ofList
  simp only [List.forall_mem_cons]
  refine ⟨⟨isText_qstr _, hversion⟩, ⟨isText_qstr _, h.catalogDigest⟩, ⟨isText_qstr _, hrevision⟩,
    ⟨isText_qstr _, hinstances⟩, ⟨isText_qstr _, valid_ofList ?_⟩, by simp⟩
  simp only [List.forall_mem_cons]
  exact ⟨⟨isText_qstr _, hlayouts⟩, by simp⟩

end Textual

section Depth

theorem nesting_stringArray (ids : List QString) : nesting (stringArray ids) ≤ 1 := by
  have h : itemsNesting (ids.map QJsonValue.string) ≤ 0 := itemsNesting_le (by simp [nesting])
  simp only [stringArray, nesting]
  omega

theorem nesting_runtimeObject (i : SurfaceInstance) : nesting (.object (runtimeObject i)) ≤ 1 := by
  unfold runtimeObject
  split_ifs <;> exact nesting_ofList_le (n := 0) (by simp [nesting])

theorem nesting_instanceObject {i : SurfaceInstance} (h : nesting (.object i.settings) ≤ 1) :
    nesting (.object (instanceObject i)) ≤ 2 := by
  have hruntime := nesting_runtimeObject i
  apply nesting_ofList_le (n := 1)
  simp only [List.forall_mem_cons]
  exact ⟨by simp [nesting], by simp [nesting], by simp [nesting], hruntime, h, by simp⟩

theorem nesting_layoutObject (l : SurfaceBarLayout) : nesting (.object (layoutObject l)) ≤ 3 := by
  apply nesting_ofList_le (n := 2)
  simp only [List.forall_mem_cons]
  refine ⟨?_, ?_, by simp⟩
  · exact (nesting_ofList_le (n := 0) (by simp [nesting])).trans (by omega)
  · apply nesting_ofList_le (n := 1)
    simp only [List.forall_mem_cons]
    exact ⟨nesting_stringArray _, nesting_stringArray _, nesting_stringArray _, by simp⟩

theorem nesting_surfacePlanObject {plan : SurfacePlan}
    (h : ∀ e ∈ plan.instances, nesting (.object e.2.settings) ≤ 1) : nesting (.object (surfacePlanObject plan)) ≤ 6 := by
  have hinstances : nesting (.object (QJsonObject.ofList
      (plan.instances.map fun e => (e.1, .object (instanceObject e.2))))) ≤ 3 := nesting_ofList_le (by
      rw [List.forall_mem_map]
      exact fun e he => nesting_instanceObject (h e he))
  have hlayouts : nesting (.object (QJsonObject.ofList
      (plan.barLayouts.map fun e => (e.1, .object (layoutObject e.2))))) ≤ 4 := nesting_ofList_le (by
      rw [List.forall_mem_map]
      exact fun e _ => nesting_layoutObject e.2)
  apply nesting_ofList_le (n := 5)
  simp only [List.forall_mem_cons]
  refine ⟨by simp [nesting], by simp [nesting], by simp [nesting], hinstances.trans (by omega), ?_, by simp⟩
  apply nesting_ofList_le (n := 4)
  simp only [List.forall_mem_cons]
  exact ⟨hlayouts, by simp⟩

end Depth

section Made
variable {number : NumberText} {unicode : UnicodeTables} {sha256 : QByteArray → QString} {plan : SurfacePlan}

/-- The bytes of a plan are within the reader's limit. -/
def SurfacePlan.Fits (number : NumberText) (plan : SurfacePlan) : Prop :=
  ((surfacePlanBytes number plan).length : Int) ≤ maximumSurfacePlanBytes

theorem parsePlanRoot_exact {read : SurfacePlan} (hi : plan.instances.Sorted) (hl : plan.barLayouts.Sorted)
    (hc : ∀ e ∈ plan.instances, e.2.Canonical)
    (h : (parsePlanRoot number unicode (surfacePlanObject plan)).value = some read) :
    read = plan ∧ plan.Sound number unicode := by
  unfold parsePlanRoot at h
  cases hf : parsePlanFields number unicode (surfacePlanObject plan) with
  | error e =>
    rw [hf] at h
    cases h
  | ok fields =>
    obtain ⟨rfl, hsound⟩ := parsePlanFields_exact hi hl hc hf
    simp only [hf] at h
    split_ifs at h with herrors
    cases h
    exact ⟨rfl, hsound (validateRelationships_iff.mp herrors)⟩

theorem parsePlanRoot_complete (h : plan.Sound number unicode) :
    parsePlanRoot number unicode (surfacePlanObject plan) = ⟨some plan, []⟩ := by
  simp [parsePlanRoot, parsePlanFields_complete h, validateRelationships_iff.mpr h.placed]

variable (hplain : number.PlainIntegers) (htext : plan.Textual number)
include hplain htext

variable (unicode) in
theorem parseSurfacePlan_bytes (hfits : plan.Fits number) :
    parseSurfacePlan number unicode (surfacePlanBytes number plan) =
      parsePlanRoot number unicode (surfacePlanObject plan) := by
  have hdepth := nesting_surfacePlanObject fun e he => (htext.instances e he).2.flat
  have hread := parseStrictJsonObject_compactJson ⟨maximumSurfacePlanBytes, 32⟩
    (persistable_surfacePlanObject hplain htext) (show (_ : Int) ≤ 32 by omega) hfits
  rw [parseSurfacePlan, surfacePlanBytes, hread]

omit hplain htext in
theorem fits_of_parseSurfacePlan {read : SurfacePlan}
    (h : (parseSurfacePlan number unicode (surfacePlanBytes number plan)).value = some read) : plan.Fits number := by
  unfold parseSurfacePlan at h
  unfold SurfacePlan.Fits
  by_contra hlong
  have hlong : maximumSurfacePlanBytes < ((surfacePlanBytes number plan).length : Int) := by omega
  have hlimits : ¬ (maximumSurfacePlanBytes ≤ 0 ∨ (32 : Int) ≤ 0) := by decide
  simp only [parseStrictJsonObject, if_neg hlimits, if_pos hlong] at h
  cases h

/-- An artifact holds exactly the plan it was made of, which is sound. -/
theorem makeSurfacePlanArtifact_exact {artifact : SurfacePlanArtifact} (hi : plan.instances.Sorted)
    (hl : plan.barLayouts.Sorted) (hc : ∀ e ∈ plan.instances, e.2.Canonical)
    (h : (makeSurfacePlanArtifact number unicode sha256 plan).value = some artifact) :
    artifact.plan = plan ∧ artifact.bytes = surfacePlanBytes number plan ∧ plan.Sound number unicode ∧
      plan.Fits number := by
  unfold makeSurfacePlanArtifact at h
  cases hp : (parseSurfacePlan number unicode (surfacePlanBytes number plan)).value with
  | none =>
    simp only [hp] at h
    cases h
  | some read =>
    have hfits := fits_of_parseSurfacePlan hp
    rw [parseSurfacePlan_bytes _ hplain htext hfits] at hp
    obtain ⟨rfl, hsound⟩ := parsePlanRoot_exact hi hl hc hp
    simp only [parseSurfacePlan_bytes _ hplain htext hfits, hp] at h
    cases h
    exact ⟨rfl, rfl, hsound, hfits⟩

variable (sha256) in
/-- Every sound plan that fits has an artifact. -/
theorem makeSurfacePlanArtifact_complete (hsound : plan.Sound number unicode) (hfits : plan.Fits number) :
    ∃ artifact, makeSurfacePlanArtifact number unicode sha256 plan = ⟨some artifact, []⟩ ∧ artifact.plan = plan := by
  have hread := parseSurfacePlan_bytes unicode hplain htext hfits
  rw [parsePlanRoot_complete hsound] at hread
  unfold makeSurfacePlanArtifact
  simp only [hread]
  exact ⟨_, rfl, rfl⟩

end Made
end HyprShelld.Components
