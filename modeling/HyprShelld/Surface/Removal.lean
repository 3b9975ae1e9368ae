import HyprShelld.Surface.Written

/-! Plans with instances taken out: they stay sound and textual and never grow. -/
namespace HyprShelld.Components
open Json

/-- The instances and all their placements go. -/
def removeInstances (plan : SurfacePlan) (removed : QString → Bool) : SurfacePlan := { plan with
  instances := plan.instances.filter fun e => !removed e.1
  barLayouts := plan.barLayouts.map fun e => (e.1, { e.2 with
    start := e.2.start.filter (!removed ·)
    center := e.2.center.filter (!removed ·)
    «end» := e.2.end.filter (!removed ·) }) }

section Removed
variable {number : NumberText} {unicode : UnicodeTables} {plan : SurfacePlan} {removed : QString → Bool}

theorem mem_removeInstances {e : QString × SurfaceInstance} :
    e ∈ (removeInstances plan removed).instances ↔ e ∈ plan.instances ∧ removed e.1 = false := by
  simp [removeInstances]

theorem lookup_removeInstances (k : QString) :
    (removeInstances plan removed).instances.lookup k = if removed k then none else plan.instances.lookup k := by
  have h := QMap.lookup_filter_key (m := plan.instances) (fun id => !removed id) k
  cases hk : removed k <;> simpa [removeInstances, hk] using h

theorem placedIds_removeInstances :
    placedIds (removeInstances plan removed).barLayouts = (placedIds plan.barLayouts).filter (!removed ·) := by
  simp only [removeInstances, placedIds, List.flatMap_map, List.filter_flatMap, List.filter_append]

theorem removeInstances_sorted (h : plan.instances.Sorted) : (removeInstances plan removed).instances.Sorted :=
  QMap.sorted_filter h _

theorem removeInstances_layouts_sorted (h : plan.barLayouts.Sorted) :
    (removeInstances plan removed).barLayouts.Sorted := by
  rw [removeInstances, QMap.Sorted, List.pairwise_map]
  exact h

theorem SurfacePlan.Placed.removeInstances (h : plan.Placed) : (removeInstances plan removed).Placed := by
  have hkeys : ∀ id, id ∈ (Components.removeInstances plan removed).instances.keys ↔
      id ∈ plan.instances.keys ∧ removed id = false := by
    intro id
    simp only [QMap.keys, List.mem_map, mem_removeInstances]
    constructor
    · intro hm
      obtain ⟨e, ⟨he, hr⟩, rfl⟩ := hm
      exact ⟨⟨e, he, rfl⟩, hr⟩
    · intro hm
      obtain ⟨⟨e, he, rfl⟩, hr⟩ := hm
      exact ⟨e, ⟨he, hr⟩, rfl⟩
  constructor
  · rw [placedIds_removeInstances]
    exact h.once.filter _
  · intro id hid
    rw [placedIds_removeInstances, List.mem_filter] at hid
    exact (hkeys id).mpr ⟨h.known id hid.1, by simpa using hid.2⟩
  · intro id hid
    rw [placedIds_removeInstances, List.mem_filter]
    obtain ⟨hm, hr⟩ := (hkeys id).mp hid
    exact ⟨h.all id hm, by simpa using hr⟩

private theorem RegionIds.filter {ids : List QString} (h : RegionIds ids) (keep : QString → Bool) :
    RegionIds (ids.filter keep) :=
  ⟨(List.length_filter_le _ _).trans h.1, fun id hid => h.2 id (List.mem_filter.mp hid).1⟩

theorem SurfacePlan.Sound.removeInstances (h : plan.Sound number unicode) :
    (removeInstances plan removed).Sound number unicode where
  catalogDigest := h.catalogDigest
  instances_sorted := removeInstances_sorted h.instances_sorted
  layouts_sorted := removeInstances_layouts_sorted h.layouts_sorted
  few_instances := (List.length_filter_le _ _).trans h.few_instances
  few_layouts := (List.length_map _).trans_le h.few_layouts
  instances := fun e he => h.instances e (mem_removeInstances.mp he).1
  layouts := by
    intro e he
    obtain ⟨l, hl, rfl⟩ := List.mem_map.mp he
    obtain ⟨hkey, hs⟩ := h.layouts l hl
    exact ⟨hkey, hs.outputMode, hs.start.filter _, hs.center.filter _, hs.end.filter _⟩
  placed := h.placed.removeInstances

variable (removed) in
theorem SurfacePlan.Textual.removeInstances (h : plan.Textual number) :
    (removeInstances plan removed).Textual number where
  catalogDigest := h.catalogDigest
  instances := fun e he => h.instances e (mem_removeInstances.mp he).1
  layouts := by
    intro e he
    obtain ⟨l, hl, rfl⟩ := List.mem_map.mp he
    obtain ⟨hkey, hs⟩ := h.layouts l hl
    exact ⟨hkey, hs.outputMode, fun id hid => hs.start id (List.mem_filter.mp hid).1,
      fun id hid => hs.center id (List.mem_filter.mp hid).1, fun id hid => hs.end id (List.mem_filter.mp hid).1⟩

end Removed

section Shrinks
variable {number : NumberText}

private abbrev numbersText : ∀ x, PersistableNumber number x → IsText (number.printDouble x) := by
  intro x hx
  obtain ⟨q, rfl, hq, _⟩ := hx
  exact isText_lexeme (number.print_lexeme q hq)

abbrev size (number : NumberText) : QJsonValue → Nat := writtenSize number.printDouble

/-- Objects with the same keys whose values shrink. -/
theorem size_ofList_le {small large : List (QString × QJsonValue)}
    (hs : ∀ m ∈ small, IsText m.1 ∧ Persistable number m.2) (hl : ∀ m ∈ large, IsText m.1 ∧ Persistable number m.2)
    (hn : (large.map (·.1)).Nodup) {middle : List (QString × QJsonValue)} (hm : List.Sublist middle large)
    (h : List.Forall₂ (fun a b => a.1 = b.1 ∧ size number a.2 ≤ size number b.2) small middle) :
    size number (.object (QJsonObject.ofList small)) ≤ size number (.object (QJsonObject.ofList large)) := by
  have hkeys : small.map (·.1) = middle.map (·.1) := by
    clear hs hl hn hm
    induction h with
    | nil => rfl
    | cons hab _ ih => rw [List.map_cons, List.map_cons, hab.1, ih]
  have hsmall : (small.map (·.1)).Nodup := by
    rw [hkeys]
    exact hn.sublist (hm.map _)
  have hmembers : List.Forall₂ (fun a b => memberSize number.printDouble a ≤ memberSize number.printDouble b)
      small middle := by
    refine h.imp ?_
    intro a b hab
    rw [memberSize, memberSize, hab.1]
    exact Nat.add_le_add_left hab.2 _
  have := sum_shrinks hmembers hm
  rw [size, writtenSize_ofList numbersText hs hsmall, writtenSize_ofList numbersText hl hn]
  omega

theorem size_stringArray_filter {ids : List QString} (h : ∀ id ∈ ids, IsText id) (keep : QString → Bool) :
    size number (stringArray (ids.filter keep)) ≤ size number (stringArray ids) := by
  have hlarge : ValidItems IsText (PersistableNumber number) (ids.map .string) := persistable_stringArray h
  have hsmall : ValidItems IsText (PersistableNumber number) ((ids.filter keep).map .string) :=
    persistable_stringArray fun id hid => h id (List.mem_filter.mp hid).1
  have := sum_shrinks (List.forall₂_same.mpr fun v _ => le_refl (writtenSize number.printDouble v))
    ((List.filter_sublist (p := keep) (l := ids)).map QJsonValue.string)
  rw [size, stringArray, stringArray, writtenSize_array numbersText hsmall,
    writtenSize_array numbersText hlarge]
  omega

theorem size_layoutObject_filter {l : SurfaceBarLayout} (h : l.Textual) (keep : QString → Bool) :
    size number (.object (layoutObject { l with
      start := l.start.filter keep, center := l.center.filter keep, «end» := l.end.filter keep })) ≤
      size number (.object (layoutObject l)) := by
  have hkeep {ids : List QString} (hids : ∀ id ∈ ids, IsText id) : ∀ id ∈ ids.filter keep, IsText id :=
    fun id hid => hids id (List.mem_filter.mp hid).1
  have hoptions : Persistable number (.object (QJsonObject.ofList [(qstr "mode", .string l.outputMode)])) := by
    apply valid_ofList
    simp only [List.forall_mem_cons, Valid]
    exact ⟨⟨isText_qstr _, h.outputMode⟩, by simp⟩
  have hregions {a b c : List QString} (ha : ∀ id ∈ a, IsText id) (hb : ∀ id ∈ b, IsText id) (hc : ∀ id ∈ c, IsText id) :
      ∀ m ∈ [(qstr "start", stringArray a), (qstr "center", stringArray b), (qstr "end", stringArray c)],
        IsText m.1 ∧ Persistable number m.2 := by
    simp only [List.forall_mem_cons]
    exact ⟨⟨isText_qstr _, persistable_stringArray ha⟩, ⟨isText_qstr _, persistable_stringArray hb⟩,
      ⟨isText_qstr _, persistable_stringArray hc⟩, by simp⟩
  have hsmall := hregions (hkeep h.start) (hkeep h.center) (hkeep h.end)
  have hlarge := hregions h.start h.center h.end
  have hshrink := size_ofList_le hsmall hlarge (by simp) (List.Sublist.refl _)
    (.cons ⟨rfl, size_stringArray_filter h.start keep⟩ (.cons ⟨rfl, size_stringArray_filter h.center keep⟩
      (.cons ⟨rfl, size_stringArray_filter h.end keep⟩ .nil)))
  refine size_ofList_le ?_ ?_ (by simp) (List.Sublist.refl _) (.cons ⟨rfl, le_refl _⟩ (.cons ⟨rfl, hshrink⟩ .nil))
  · simp only [List.forall_mem_cons]
    exact ⟨⟨isText_qstr _, hoptions⟩, ⟨isText_qstr _, valid_ofList hsmall⟩, by simp⟩
  · simp only [List.forall_mem_cons]
    exact ⟨⟨isText_qstr _, hoptions⟩, ⟨isText_qstr _, valid_ofList hlarge⟩, by simp⟩

theorem surfacePlanBytes_length (plan : SurfacePlan) :
    (surfacePlanBytes number plan).length = size number (.object (surfacePlanObject plan)) + 1 := by
  rw [surfacePlanBytes, List.length_append, List.length_singleton]
  rfl

theorem size_surfacePlanObject_removeInstances (hplain : number.PlainIntegers) {plan : SurfacePlan}
    (htext : plan.Textual number) (hi : plan.instances.Sorted) (hl : plan.barLayouts.Sorted) (removed : QString → Bool) :
    size number (.object (surfacePlanObject (removeInstances plan removed))) ≤
      size number (.object (surfacePlanObject plan)) := by
  have hinstance : ∀ m ∈ plan.instances.map fun e => (e.1, QJsonValue.object (instanceObject e.2)),
      IsText m.1 ∧ Persistable number m.2 := by
    rw [List.forall_mem_map]
    exact fun e he => ⟨(htext.instances e he).1, persistable_instanceObject hplain (htext.instances e he).2⟩
  have hlayout {plan : SurfacePlan} (htext : plan.Textual number) :
      ∀ m ∈ plan.barLayouts.map fun e => (e.1, QJsonValue.object (layoutObject e.2)),
        IsText m.1 ∧ Persistable number m.2 := by
    rw [List.forall_mem_map]
    exact fun e he => ⟨(htext.layouts e he).1, persistable_layoutObject (htext.layouts e he).2⟩
  have hsublist := (List.filter_sublist (p := fun e => !removed e.1) (l := plan.instances)).map
    fun e => (e.1, QJsonValue.object (instanceObject e.2))
  have hfiltered := size_ofList_le (fun m hm => hinstance m (hsublist.subset hm)) hinstance
    (by rw [List.map_map]; exact QMap.nodup_of_sorted hi) hsublist
    (List.forall₂_same.mpr fun _ _ => ⟨rfl, le_refl _⟩)
  have hshrunk := size_ofList_le (hlayout (htext.removeInstances removed)) (hlayout htext)
    (by rw [List.map_map]; exact QMap.nodup_of_sorted hl) (List.Sublist.refl _) (by
      rw [removeInstances, List.map_map, List.forall₂_map_left_iff, List.forall₂_map_right_iff, List.forall₂_same]
      exact fun e he => ⟨rfl, size_layoutObject_filter (htext.layouts e he).2 _⟩)
  have hbars {plan : SurfacePlan} (htext : plan.Textual number) :
      ∀ m ∈ [(qstr "bars", QJsonValue.object (QJsonObject.ofList
        (plan.barLayouts.map fun e => (e.1, .object (layoutObject e.2)))))], IsText m.1 ∧ Persistable number m.2 := by
    simp only [List.forall_mem_cons]
    exact ⟨⟨isText_qstr _, valid_ofList (hlayout htext)⟩, by simp⟩
  have hlayouts := size_ofList_le (hbars (htext.removeInstances removed)) (hbars htext) (by simp)
    (List.Sublist.refl _) (.cons ⟨rfl, hshrunk⟩ .nil)
  have hversion := persistableNumber_natCast hplain (n := 2) (by norm_num)
  have hrevision := isText_digits (decimal_digits plan.configurationRevision.toNat)
  refine size_ofList_le ?_ ?_ (by simp) (List.Sublist.refl _) (.cons ⟨rfl, le_refl _⟩ (.cons ⟨rfl, le_refl _⟩
    (.cons ⟨rfl, le_refl _⟩ (.cons ⟨rfl, hfiltered⟩ (.cons ⟨rfl, hlayouts⟩ .nil)))))
  · simp only [List.forall_mem_cons]
    exact ⟨⟨isText_qstr _, hversion⟩, ⟨isText_qstr _, htext.catalogDigest⟩, ⟨isText_qstr _, hrevision⟩,
      ⟨isText_qstr _, valid_ofList fun m hm => hinstance m (hsublist.subset hm)⟩,
      ⟨isText_qstr _, valid_ofList (hbars (htext.removeInstances removed))⟩, by simp⟩
  · simp only [List.forall_mem_cons]
    exact ⟨⟨isText_qstr _, hversion⟩, ⟨isText_qstr _, htext.catalogDigest⟩, ⟨isText_qstr _, hrevision⟩,
      ⟨isText_qstr _, valid_ofList hinstance⟩, ⟨isText_qstr _, valid_ofList (hbars htext)⟩, by simp⟩

/-- Taking instances out never makes a plan too large. -/
theorem SurfacePlan.Fits.removeInstances (hplain : number.PlainIntegers) {plan : SurfacePlan}
    (htext : plan.Textual number) (hi : plan.instances.Sorted) (hl : plan.barLayouts.Sorted)
    (h : plan.Fits number) (removed : QString → Bool) : (removeInstances plan removed).Fits number := by
  have hsize := size_surfacePlanObject_removeInstances hplain htext hi hl removed
  unfold SurfacePlan.Fits at h ⊢
  rw [surfacePlanBytes_length] at h ⊢
  push_cast at h ⊢
  omega

end Shrinks
end HyprShelld.Components
