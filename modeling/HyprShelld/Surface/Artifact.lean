import HyprShelld.Json.Size
import HyprShelld.Surface.PlanTrip

/-! An artifact is made exactly of the sound plans that fit, and holds the plan it was made of. -/
namespace HyprShelld
open Json

theorem QMap.sorted_objects {α : Type} {m : QMap α} (hm : m.Sorted) (f : α → QJsonObject) :
    QJsonObject.Sorted (m.map fun e => (e.1, .object (f e.2))) := by
  rw [QJsonObject.Sorted, List.pairwise_map]
  exact hm

theorem QMap.ofList_objects {α : Type} {m : QMap α} (hm : m.Sorted) (f : α → QJsonObject) :
    QJsonObject.ofList (m.map fun e => (e.1, .object (f e.2))) = m.map fun e => (e.1, .object (f e.2)) := by
  apply QJsonObject.ofList_self (sorted_objects hm f)
  intro e he
  obtain ⟨_, _, rfl⟩ := List.mem_map.mp he
  simp

namespace Components

section Relations

def placedIds (barLayouts : QMap SurfaceBarLayout) : List QString :=
  barLayouts.flatMap fun e => e.2.start ++ e.2.center ++ e.2.end

theorem placements_ids (barLayouts : QMap SurfaceBarLayout) :
    (placements barLayouts).map (·.2) = placedIds barLayouts := by
  induction barLayouts with
  | nil => rfl
  | cons e barLayouts ih =>
    have hregion (path : QString) (ids : List QString) :
        (ids.zipIdx.map fun x => (indexPath path x.2, x.1)).map (·.2) = ids := by
      rw [List.map_map]
      exact List.zipIdx_map_fst 0 ids
    have hlayout : ((e.2.regions.flatMap fun r => r.2.zipIdx.map fun x =>
        (indexPath (qstr "$.layouts.bars." ++ e.1 ++ qstr ".regions." ++ r.1) x.2, x.1)).map (·.2)) =
        e.2.start ++ e.2.center ++ e.2.end := by
      simp only [SurfaceBarLayout.regions, List.flatMap_cons, List.flatMap_nil, List.map_append, hregion,
        List.append_nil, List.append_assoc]
    rw [placements, List.flatMap_cons, List.map_append, placedIds, List.flatMap_cons, ← placedIds, ← ih, placements]
    rw [← hlayout]

theorem checkPlacements_ok {instances : QMap SurfaceInstance} {placed : List QString} {ids : List (QString × QString)}
    (h : (checkPlacements instances placed ids).errors = []) :
    (checkPlacements instances placed ids).value = (ids.map (·.2)).reverse ++ placed ∧
      (ids.map (·.2)).Nodup ∧ ∀ id ∈ ids.map (·.2), instances.contains id = true ∧ id ∉ placed := by
  induction ids generalizing placed with
  | nil => simp [checkPlacements]
  | cons e ids ih =>
    obtain ⟨path, id⟩ := e
    rw [checkPlacements] at h ⊢
    by_cases hc : instances.contains id = true
    · by_cases hp : placed.contains id = true
      · rw [if_neg (by simp [hc]), if_pos hp] at h
        simp [addError, Checked.report] at h
      · rw [if_neg (by simp [hc]), if_neg hp] at h ⊢
        obtain ⟨hv, hn, hall⟩ := ih h
        have hid : id ∉ placed := by simpa using hp
        refine ⟨by rw [hv]; simp, ?_, ?_⟩
        · rw [List.map_cons, List.nodup_cons]
          exact ⟨fun hm => (hall id hm).2 List.mem_cons_self, hn⟩
        · intro other hm
          rcases List.mem_cons.mp hm with rfl | hm
          · exact ⟨hc, hid⟩
          · exact ⟨(hall other hm).1, fun ho => (hall other hm).2 (List.mem_cons_of_mem _ ho)⟩
    · simp [hc, addError, Checked.report] at h

theorem checkPlacements_complete {instances : QMap SurfaceInstance} {placed : List QString}
    {ids : List (QString × QString)} (hn : (ids.map (·.2)).Nodup)
    (h : ∀ id ∈ ids.map (·.2), instances.contains id = true ∧ id ∉ placed) :
    checkPlacements instances placed ids = ⟨(ids.map (·.2)).reverse ++ placed, []⟩ := by
  induction ids generalizing placed with
  | nil => rfl
  | cons e ids ih =>
    obtain ⟨path, id⟩ := e
    obtain ⟨hc, hp⟩ := h id List.mem_cons_self
    rw [List.map_cons, List.nodup_cons] at hn
    rw [checkPlacements, if_neg (by simp [hc]), if_neg (by simpa using hp), ih hn.2]
    · simp
    · intro other hm
      refine ⟨(h other (List.mem_cons_of_mem _ hm)).1, ?_⟩
      intro ho
      rcases List.mem_cons.mp ho with rfl | ho
      · exact hn.1 hm
      · exact (h other (List.mem_cons_of_mem _ hm)).2 ho

/-- Every instance has exactly one placement, and every placement an instance. -/
structure SurfacePlan.Placed (plan : SurfacePlan) : Prop where
  once : (placedIds plan.barLayouts).Nodup
  known : ∀ id ∈ placedIds plan.barLayouts, id ∈ plan.instances.keys
  all : ∀ id ∈ plan.instances.keys, id ∈ placedIds plan.barLayouts

theorem validateRelationships_iff {plan : SurfacePlan} : validateRelationships plan = [] ↔ plan.Placed := by
  constructor
  · intro h
    simp only [validateRelationships, Checked.bind_errors, List.append_eq_nil_iff, Checked.reportAll_errors,
      List.map_eq_nil_iff, List.filter_eq_nil_iff, Bool.not_eq_true', Bool.not_eq_false] at h
    obtain ⟨hplaced, hall⟩ := h
    obtain ⟨hv, hn, hknown⟩ := checkPlacements_ok hplaced
    rw [placements_ids] at hv hn hknown
    refine ⟨hn, fun id hm => QMap.contains_iff.mp (hknown id hm).1, ?_⟩
    intro id hm
    have := hall id hm
    rw [hv] at this
    simpa using this
  · intro h
    have hids : ∀ id ∈ (placements plan.barLayouts).map (·.2), plan.instances.contains id = true ∧ id ∉ ([] : List QString) := by
      rw [placements_ids]
      exact fun id hm => ⟨QMap.contains_iff.mpr (h.known id hm), List.not_mem_nil⟩
    have hchecks := checkPlacements_complete (by rw [placements_ids]; exact h.once) hids
    simp only [validateRelationships, Checked.bind_errors, hchecks, Checked.reportAll_errors, List.nil_append,
      List.map_eq_nil_iff, List.filter_eq_nil_iff, Bool.not_eq_true', Bool.not_eq_false]
    intro id hm
    rw [placements_ids]
    simpa using h.all id hm

end Relations

section Plan
variable (number : NumberText) (unicode : UnicodeTables)

/-- The plans the reader accepts. -/
structure SurfacePlan.Sound (plan : SurfacePlan) : Prop where
  catalogDigest : hasMatch surfacePlanDigest plan.catalogDigest = true
  instances_sorted : plan.instances.Sorted
  layouts_sorted : plan.barLayouts.Sorted
  few_instances : plan.instances.length ≤ maximumSurfacePlanInstances
  few_layouts : plan.barLayouts.length ≤ maximumSurfacePlanBarLayouts
  instances : ∀ e ∈ plan.instances, hasMatch surfacePlanUuidV4 e.1 = true ∧ e.2.Sound number unicode
  layouts : ∀ e ∈ plan.barLayouts, layoutIdPattern e.1 = true ∧ e.2.Sound
  placed : plan.Placed

variable {number unicode}

theorem parseInstances_ok {o : QJsonObject} {l : List (QString × SurfaceInstance)}
    (h : parseInstances number unicode o = .ok l) :
    l.map (·.1) = o.map (·.1) ∧ ∀ e ∈ l, hasMatch surfacePlanUuidV4 e.1 = true ∧ e.2.Sound number unicode := by
  induction o generalizing l with
  | nil =>
    cases h
    simp
  | cons e o ih =>
    obtain ⟨key, value⟩ := e
    simp only [parseInstances, bind_ok_iff, require_ok_iff, exists_const, pure_ok_iff, Bool.and_eq_true] at h
    obtain ⟨⟨hkey, _⟩, i, hi, rest, hrest, rfl⟩ := h
    obtain ⟨hk, hall⟩ := ih hrest
    refine ⟨by simp only [List.map_cons, hk], ?_⟩
    intro f hf
    rcases List.mem_cons.mp hf with rfl | hf
    · exact ⟨hkey, parseInstance_sound hi⟩
    · exact hall f hf

theorem parseInstances_exact {m : QMap SurfaceInstance} {l : List (QString × SurfaceInstance)}
    (hm : ∀ e ∈ m, e.2.Canonical)
    (h : parseInstances number unicode (m.map fun e => (e.1, .object (instanceObject e.2))) = .ok l) : l = m := by
  induction m generalizing l with
  | nil =>
    cases h
    rfl
  | cons e m ih =>
    simp only [List.map_cons, parseInstances, QJsonValue.toObject, bind_ok_iff, require_ok_iff, exists_const,
      pure_ok_iff] at h
    obtain ⟨_, i, hi, rest, hrest, rfl⟩ := h
    rw [parseInstance_exact (hm e List.mem_cons_self) hi, ih (fun f hf => hm f (List.mem_cons_of_mem _ hf)) hrest]

theorem parseInstances_complete {m : QMap SurfaceInstance}
    (hm : ∀ e ∈ m, hasMatch surfacePlanUuidV4 e.1 = true ∧ e.2.Sound number unicode) :
    parseInstances number unicode (m.map fun e => (e.1, .object (instanceObject e.2))) = .ok m := by
  induction m with
  | nil => rfl
  | cons e m ih =>
    simp only [List.map_cons, parseInstances, QJsonValue.toObject, bind_ok_iff, require_ok_iff, exists_const,
      pure_ok_iff]
    obtain ⟨hkey, hi⟩ := hm e List.mem_cons_self
    exact ⟨by simp [hkey, QJsonValue.isObject], e.2, parseInstance_complete hi _, m,
      ih fun f hf => hm f (List.mem_cons_of_mem _ hf), rfl⟩

theorem parseBarLayouts_ok {o : QJsonObject} {l : List (QString × SurfaceBarLayout)}
    (h : parseBarLayouts o = .ok l) :
    l.map (·.1) = o.map (·.1) ∧ ∀ e ∈ l, layoutIdPattern e.1 = true ∧ e.2.Sound := by
  induction o generalizing l with
  | nil =>
    cases h
    simp
  | cons e o ih =>
    obtain ⟨key, value⟩ := e
    simp only [parseBarLayouts, bind_ok_iff, require_ok_iff, exists_const, pure_ok_iff, Bool.and_eq_true] at h
    obtain ⟨⟨hkey, _⟩, i, hi, rest, hrest, rfl⟩ := h
    obtain ⟨hk, hall⟩ := ih hrest
    refine ⟨by simp only [List.map_cons, hk], ?_⟩
    intro f hf
    rcases List.mem_cons.mp hf with rfl | hf
    · exact ⟨hkey, parseBarLayout_sound hi⟩
    · exact hall f hf

theorem parseBarLayouts_exact {m : QMap SurfaceBarLayout} {l : List (QString × SurfaceBarLayout)}
    (h : parseBarLayouts (m.map fun e => (e.1, .object (layoutObject e.2))) = .ok l) : l = m := by
  induction m generalizing l with
  | nil =>
    cases h
    rfl
  | cons e m ih =>
    simp only [List.map_cons, parseBarLayouts, QJsonValue.toObject, bind_ok_iff, require_ok_iff, exists_const,
      pure_ok_iff] at h
    obtain ⟨_, i, hi, rest, hrest, rfl⟩ := h
    rw [parseBarLayout_exact hi, ih hrest]

theorem parseBarLayouts_complete {m : QMap SurfaceBarLayout}
    (hm : ∀ e ∈ m, layoutIdPattern e.1 = true ∧ e.2.Sound) :
    parseBarLayouts (m.map fun e => (e.1, .object (layoutObject e.2))) = .ok m := by
  induction m with
  | nil => rfl
  | cons e m ih =>
    simp only [List.map_cons, parseBarLayouts, QJsonValue.toObject, bind_ok_iff, require_ok_iff, exists_const,
      pure_ok_iff]
    obtain ⟨hkey, hl⟩ := hm e List.mem_cons_self
    exact ⟨by simp [hkey, QJsonValue.isObject], e.2, parseBarLayout_complete hl _, m,
      ih fun f hf => hm f (List.mem_cons_of_mem _ hf), rfl⟩

theorem parseUnsignedRevision_decimal (n : UInt64) : parseUnsignedRevision (decimal n.toNat) = some n := by
  have hlt := n.toNat_lt
  have hhead : ¬ (1 < (decimal n.toNat).length ∧ (decimal n.toNat).head? = some (unit '0')) :=
    fun h => head_decimal h.1 h.2
  rw [parseUnsignedRevision, if_neg, toULongLong_decimal (by unfold maximumUnsigned64; omega), Option.map_some,
    UInt64.ofNat_toNat]
  simp only [decimal_ne_nil, hhead, decimal_digits]
  simp

theorem surfacePlanObject_value (plan : SurfacePlan) (k : QString) :
    QJsonObject.value (surfacePlanObject plan) k = (List.lookup k [
      (qstr "formatVersion", .double (.finite surfacePlanFormatVersion)),
      (qstr "catalogDigest", .string plan.catalogDigest),
      (qstr "configurationRevision", .string (decimal plan.configurationRevision.toNat)),
      (qstr "instances", .object (QJsonObject.ofList
        (plan.instances.map fun e => (e.1, .object (instanceObject e.2))))),
      (qstr "layouts", .object (QJsonObject.ofList [
        (qstr "bars", .object (QJsonObject.ofList
          (plan.barLayouts.map fun e => (e.1, .object (layoutObject e.2)))))]))]).getD .undefined :=
  QJsonObject.value_ofList (by simp) (by simp) k

theorem barsObject_value (bars : QJsonValue) (h : bars ≠ .undefined) :
    QJsonObject.value (QJsonObject.ofList [(qstr "bars", bars)]) (qstr "bars") = bars := by
  rw [QJsonObject.value_ofList (by simp) (by simpa using h)]
  simp

theorem parsePlanFields_complete {plan : SurfacePlan} (h : plan.Sound number unicode) :
    parsePlanFields number unicode (surfacePlanObject plan) = .ok plan := by
  have hkeys : hasExactKeys (surfacePlanObject plan) ([("formatVersion" : String), "catalogDigest",
      "configurationRevision", "instances", "layouts"].map qstr) = true :=
    hasExactKeys_ofList rfl (by simp) (by simp)
  have hversion : QJsonValue.toInteger (.double (.finite ((surfacePlanFormatVersion : Int) : ℚ))) (-1) =
      surfacePlanFormatVersion := toInteger_natCast (n := 2) (by norm_num) (-1)
  have hinstances := QMap.ofList_objects h.instances_sorted instanceObject
  have hlayouts := QMap.ofList_objects h.layouts_sorted layoutObject
  simp only [parsePlanFields, requireExactKeys, bind_ok_iff, require_ok_iff, exists_const, pure_ok_iff, orError_ok_iff,
    surfacePlanObject_value]
  simp only [QJsonObject.lookup_cons_ite, qstr_inj, String.reduceEq, if_false, if_true, Option.getD_some,
    QJsonValue.isObject, QJsonValue.toObject, QJsonValue.isString, QJsonValue.toString, QJsonValue.isDouble,
    QJsonValue.toDouble, hversion, hinstances, hlayouts]
  refine ⟨hkeys, by simp, by simp [h.catalogDigest], _, parseUnsignedRevision_decimal _, rfl,
    by simpa using h.few_instances, _, parseInstances_complete h.instances, hasExactKeys_ofList rfl (by simp) (by simp), ?_⟩
  rw [barsObject_value _ (by simp)]
  refine ⟨rfl, by simpa using h.few_layouts, _, parseBarLayouts_complete h.layouts, ?_⟩
  rw [QMap.ofList_sorted h.instances_sorted, QMap.ofList_sorted h.layouts_sorted]

theorem parsePlanFields_exact {plan read : SurfacePlan} (hi : plan.instances.Sorted) (hl : plan.barLayouts.Sorted)
    (hc : ∀ e ∈ plan.instances, e.2.Canonical)
    (h : parsePlanFields number unicode (surfacePlanObject plan) = .ok read) :
    read = plan ∧ (plan.Placed → plan.Sound number unicode) := by
  have hinstances := QMap.ofList_objects hi instanceObject
  have hlayouts := QMap.ofList_objects hl layoutObject
  simp only [parsePlanFields, requireExactKeys, bind_ok_iff, require_ok_iff, exists_const, pure_ok_iff, orError_ok_iff,
    surfacePlanObject_value] at h
  simp only [QJsonObject.lookup_cons_ite, qstr_inj, String.reduceEq, if_false, if_true, Option.getD_some,
    QJsonValue.isObject, QJsonValue.toObject, QJsonValue.isString, QJsonValue.toString, QJsonValue.isDouble,
    QJsonValue.toDouble, hinstances, hlayouts] at h
  obtain ⟨_, _, hdigest, revision, hrevision, _, hfewInstances, instances, hreadInstances, _, hbars⟩ := h
  rw [barsObject_value _ (by simp)] at hbars
  obtain ⟨_, hfewLayouts, layouts, hreadLayouts, rfl⟩ := hbars
  rw [parseUnsignedRevision_decimal] at hrevision
  cases hrevision
  have hsoundInstances := (parseInstances_ok hreadInstances).2
  have hsoundLayouts := (parseBarLayouts_ok hreadLayouts).2
  rw [parseInstances_exact hc hreadInstances] at hsoundInstances ⊢
  rw [parseBarLayouts_exact hreadLayouts] at hsoundLayouts ⊢
  refine ⟨by rw [QMap.ofList_sorted hi, QMap.ofList_sorted hl], ?_⟩
  intro hplaced
  exact ⟨by simpa using hdigest, hi, hl, by simpa using hfewInstances, by simpa using hfewLayouts, hsoundInstances,
    hsoundLayouts, hplaced⟩

end Plan
end Components
end HyprShelld
