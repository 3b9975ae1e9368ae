import HyprShelld.Coordinator.PlanBuilder
import HyprShelld.Surface.Removal

/-! What the builder builds: exactly the effective instances, where they were placed. -/
namespace HyprShelld.Components

section Effective
variable (number : NumberText) (unicode : UnicodeTables)
variable (catalog : RuntimeCatalogSnapshot) (configuration : RuntimeConfigurationSnapshot)

def RuntimeDesiredBarLayout.ids (l : RuntimeDesiredBarLayout) : List QString := l.start ++ l.center ++ l.end

/-- The instance that stands in the plan for a placed one. -/
def effective (layoutId instanceId : QString) : Option SurfaceInstance := do
  let desiredInstance ← configuration.instances.lookup instanceId
  let (desiredComponent, catalogEntry) ← activePackage catalog configuration desiredInstance
  return effectiveInstance number unicode layoutId desiredInstance desiredComponent catalogEntry

def effectiveEntries (layoutId : QString) (ids : List QString) : List (QString × SurfaceInstance) :=
  ids.filterMap fun id => (effective number unicode catalog configuration layoutId id).map (id, ·)

def effectiveIds (layoutId : QString) (ids : List QString) : List QString :=
  ids.filter fun id => (effective number unicode catalog configuration layoutId id).isSome

def effectiveLayout (layoutId : QString) (l : RuntimeDesiredBarLayout) : SurfaceBarLayout where
  outputMode := l.outputMode
  start := effectiveIds number unicode catalog configuration layoutId l.start
  center := effectiveIds number unicode catalog configuration layoutId l.center
  «end» := effectiveIds number unicode catalog configuration layoutId l.end

def effectivePlan : SurfacePlan where
  catalogDigest := catalog.catalogDigest
  configurationRevision := configuration.revision
  instances := QMap.ofList (configuration.barLayouts.flatMap fun e =>
    effectiveEntries number unicode catalog configuration e.1 e.2.ids)
  barLayouts := QMap.ofList (configuration.barLayouts.map fun e =>
    (e.1, effectiveLayout number unicode catalog configuration e.1 e.2))

/-- A placed instance exists, and where it has a say its package may stand there. -/
def Placeable (layoutId instanceId : QString) : Prop :=
  ∃ desiredInstance, configuration.instances.lookup instanceId = some desiredInstance ∧
    ∀ desiredComponent catalogEntry,
      activePackage catalog configuration desiredInstance = some (desiredComponent, catalogEntry) →
        (isBuiltinValid desiredInstance desiredComponent catalogEntry ||
          isDeclarativeValid number unicode layoutId desiredInstance desiredComponent catalogEntry) = true

structure Buildable : Prop where
  catalogDigest : hasMatch digestPattern catalog.catalogDigest = true
  same : configuration.catalogDigest = catalog.catalogDigest
  entries : checkRuntimeCatalog catalog = .ok ()
  few_instances : configuration.instances.length ≤ maximumSurfacePlanInstances
  few_layouts : configuration.barLayouts.length ≤ maximumSurfacePlanBarLayouts
  outputs : ∀ e ∈ configuration.barLayouts, e.2.outputMode = qstr "all"
  once : (configuration.barLayouts.flatMap (·.2.ids)).Nodup
  placeable : ∀ e ∈ configuration.barLayouts, ∀ id ∈ e.2.ids, Placeable number unicode catalog configuration e.1 id

/-- The state after placing these instances of a layout. -/
def BuildState.after (state : BuildState) (layoutId : QString) (ids : List QString) : BuildState where
  placed := ids.reverse ++ state.placed
  instances := (effectiveEntries number unicode catalog configuration layoutId ids).foldl
    (fun m e => QMap.insert e.1 e.2 m) state.instances

variable {number unicode catalog configuration}

theorem BuildState.after_append (state : BuildState) (layoutId : QString) (a b : List QString) :
    (state.after number unicode catalog configuration layoutId a).after number unicode catalog configuration layoutId b =
      state.after number unicode catalog configuration layoutId (a ++ b) := by
  simp [BuildState.after, effectiveEntries, List.filterMap_append, List.foldl_append]

variable (number unicode) in
theorem effective_none (layoutId : QString) {instanceId : QString} {d : RuntimeDesiredVisualInstance}
    (hd : configuration.instances.lookup instanceId = some d) (h : activePackage catalog configuration d = none) :
    effective number unicode catalog configuration layoutId instanceId = none := by
  simp [effective, hd, h]

variable (number unicode) in
theorem effective_some (layoutId : QString) {instanceId : QString} {d : RuntimeDesiredVisualInstance}
    {c : RuntimeDesiredComponent} {entry : RuntimeCatalogEntry}
    (hd : configuration.instances.lookup instanceId = some d)
    (h : activePackage catalog configuration d = some (c, entry)) :
    effective number unicode catalog configuration layoutId instanceId =
      some (effectiveInstance number unicode layoutId d c entry) := by
  simp [effective, hd, h]

/-- One region, decided by what is placed in it and by what was placed before. -/
theorem buildRegion_iff {layoutId regionName : QString} {index : Nat} {ids : List QString} {state : BuildState}
    {result : List QString × BuildState} :
    buildRegion number unicode catalog configuration layoutId regionName index ids state = .ok result ↔
      (ids.Nodup ∧ ∀ id ∈ ids, id ∉ state.placed ∧ Placeable number unicode catalog configuration layoutId id) ∧
        result = (effectiveIds number unicode catalog configuration layoutId ids,
          state.after number unicode catalog configuration layoutId ids) := by
  induction ids generalizing index state result with
  | nil =>
    simp only [buildRegion, pure_ok_iff, effectiveIds, BuildState.after, effectiveEntries]
    constructor
    · rintro rfl
      simp
    · rintro ⟨_, rfl⟩
      simp
  | cons id ids ih =>
    simp only [buildRegion, bind_ok_iff, require_ok_iff, exists_const, orError_ok_iff, List.nodup_cons,
      List.forall_mem_cons]
    constructor
    · rintro ⟨hfresh, d, hd, h⟩
      have hfresh : id ∉ state.placed := by simpa using hfresh
      cases hp : activePackage catalog configuration d with
      | none =>
        rw [hp] at h
        obtain ⟨⟨hnodup, hall⟩, rfl⟩ := ih.mp h
        have he := effective_none number unicode layoutId hd hp
        have hplace : Placeable number unicode catalog configuration layoutId id := ⟨d, hd, by simp [hp]⟩
        refine ⟨⟨⟨?_, hnodup⟩, ⟨hfresh, hplace⟩, ?_⟩, ?_⟩
        · exact fun hm => (hall id hm).1 List.mem_cons_self
        · exact fun other hm => ⟨fun ho => (hall other hm).1 (List.mem_cons_of_mem _ ho), (hall other hm).2⟩
        · simp [effectiveIds, BuildState.after, effectiveEntries, he]
      | some package =>
        obtain ⟨c, entry⟩ := package
        simp only [hp, bind_ok_iff, require_ok_iff, exists_const, pure_ok_iff] at h
        obtain ⟨hvalid, ⟨rest, state'⟩, hrest, rfl⟩ := h
        obtain ⟨⟨hnodup, hall⟩, heq⟩ := ih.mp hrest
        cases heq
        have he := effective_some number unicode layoutId hd hp
        have hplace : Placeable number unicode catalog configuration layoutId id := by
          refine ⟨d, hd, ?_⟩
          rintro c' entry' h'
          rw [hp] at h'
          cases h'
          exact hvalid
        refine ⟨⟨⟨?_, hnodup⟩, ⟨hfresh, hplace⟩, ?_⟩, ?_⟩
        · exact fun hm => (hall id hm).1 List.mem_cons_self
        · exact fun other hm => ⟨fun ho => (hall other hm).1 (List.mem_cons_of_mem _ ho), (hall other hm).2⟩
        · simp [effectiveIds, BuildState.after, effectiveEntries, he]
    · rintro ⟨⟨⟨hid, hnodup⟩, ⟨hfresh, d, hd, hvalid⟩, hall⟩, rfl⟩
      refine ⟨by simpa using hfresh, d, hd, ?_⟩
      have hrest (instances : QMap SurfaceInstance) : ∀ other ∈ ids,
          other ∉ (⟨id :: state.placed, instances⟩ : BuildState).placed ∧
            Placeable number unicode catalog configuration layoutId other := by
        intro other hm
        refine ⟨?_, (hall other hm).2⟩
        intro ho
        rcases List.mem_cons.mp ho with rfl | ho
        · exact hid hm
        · exact (hall other hm).1 ho
      cases hp : activePackage catalog configuration d with
      | none =>
        have he := effective_none number unicode layoutId hd hp
        refine ih.mpr ⟨⟨hnodup, hrest _⟩, ?_⟩
        simp [effectiveIds, BuildState.after, effectiveEntries, he]
      | some package =>
        obtain ⟨c, entry⟩ := package
        have he := effective_some number unicode layoutId hd hp
        simp only [bind_ok_iff, require_ok_iff, exists_const, pure_ok_iff]
        refine ⟨hvalid c entry hp, _, ih.mpr ⟨⟨hnodup, hrest _⟩, rfl⟩, ?_⟩
        simp [effectiveIds, BuildState.after, effectiveEntries, he]

theorem buildLayout_iff {layoutId : QString} {l : RuntimeDesiredBarLayout} {state : BuildState}
    {result : SurfaceBarLayout × BuildState} :
    buildLayout number unicode catalog configuration layoutId l state = .ok result ↔
      (l.outputMode = qstr "all" ∧ l.ids.Nodup ∧
        ∀ id ∈ l.ids, id ∉ state.placed ∧ Placeable number unicode catalog configuration layoutId id) ∧
        result = (effectiveLayout number unicode catalog configuration layoutId l,
          state.after number unicode catalog configuration layoutId l.ids) := by
  have hids : l.ids = l.start ++ l.center ++ l.end := rfl
  simp only [buildLayout, bind_ok_iff, require_ok_iff, exists_const, pure_ok_iff, decide_eq_true_eq, buildRegion_iff]
  constructor
  · rintro ⟨hmode, _, ⟨⟨hs, hsall⟩, rfl⟩, _, ⟨⟨hc, hcall⟩, rfl⟩, _, ⟨⟨he, heall⟩, rfl⟩, rfl⟩
    simp only [BuildState.after, List.mem_append, List.mem_reverse, not_or] at hcall heall
    refine ⟨⟨hmode, ?_, ?_⟩, ?_⟩
    · rw [hids, List.nodup_append, List.nodup_append]
      refine ⟨⟨hs, hc, ?_⟩, he, ?_⟩
      · rintro a ha _ hb rfl
        exact (hcall a hb).1.1 ha
      · rintro a ha _ hb rfl
        rcases List.mem_append.mp ha with ha | ha
        · exact (heall a hb).1.2.1 ha
        · exact (heall a hb).1.1 ha
    · intro id hid
      rw [hids, List.mem_append, List.mem_append] at hid
      rcases hid with (hid | hid) | hid
      · exact hsall id hid
      · exact ⟨(hcall id hid).1.2, (hcall id hid).2⟩
      · exact ⟨(heall id hid).1.2.2, (heall id hid).2⟩
    · rw [BuildState.after_append, BuildState.after_append]
      rfl
  · rintro ⟨⟨hmode, hnodup, hall⟩, rfl⟩
    rw [hids, List.nodup_append, List.nodup_append] at hnodup
    obtain ⟨⟨hs, hc, hsc⟩, he, hsce⟩ := hnodup
    have hstart : ∀ id ∈ l.start, id ∈ l.ids := fun id hid => by simp [hids, hid]
    have hcenter : ∀ id ∈ l.center, id ∈ l.ids := fun id hid => by simp [hids, hid]
    have hend : ∀ id ∈ l.end, id ∈ l.ids := fun id hid => by simp [hids, hid]
    refine ⟨hmode, _, ⟨⟨hs, fun id hid => hall id (hstart id hid)⟩, rfl⟩, _, ⟨⟨hc, ?_⟩, rfl⟩, _, ⟨⟨he, ?_⟩, rfl⟩, ?_⟩
    · intro id hid
      refine ⟨?_, (hall id (hcenter id hid)).2⟩
      simp only [BuildState.after, List.mem_append, List.mem_reverse, not_or]
      exact ⟨fun ho => hsc id ho id hid rfl, (hall id (hcenter id hid)).1⟩
    · intro id hid
      refine ⟨?_, (hall id (hend id hid)).2⟩
      simp only [BuildState.after, List.mem_append, List.mem_reverse, not_or]
      exact ⟨fun ho => hsce id (List.mem_append_right _ ho) id hid rfl,
        fun ho => hsce id (List.mem_append_left _ ho) id hid rfl, (hall id (hend id hid)).1⟩
    · rw [BuildState.after_append, BuildState.after_append]
      rfl

theorem buildLayouts_iff {layouts : QMap RuntimeDesiredBarLayout} {state : BuildState}
    {result : List (QString × SurfaceBarLayout) × BuildState} :
    buildLayouts number unicode catalog configuration layouts state = .ok result ↔
      ((∀ e ∈ layouts, e.2.outputMode = qstr "all") ∧ (layouts.flatMap (·.2.ids)).Nodup ∧
        (∀ id ∈ layouts.flatMap (·.2.ids), id ∉ state.placed) ∧
        ∀ e ∈ layouts, ∀ id ∈ e.2.ids, Placeable number unicode catalog configuration e.1 id) ∧
      result.1 = layouts.map (fun e => (e.1, effectiveLayout number unicode catalog configuration e.1 e.2)) ∧
      result.2 = ⟨(layouts.flatMap (·.2.ids)).reverse ++ state.placed,
        (layouts.flatMap fun e => effectiveEntries number unicode catalog configuration e.1 e.2.ids).foldl
          (fun m e => QMap.insert e.1 e.2 m) state.instances⟩ := by
  induction layouts generalizing state result with
  | nil =>
    simp only [buildLayouts, pure_ok_iff]
    constructor
    · rintro rfl
      simp
    · rintro ⟨_, h1, h2⟩
      exact Prod.ext h1.symm h2.symm
  | cons e layouts ih =>
    obtain ⟨layoutId, l⟩ := e
    simp only [buildLayouts, bind_ok_iff, pure_ok_iff, buildLayout_iff, List.forall_mem_cons, List.flatMap_cons,
      List.map_cons, List.foldl_append, List.nodup_append, List.mem_append]
    constructor
    · rintro ⟨_, ⟨⟨hmode, hnodup, hall⟩, rfl⟩, more, hmore, rfl⟩
      obtain ⟨⟨hmodes, hnodups, hfresh, hplaces⟩, h1, h2⟩ := ih.mp hmore
      simp only [BuildState.after, List.mem_append, List.mem_reverse, not_or] at hfresh
      refine ⟨⟨⟨hmode, hmodes⟩, ⟨hnodup, hnodups, ?_⟩, ?_, fun id hid => (hall id hid).2, hplaces⟩, by rw [h1], ?_⟩
      · rintro a ha _ hb rfl
        exact (hfresh a hb).1 ha
      · intro id hid
        rcases hid with hid | hid
        · exact (hall id hid).1
        · exact (hfresh id hid).2
      · rw [h2]
        simp [BuildState.after]
    · rintro ⟨⟨⟨hmode, hmodes⟩, ⟨hnodup, hnodups, hsep⟩, hfresh, hplace, hplaces⟩, h1, h2⟩
      refine ⟨_, ⟨⟨hmode, hnodup, fun id hid => ⟨hfresh id (.inl hid), hplace id hid⟩⟩, rfl⟩,
        ⟨_, _⟩, ih.mpr ⟨⟨hmodes, hnodups, ?_, hplaces⟩, rfl, rfl⟩, ?_⟩
      · intro id hid
        simp only [BuildState.after, List.mem_append, List.mem_reverse, not_or]
        exact ⟨fun ho => hsep id ho id hid rfl, hfresh id (.inr hid)⟩
      · refine Prod.ext h1.symm ?_
        rw [h2]
        simp [BuildState.after]

/-- The builder succeeds exactly on buildable snapshots, and builds the effective plan. -/
theorem buildSurfacePlan_iff {plan : SurfacePlan} :
    (buildSurfacePlan number unicode catalog configuration).value = some plan ↔
      Buildable number unicode catalog configuration ∧ plan = effectivePlan number unicode catalog configuration := by
  have hbuild : (buildSurfacePlan number unicode catalog configuration).value = some plan ↔
      buildPlan number unicode catalog configuration = .ok plan := by
    unfold buildSurfacePlan
    split <;> simp [*]
  rw [hbuild]
  simp only [buildPlan, bind_ok_iff, require_ok_iff, exists_const, pure_ok_iff, Bool.and_eq_true, decide_eq_true_eq,
    buildLayouts_iff]
  constructor
  · rintro ⟨hdigest, hsame, _, hentries, ⟨hfewi, hfewl⟩, ⟨layouts, state⟩, ⟨⟨hmodes, hnodup, _, hplaces⟩, h1, h2⟩, rfl⟩
    refine ⟨⟨hdigest, hsame, hentries, hfewi, hfewl, hmodes, hnodup, hplaces⟩, ?_⟩
    dsimp only at h1 h2
    rw [h1, h2]
    rfl
  · rintro ⟨h, rfl⟩
    refine ⟨h.catalogDigest, h.same, (), h.entries, ⟨h.few_instances, h.few_layouts⟩, ⟨_, _⟩,
      ⟨⟨h.outputs, h.once, by simp, h.placeable⟩, rfl, rfl⟩, rfl⟩

end Effective
end HyprShelld.Components
