import HyprShelld.Component.ConfigurationAgain
import HyprShelld.Component.ConfigurationService

/-! What a client cannot take from components that are not installed: their records, their instances
and the layouts that hold them. -/
namespace HyprShelld.Configuration
open Components Checked

section Placements
variable {configuration state candidate : ComponentConfiguration} {catalog : ConfigurationCatalog}

/-- The text of a place in a layout. -/
def placementIn (layout : QString × BarLayout) (instanceId : QString) : Option QString :=
  (regionsOf layout.2).findSome? (regionPlacement layout instanceId)

theorem placementIn_none {layout : QString × BarLayout} {id : QString} (h : id ∉ layoutInstances layout.2) :
    placementIn layout id = none := by
  simp only [layoutInstances, List.mem_append, not_or] at h
  simp [placementIn, regionsOf, regionPlacement, h]

/-- Each instance is in one layout of those that hold it once. -/
theorem layout_unique (h : (placements configuration).Nodup) {layout layout' : QString × BarLayout} {id : QString}
    (hl : layout ∈ configuration.bars) (hl' : layout' ∈ configuration.bars) (hid : id ∈ layoutInstances layout.2)
    (hid' : id ∈ layoutInstances layout'.2) : layout = layout' := by
  by_contra hne
  have hpairs := (List.nodup_flatMap.mp h).2
  obtain ⟨i, hi, rfl⟩ := List.getElem_of_mem hl
  obtain ⟨j, hj, rfl⟩ := List.getElem_of_mem hl'
  have hij : i ≠ j := fun hij => hne (by subst hij; rfl)
  rcases Nat.lt_or_gt_of_ne hij with hlt | hlt
  · exact (List.pairwise_iff_getElem.mp hpairs i j hi hj hlt) hid hid'
  · exact (List.pairwise_iff_getElem.mp hpairs j i hj hi hlt) hid' hid

theorem placementOf_layout (h : (placements configuration).Nodup) {layout : QString × BarLayout} {id : QString}
    (hl : layout ∈ configuration.bars) (hid : id ∈ layoutInstances layout.2) :
    placementOf configuration id = (placementIn layout id).getD [] := by
  unfold placementOf
  have hother : ∀ other ∈ configuration.bars, placementIn other id = none ∨ other = layout := by
    intro other hother
    by_cases hin : id ∈ layoutInstances other.2
    · exact .inr (layout_unique h hother hl hin hid)
    · exact .inl (placementIn_none hin)
  change (configuration.bars.findSome? fun layout => placementIn layout id).getD [] = _
  congr 1
  generalize configuration.bars = bars at hl hother
  cases hplaced : placementIn layout id with
  | none =>
    refine List.findSome?_eq_none_iff.mpr fun other hmem => ?_
    rcases hother other hmem with hnone | rfl
    · exact hnone
    · exact hplaced
  | some text =>
    induction bars with
    | nil => cases hl
    | cons first rest ih =>
      obtain ⟨hfirst, hrest⟩ := List.forall_mem_cons.mp hother
      rw [List.findSome?_cons]
      rcases hfirst with hnone | rfl
      · rw [hnone]
        rcases List.mem_cons.mp hl with rfl | hl
        · rw [hplaced] at hnone
          cases hnone
        · exact ih hl hrest
      · rw [hplaced]

end Placements

section Check
variable {state candidate : ComponentConfiguration} {catalog : ConfigurationCatalog}

/-- What a candidate keeps of the state: dormant records, their instances and the layouts of these. -/
structure KeepsDormant (catalog : ConfigurationCatalog) (state candidate : ComponentConfiguration) : Prop where
  records : ∀ id desired, (id, desired) ∈ state.components → isDormant catalog id desired = true →
    ∃ proposed, candidate.components.lookup id = some proposed ∧
      (proposed = desired ∨ adoptsUpdatedUserPackage catalog id desired proposed = true)
  instances : ∀ key placed, (key, placed) ∈ state.instances → placed.componentId ∈ dormantIds catalog state →
    candidate.instances.lookup key = some placed ∧
      ∀ layout ∈ state.bars, key ∈ layoutInstances layout.2 → candidate.bars.lookup layout.1 = some layout.2
  newRecords : ∀ id desired, (id, desired) ∈ candidate.components → isDormant catalog id desired = true → id ∈ dormantIds catalog state
  newInstances : ∀ key placed, (key, placed) ∈ candidate.instances → placed.componentId ∈ dormantIds catalog state →
    state.instances.contains key = true

theorem mem_dormantIds {id : QString} : id ∈ dormantIds catalog state ↔
    ∃ desired, (id, desired) ∈ state.components ∧ isDormant catalog id desired = true := by
  simp [dormantIds]

theorem preservesRecord_iff {id : QString} {desired : DesiredComponent} : preservesRecord catalog candidate id desired = true ↔
    ∃ proposed, candidate.components.lookup id = some proposed ∧
      (proposed = desired ∨ adoptsUpdatedUserPackage catalog id desired proposed = true) := by
  unfold preservesRecord
  cases candidate.components.lookup id <;> simp

theorem preservesLayouts_iff {key : QString} : preservesLayouts state candidate key = true ↔
    ∀ layout ∈ state.bars, key ∈ layoutInstances layout.2 → candidate.bars.lookup layout.1 = some layout.2 := by
  rw [preservesLayouts, List.all_eq_true]
  refine forall₂_congr fun layout _ => ?_
  simp only [Bool.or_eq_true, Bool.not_eq_true', Bool.or_eq_false_iff, decide_eq_true_eq, layoutInstances, List.mem_append]
  rw [← not_iff_not]
  simp
  tauto

/-- The placement need not be compared where the layouts are. -/
theorem placementOf_kept (hstate : (placements state).Nodup) (hcandidate : (placements candidate).Nodup) {key : QString}
    (hkey : key ∈ placements state)
    (h : ∀ layout ∈ state.bars, key ∈ layoutInstances layout.2 → candidate.bars.lookup layout.1 = some layout.2) :
    placementOf candidate key = placementOf state key := by
  obtain ⟨layout, hlayout, hin⟩ := List.mem_flatMap.mp hkey
  have hsame := QMap.mem_of_lookup (h layout hlayout hin)
  rw [placementOf_layout hstate hlayout hin, placementOf_layout hcandidate hsame hin]

variable {number : NumberText} {unicode : UnicodeTables} {catalog' catalog'' : ConfigurationCatalog}

theorem preservesInstance_iff (hstate : SoundPlacements number unicode catalog' state)
    (hcandidate : SoundPlacements number unicode catalog'' candidate) {entry : QString × ComponentInstance}
    (hentry : entry ∈ state.instances) : preservesInstance state candidate entry = none ↔
      candidate.instances.lookup entry.1 = some entry.2 ∧
        ∀ layout ∈ state.bars, entry.1 ∈ layoutInstances layout.2 → candidate.bars.lookup layout.1 = some layout.2 := by
  rw [← preservesLayouts_iff]
  unfold preservesInstance
  by_cases hlayouts : preservesLayouts state candidate entry.1 = true
  · have hplacement := placementOf_kept hstate.once hcandidate.once (hstate.all _ (List.mem_map_of_mem hentry))
      (preservesLayouts_iff.mp hlayouts)
    simp [hlayouts, hplacement]
  · split_ifs <;> simp_all

/-- The check lets through what keeps the dormant part of the state. -/
theorem preservesDormantState_iff (hstate : SoundPlacements number unicode catalog' state)
    (hcandidate : SoundPlacements number unicode catalog'' candidate) :
    preservesDormantState catalog state candidate = none ↔ KeepsDormant catalog state candidate := by
  have hcomponent (entry : QString × DesiredComponent) : preservesComponent catalog state candidate entry = none ↔
      (isDormant catalog entry.1 entry.2 = true → preservesRecord catalog candidate entry.1 entry.2 = true ∧
        ∀ e ∈ state.instances, e.2.componentId = entry.1 → preservesInstance state candidate e = none) := by
    unfold preservesComponent
    split_ifs with hlive hrecord
    · simp_all
    · simp_all
    · simp_all [List.findSome?_eq_none_iff]
  simp only [preservesDormantState, Option.or_eq_none_iff, List.findSome?_eq_none_iff, hcomponent]
  constructor
  · rintro ⟨hkept, hrecords, hinstances⟩
    refine ⟨fun id desired hmem hdormant => preservesRecord_iff.mp (hkept _ hmem hdormant).1, fun key placed hmem hid => ?_,
      fun id desired hmem hdormant => ?_, fun key placed hmem hid => ?_⟩
    · obtain ⟨desired, hdesired, hdormant⟩ := mem_dormantIds.mp hid
      exact (preservesInstance_iff hstate hcandidate hmem).mp ((hkept _ hdesired hdormant).2 _ hmem rfl)
    · by_contra hnew
      have := hrecords _ hmem
      simp [hdormant, hnew] at this
    · by_contra hnew
      have := hinstances _ hmem
      simp [hid, hnew] at this
  · intro h
    refine ⟨fun entry hmem hdormant => ⟨preservesRecord_iff.mpr (h.records _ _ hmem hdormant), fun e he hid => ?_⟩,
      fun entry hmem => ?_, fun entry hmem => ?_⟩
    · refine (preservesInstance_iff hstate hcandidate he).mpr (h.instances _ _ he ?_)
      rw [hid]
      exact mem_dormantIds.mpr ⟨_, hmem, hdormant⟩
    · split_ifs with hnew
      · simp only [Bool.and_eq_true, Bool.not_eq_true', List.contains_eq_mem, decide_eq_false_iff_not] at hnew
        exact absurd (h.newRecords _ _ hmem hnew.1) hnew.2
      · rfl
    · split_ifs with hnew
      · simp only [Bool.and_eq_true, Bool.not_eq_true', List.contains_eq_mem, decide_eq_true_eq] at hnew
        rw [h.newInstances _ _ hmem hnew.1] at hnew
        exact absurd hnew.2 (by simp)
      · rfl

end Check

section Clients
variable {number : NumberText} {unicode : UnicodeTables} {service : ComponentConfigService} {candidate state : ComponentConfiguration}
  {expectedRevision : UInt64} {expectedCatalogDigest : QString} {candidateSnapshot : QByteArray}

/-- A configuration that was accepted under some catalog. -/
def Accepted (number : NumberText) (unicode : UnicodeTables) (configuration : ComponentConfiguration) : Prop :=
  ∃ catalog raw, Admits number unicode catalog raw configuration

theorem Accepted.sorted (h : Accepted number unicode state) : state.components.Sorted ∧ state.instances.Sorted ∧ state.bars.Sorted := by
  obtain ⟨catalog, raw, hadmits⟩ := h
  obtain ⟨hcomponents, -, hrecords⟩ := hadmits.components
  obtain ⟨hinstances, -, hplaced⟩ := hadmits.instances
  refine ⟨sorted_keys (admitted_fields hrecords).2.2 hcomponents, sorted_keys (admitted_fields hplaced).2.2 hinstances, ?_⟩
  rw [hadmits.bars.1]
  exact hadmits.bars.2.1

theorem accepted_parsed {catalog : ConfigurationCatalog} {bytes : QByteArray}
    (h : (parseComponentConfiguration number unicode catalog bytes).value = some candidate) : Accepted number unicode candidate := by
  obtain ⟨root, hroot, hclean⟩ := parseComponentConfiguration_root.mp h
  obtain ⟨raw, -, hadmits⟩ := (clean_parseConfigurationRoot (regular_parsed hroot)).mp hclean
  exact ⟨catalog, raw, hadmits⟩

/-- An instance that another component had before. -/
def HandedOver (state candidate : ComponentConfiguration) (id : QString) : Prop :=
  ∃ key placed before, (key, placed) ∈ candidate.instances ∧ placed.componentId = id ∧ (key, before) ∈ state.instances ∧
    before.componentId ≠ id

/-- What a request must meet besides the candidate itself. -/
structure Current (service : ComponentConfigService) (expectedRevision : UInt64) (expectedCatalogDigest : QString) : Prop where
  writable : service.available = true ∧ service.writable = true
  catalog : service.catalogAvailable = true
  revision : expectedRevision = service.state.revision
  digest : expectedCatalogDigest = service.catalog.digest

/-- What a client may put in the place of the state: a configuration read from its text at the current revision that keeps what
is dormant. -/
structure Admissible (number : NumberText) (unicode : UnicodeTables) (service : ComponentConfigService)
    (expectedRevision : UInt64) (expectedCatalogDigest : QString) (candidateSnapshot : QByteArray)
    (candidate : ComponentConfiguration) : Prop where
  current : Current service expectedRevision expectedCatalogDigest
  parsed : (parseComponentConfiguration number unicode service.catalog candidateSnapshot).value = some candidate
  embedded : candidate.revision = expectedRevision
  keeps : KeepsDormant service.catalog service.state candidate

/-- The instances of a dormant component stay the same ones unless a client hands one of another component over to it. -/
theorem KeepsDormant.instances_iff {catalog : ConfigurationCatalog} (h : KeepsDormant catalog state candidate)
    (hstate : state.instances.Sorted) (hcandidate : candidate.instances.Sorted) {id : QString} (hid : id ∈ dormantIds catalog state) :
    (∀ e : QString × ComponentInstance, e.2.componentId = id → (e ∈ candidate.instances ↔ e ∈ state.instances)) ↔
      ¬ HandedOver state candidate id := by
  constructor
  · rintro hsame ⟨key, placed, before, hplaced, hcomponent, hbefore, hother⟩
    have hstill := (hsame (key, placed) hcomponent).mp hplaced
    have := (QMap.lookup_of_mem hstate hstill).symm.trans (QMap.lookup_of_mem hstate hbefore)
    exact hother (Option.some_inj.mp this ▸ hcomponent)
  · intro hnone e hcomponent
    constructor
    · intro he
      have hknown := h.newInstances e.1 e.2 he (hcomponent ▸ hid)
      obtain ⟨before, hbefore⟩ := Option.isSome_iff_exists.mp hknown
      have hmem := QMap.mem_of_lookup hbefore
      have hsame : before.componentId = id := by
        by_contra hother
        exact hnone ⟨e.1, e.2, before, he, hcomponent, hmem, hother⟩
      have hkept := (h.instances e.1 before hmem (hsame ▸ hid)).1
      rw [QMap.lookup_of_mem hcandidate he] at hkept
      rwa [← Option.some_inj.mp hkept] at hmem
    · intro he
      exact QMap.mem_of_lookup (h.instances e.1 e.2 he (hcomponent ▸ hid)).1

/-- The configuration that was read, with another revision. -/
theorem Accepted.revised (h : Accepted number unicode state) (revision : UInt64) : Accepted number unicode { state with revision } := by
  obtain ⟨catalog, raw, hadmits⟩ := h
  have hplaceable : ∀ layout ∈ state.bars, ∀ id ∈ layoutInstances layout.2,
      Placeable number unicode catalog { state with revision } layout.1 id := by
    intro layout hlayout key hkey
    obtain ⟨hid, hknown, hmain⟩ := hadmits.placements.placeable layout hlayout key hkey
    exact ⟨hid, hknown, hmain⟩
  exact ⟨catalog, { raw with revision },
    ⟨rfl, hadmits.components, hadmits.instances, hadmits.bars, ⟨hadmits.placements.once, hadmits.placements.all, hplaceable⟩⟩⟩

/-- The checks let through exactly the admissible candidates. -/
theorem checkCandidate_iff (hstate : Accepted number unicode service.state) :
    ComponentConfigService.checkCandidate number unicode service expectedRevision expectedCatalogDigest candidateSnapshot =
        .ok candidate ↔
      Admissible number unicode service expectedRevision expectedCatalogDigest candidateSnapshot candidate := by
  obtain ⟨before, rawBefore, hbefore⟩ := hstate
  unfold ComponentConfigService.checkCandidate
  by_cases hcurrent : Current service expectedRevision expectedCatalogDigest
  · obtain ⟨⟨havailable, hwritable⟩, hcatalog, hrevision, hdigest⟩ := id hcurrent
    rw [if_neg (by simp [havailable, hwritable]), if_neg (by simp [hcatalog]), if_neg (not_not.mpr hrevision),
      if_neg (not_not.mpr hdigest)]
    cases hparsed : (parseComponentConfiguration number unicode service.catalog candidateSnapshot).value with
    | none =>
      refine iff_of_false (by simp) fun h => ?_
      rw [h.parsed] at hparsed
      cases hparsed
    | some parsed =>
      obtain ⟨catalog, raw, hadmits⟩ := accepted_parsed hparsed
      have hkeeps := @preservesDormantState_iff _ _ service.catalog _ _ _ _ hbefore.placements hadmits.placements
      dsimp only
      split_ifs with hembedded
      · refine iff_of_false (by simp) fun h => ?_
        obtain rfl := Option.some_inj.mp (h.parsed.symm.trans hparsed)
        exact hembedded h.embedded
      · cases hdormant : preservesDormantState service.catalog service.state parsed with
        | none =>
          simp only [Except.ok.injEq]
          constructor
          · rintro rfl
            exact ⟨hcurrent, hparsed, not_not.mp hembedded, hkeeps.mp hdormant⟩
          · exact fun h => Option.some_inj.mp (hparsed.symm.trans h.parsed)
        | some error =>
          refine iff_of_false (by simp) fun h => ?_
          obtain rfl := Option.some_inj.mp (h.parsed.symm.trans hparsed)
          rw [hkeeps.mpr h.keeps] at hdormant
          cases hdormant
  · refine iff_of_false (fun h => hcurrent ?_) fun h => hcurrent h.current
    split_ifs at h with hwritable hcatalog hrevision hdigest
    simp only [Bool.or_eq_true, Bool.not_eq_true', not_or, Bool.not_eq_false] at hwritable hcatalog
    exact ⟨hwritable, hcatalog, not_not.mp hrevision, not_not.mp hdigest⟩

end Clients

section Sample

def clockId : QString := qstr "org.example.clock"
def levelId : QString := qstr "org.example.level"
def clockInstance : QString := qstr "00000000-0000-4000-8000-000000000001"

/-- The clock alone is installed. -/
def clockCatalog : ConfigurationCatalog where
  digest := levelDigest
  entries := [(clockId, { packageDigest := levelDigest, origin := .system, settingsSchema := ⟨[]⟩, componentApiVersion := qstr "1.0" })]

def sharedConfiguration (owner : QString) : ComponentConfiguration where
  components := [(clockId, ⟨levelDigest, true, [], []⟩), (levelId, ⟨levelDigest, true, [], []⟩)]
  instances := [(levelInstance, ⟨levelId, true, []⟩), (clockInstance, ⟨owner, true, []⟩)]
  bars := [(qstr "main", { start := [clockInstance], center := [levelInstance] })]

def loadedClock (owner : QString) (revision : UInt64) : ComponentConfigService where
  state := { sharedConfiguration owner with revision }
  catalog := clockCatalog
  catalogDigest := levelDigest
  loadState := qstr "normal"
  available := true
  writable := true
  catalogAvailable := true
  loadedOnce := true

def sharedBytes (owner : QString) : QByteArray := serializeComponentConfiguration exactDecimal (sharedConfiguration owner)

theorem shared_evaluated : ∀ owner ∈ [clockId, levelId],
    (Persistable exactDecimal (.object (configurationObject (sharedConfiguration owner))) ∧
      (Json.nesting (.object (configurationObject (sharedConfiguration owner))) : Int) ≤ configurationLimits.maximumDepth ∧
      ((sharedBytes owner).length : Int) ≤ configurationLimits.maximumBytes) ∧
    (parseConfigurationRoot exactDecimal qaTables clockCatalog (configurationObject (sharedConfiguration owner))).result.value =
      some (sharedConfiguration owner) := by
  decide +kernel

theorem shared_accepted {owner : QString} (h : owner ∈ [clockId, levelId]) :
    (parseComponentConfiguration exactDecimal qaTables clockCatalog (sharedBytes owner)).value = some (sharedConfiguration owner) := by
  obtain ⟨⟨hpersistable, hnesting, hlength⟩, hroot⟩ := shared_evaluated owner h
  refine parseComponentConfiguration_root.mpr ⟨configurationObject (sharedConfiguration owner), ?_, result_iff.mp hroot⟩
  rw [sharedBytes, serializeComponentConfiguration, parseStrictJsonObject_compactJson configurationLimits hpersistable hnesting hlength]

theorem shared_dormant : preservesDormantState clockCatalog (sharedConfiguration clockId) (sharedConfiguration levelId) = none ∧
    levelId ∈ dormantIds clockCatalog (sharedConfiguration clockId) ∧
    (clockInstance, (⟨levelId, true, []⟩ : ComponentInstance)) ∈ (sharedConfiguration levelId).instances ∧
    (clockInstance, (⟨clockId, true, []⟩ : ComponentInstance)) ∈ (sharedConfiguration clockId).instances ∧ clockId ≠ levelId := by
  decide +kernel

/-- The instance of the clock may be handed over to a component that is not installed. -/
theorem shared_admissible : Admissible exactDecimal qaTables (loadedClock clockId 0) 0 levelDigest (sharedBytes levelId)
    (sharedConfiguration levelId) := by
  obtain ⟨hnone, -⟩ := shared_dormant
  obtain ⟨_, _, hstate⟩ := accepted_parsed (shared_accepted (List.mem_cons_self : clockId ∈ [clockId, levelId]))
  have hlevel := shared_accepted (List.mem_cons_of_mem clockId List.mem_cons_self : levelId ∈ [clockId, levelId])
  obtain ⟨_, _, hcandidate⟩ := accepted_parsed hlevel
  exact ⟨⟨⟨rfl, rfl⟩, rfl, rfl, rfl⟩, hlevel, rfl, (preservesDormantState_iff hstate.placements hcandidate.placements).mp hnone⟩

end Sample

end HyprShelld.Configuration
