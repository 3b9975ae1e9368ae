import HyprShelld.Coordinator.Idle

/-! What the health files remember across cuts: a package on probation is found again, and no revision is lost. -/
namespace HyprShelld.PlanController
open Components HealthStore

variable {number : NumberText} {unicode : UnicodeTables} {sha256 : QByteArray → QString}

section Files
variable (number) (good : ComponentRuntimeHealthState → Prop)

/-- The files hold a good state. -/
def Hold (files : HealthFiles) : Prop := ∃ state, Durable number files state ∧ good state

/-- What the legal commits of harmless purposes preserve, whatever safe mode is. -/
structure Kept (harmless : Purpose → Prop) : Prop where
  congr : ∀ {state state' : ComponentRuntimeHealthState}, state'.revision = state.revision →
    state'.records = state.records → state'.pending = state.pending → good state → good state'
  preserved : ∀ {c : Controller} {purpose : Purpose} {next : ComponentRuntimeHealthState}, harmless purpose →
    Legal c.health purpose next → c.health.revision ≠ maximumRevision → good c.health → good (numbered c next)

end Files

/-- The writes of one commit, in order: each leaves files that hold the next state. -/
theorem commitHealth_writes {c : Controller} (purpose : Purpose) (next : ComponentRuntimeHealthState) {files : HealthFiles}
    (hfiles : c.healthStore = some files) (hattached : Attached number c) :
    ∃ writes : List HealthFiles,
      (commitHealth number c purpose next).1.written = c.written ++ writes.map (purpose, ·) ∧
      (commitHealth number c purpose next).1.healthStore = some (writes.getLastD files) ∧
      (writes ≠ [] → c.health.revision ≠ maximumRevision) ∧
      ∀ files' ∈ writes, Durable number files' (numbered c next) := by
  unfold commitHealth
  split_ifs with hbounds
  · exact ⟨[], by simp [refuseHealth], by simp [refuseHealth, hfiles], by simp, by simp⟩
  · have hmaximum : c.health.revision ≠ maximumRevision := fun h => hbounds (.inl h)
    have hlater := later_numbered next hmaximum
    unfold numbered at hlater ⊢
    dsimp only
    generalize ({ next with revision := c.health.revision + 1 } : ComponentRuntimeHealthState) = numbered at *
    obtain ⟨state, hdurable, hrevision, _⟩ := hattached files hfiles
    rcases persistHealth_cases number c purpose numbered with ⟨hd, hs, hw⟩ | ⟨hd, ⟨hs, _⟩ | hsome⟩
    · rw [if_neg (by simp [hd])]
      exact ⟨[], by simp [refuseHealth, hw], by simp [refuseHealth, hs, hfiles], by simp, by simp⟩
    · rw [hfiles] at hs
      cases hs
    · obtain ⟨files', writes, hs, _, ⟨faults, hpersist⟩, hs', hw⟩ := hsome
      rw [hfiles] at hs
      cases hs
      rw [if_pos hd]
      refine ⟨writes, hw, hs', fun _ => hmaximum, ?_⟩
      rw [hpersist]
      exact hdurable.persist faults (by rw [hrevision]; exact hlater)

section Kept
variable {good : ComponentRuntimeHealthState → Prop} {harmless : Purpose → Prop}

/-- The files after some writes. -/
def filesAfter (files : HealthFiles) (writes : List (Purpose × HealthFiles)) : HealthFiles :=
  (writes.map (·.2)).getLastD files

theorem filesAfter_append (files : HealthFiles) (a b : List (Purpose × HealthFiles)) :
    filesAfter files (a ++ b) = filesAfter (filesAfter files a) b := by
  unfold filesAfter
  rw [List.map_append]
  cases b with
  | nil => simp
  | cons w b => simp [List.getLastD_eq_getLast?, List.getLast?_append]

/-- However many writes were made, if these were all harmless the files are good. -/
def Survives (number : NumberText) (good : ComponentRuntimeHealthState → Prop) (harmless : Purpose → Prop)
    (files : HealthFiles) (writes : List (Purpose × HealthFiles)) : Prop :=
  ∀ k, (∀ w ∈ writes.take k, harmless w.1) → Hold number good (filesAfter files (writes.take k))

theorem Survives.append {files : HealthFiles} {a b : List (Purpose × HealthFiles)}
    (ha : Survives number good harmless files a)
    (hb : (∀ w ∈ a, harmless w.1) → Survives number good harmless (filesAfter files a) b) :
    Survives number good harmless files (a ++ b) := by
  intro k hk
  rw [List.take_append] at hk ⊢
  by_cases hlength : k ≤ a.length
  · rw [Nat.sub_eq_zero_of_le hlength, List.take_zero, List.append_nil] at hk ⊢
    exact ha k hk
  · rw [List.take_of_length_le (by omega)] at hk ⊢
    rw [filesAfter_append]
    exact hb (fun w hw => hk w (List.mem_append_left _ hw)) _ fun w hw => hk w (List.mem_append_right _ hw)

theorem Survives.all {files : HealthFiles} {writes : List (Purpose × HealthFiles)}
    (h : Survives number good harmless files writes) (hw : ∀ w ∈ writes, harmless w.1) :
    Hold number good (filesAfter files writes) := by
  have hall := h writes.length
  rw [List.take_length] at hall
  exact hall hw

theorem Kept.hold_iff (hk : Kept good harmless) {c : Controller} {files : HealthFiles}
    (hfiles : c.healthStore = some files) (hattached : Attached number c) :
    Hold number good files ↔ good c.health := by
  obtain ⟨state, hdurable, hrevision, hrecords, hpending⟩ := hattached files hfiles
  constructor
  · rintro ⟨state', hdurable', hgood⟩
    rw [hdurable'.unique hdurable] at hgood
    exact hk.congr hrevision.symm hrecords.symm hpending.symm hgood
  · exact fun hgood => ⟨state, hdurable, hk.congr hrevision hrecords hpending hgood⟩

/-- The writes of one commit survive. -/
theorem Kept.commit (hk : Kept good harmless) {c : Controller} {purpose : Purpose} {next : ComponentRuntimeHealthState}
    {files : HealthFiles} {writes : List HealthFiles} (hlegal : Legal c.health purpose next)
    (hhold : Hold number good files) (hhealth : good c.health)
    (hmaximum : writes ≠ [] → c.health.revision ≠ maximumRevision)
    (hdurable : ∀ files' ∈ writes, Durable number files' (numbered c next)) :
    Survives number good harmless files (writes.map (purpose, ·)) := by
  intro k hharmless
  by_cases hnone : (writes.map (purpose, ·)).take k = []
  · rw [hnone]
    exact hhold
  · have hlast := List.getLast_mem hnone
    obtain ⟨files', hmem, heq⟩ := List.mem_map.mp (List.mem_of_mem_take hlast)
    have hafter : filesAfter files ((writes.map (purpose, ·)).take k) = files' := by
      unfold filesAfter
      rw [List.getLastD_eq_getLast?, List.getLast?_map, List.getLast?_eq_some_getLast hnone, ← heq]
      rfl
    rw [hafter]
    refine ⟨_, hdurable files' hmem, hk.preserved ?_ hlegal (hmaximum (List.ne_nil_of_mem hmem)) hhealth⟩
    have := hharmless _ hlast
    rw [← heq] at this
    exact this

/-- What legal commits preserve survives every prefix of the writes of an operation. -/
theorem Chain.survives (hk : Kept good harmless) {c c' : Controller} (hchain : Chain number c c') (hl : Linked number c)
    {files : HealthFiles} (hfiles : c.healthStore = some files) (hhold : Hold number good files) :
    ∃ writes, c'.written = c.written ++ writes ∧ c'.healthStore = some (filesAfter files writes) ∧
      Survives number good harmless files writes := by
  induction hchain with
  | refl => exact ⟨[], by simp, hfiles, fun k _ => by simpa [filesAfter] using hhold⟩
  | quiet _ same ih =>
    obtain ⟨writes, hw, hs, hsurvives⟩ := ih
    exact ⟨writes, same.written.trans hw, same.healthStore.trans hs, hsurvives⟩
  | @commit c' purpose next before knows legal ih =>
    obtain ⟨writes, hw, hs, hsurvives⟩ := ih
    have hattached := (before.linked hl).known.resolve_right knows
    obtain ⟨more, hw', hs', hmaximum, hdurable⟩ := commitHealth_writes purpose next hs hattached
    refine ⟨writes ++ more.map (purpose, ·), by rw [hw', hw, List.append_assoc], ?_, ?_⟩
    · rw [hs', filesAfter_append]
      unfold filesAfter
      rw [List.map_map]
      simp
    · apply hsurvives.append
      intro hharmless
      have hhold' := hsurvives.all hharmless
      exact hk.commit legal hhold' ((hk.hold_iff hs hattached).mp hhold') hmaximum hdurable

/-- The first reading of the files repairs at most one of them, and quarantines what was pending. -/
theorem initializeRuntimeHealth_survives (hk : Kept good harmless) {c : Controller}
    (h : Ready number unicode c) {files : HealthFiles} (hfiles : c.healthStore = some files)
    (hhold : Hold number good files) (faults : LoadFaults) :
    ∃ writes, (initializeRuntimeHealth number c faults).1.written = c.written ++ writes ∧
      (initializeRuntimeHealth number c faults).1.healthStore = some (filesAfter files writes) ∧
      Survives number good harmless files writes := by
  unfold initializeRuntimeHealth
  cases hi : c.healthInitialized with
  | true => exact ⟨[], by simp, hfiles, fun k _ => by simpa [filesAfter] using hhold⟩
  | false =>
    rw [hfiles]
    dsimp only
    obtain ⟨hready, _, _⟩ := withLoaded_spec h hfiles faults
    have hloaded : Hold number good (load number faults files).1 := by
      obtain ⟨state, hdurable, hgood⟩ := hhold
      rcases hdurable.load faults with ⟨_, _, hafter⟩ | ⟨_, hsame, _⟩
      · exact ⟨state, hafter, hgood⟩
      · rw [hsame]
        exact ⟨state, hdurable, hgood⟩
    have hread : ∃ writes, (withLoaded c files (load number faults files)).written = c.written ++ writes ∧
        (load number faults files).1 = filesAfter files writes ∧ Survives number good harmless files writes := by
      unfold withLoaded
      by_cases hsame : (load number faults files).1 = files
      · exact ⟨[], by simp [hsame], hsame, fun k _ => by simpa [filesAfter] using hhold⟩
      · refine ⟨[(.repair, (load number faults files).1)], by simp [hsame], rfl, ?_⟩
        rintro (_ | k) _
        · simpa [filesAfter] using hhold
        · simpa [filesAfter] using hloaded
    obtain ⟨writes, hw, hs, hsurvives⟩ := hread
    have hstore : (withLoaded c files (load number faults files)).healthStore = some (load number faults files).1 := rfl
    generalize withLoaded c files (load number faults files) = c' at *
    split_ifs with hsuccess hpending
    · exact ⟨writes, hw, hstore.trans (congrArg some hs), hsurvives⟩
    · have hchain : Chain number c' _ := .commit .refl (not_detached_of_pending hpending)
        (.incompleteStartup (qstr "incomplete-startup"))
      obtain ⟨more, hw', hs', hmore⟩ := hchain.survives hk hready.linked hstore hloaded
      rw [hs] at hmore hs'
      refine ⟨writes ++ more, by rw [hw', hw, List.append_assoc], by rw [hs', filesAfter_append],
        hsurvives.append fun _ => hmore⟩
    · exact ⟨writes, hw, hstore.trans (congrArg some hs), hsurvives⟩

theorem restarted_healthStore {before : Controller} {files : HealthFiles} (h : before.healthStore = some files)
    (after : Controller) (writes : Nat) :
    (restarted before after writes).healthStore = some (filesAfter files (after.written.take writes)) := by
  unfold restarted filesAfter
  rw [h, List.map_take]
  rfl

section Runs
variable (hplain : number.PlainIntegers) (sha256)
include hplain

theorem perform_survives (hk : Kept good harmless) {c : Controller}
    (h : Contained number unicode c) {files : HealthFiles} (hfiles : c.healthStore = some files)
    (hhold : Hold number good files) (operation : Operation) (ho : Event.Hydrated number ⟨operation, [], none⟩) :
    ∃ writes, (perform number unicode sha256 c operation).1.written = c.written ++ writes ∧
      (perform number unicode sha256 c operation).1.healthStore = some (filesAfter files writes) ∧
      Survives number good harmless files writes := by
  have hchain (c' : Controller) (hc : Chain number c c') := hc.survives hk h.linked hfiles hhold
  cases operation with
  | initializeRuntimeHealth faults => exact initializeRuntimeHealth_survives hk h.toReady hfiles hhold faults
  | beginHydration => exact hchain _ (beginHydration_spec sha256 hplain h).1.chain
  | acceptSnapshots catalog configuration => exact hchain _ (acceptSnapshots_spec sha256 hplain h ho.1 ho.2).1
  | hydrationFailed error => exact hchain _ (setFailedState_spec sha256 hplain h.toReady error).1.chain
  | sourceUnavailable error => exact hchain _ (setFailedState_spec sha256 hplain h.toReady error).1.chain
  | authorizeSurfacePlan revision => exact hchain _ (authorizeSurfacePlan_spec hplain h revision).chain
  | cancelSurfacePlanAuthorization revision => exact hchain _ (cancelSurfacePlanAuthorization_spec hplain h revision).chain
  | activationStable instanceId componentId packageDigest revision =>
    exact hchain _ (activationStable_spec hplain h instanceId componentId packageDigest revision).chain
  | activationFailed instanceId componentId packageDigest revision reason =>
    exact hchain _ (activationFailed_spec hplain h instanceId componentId packageDigest revision reason).chain
  | retryComponent componentId packageDigest revision =>
    exact hchain _ (retryComponent_spec hplain h componentId packageDigest revision).chain
  | probationTimeout => exact hchain _ (probationTimeout_spec hplain h).chain

/-- The writes an event gets to make. -/
def taken (number : NumberText) (unicode : UnicodeTables) (sha256 : QByteArray → QString) (c : Controller) (e : Event) :
    List (Purpose × HealthFiles) :=
  match e.cut with
  | none => (perform number unicode sha256 (opened c e.faults) e.operation).1.written
  | some writes => (perform number unicode sha256 (opened c e.faults) e.operation).1.written.take writes

/-- A contained controller with a health store that holds something good. -/
def Holding (number : NumberText) (unicode : UnicodeTables) (good : ComponentRuntimeHealthState → Prop)
    (c : Controller) : Prop :=
  Contained number unicode c ∧ ∃ files, c.healthStore = some files ∧ Hold number good files

theorem step_holding (hk : Kept good harmless) {c : Controller}
    (h : Holding number unicode good c) {e : Event} (he : e.Hydrated number)
    (hw : ∀ w ∈ taken number unicode sha256 c e, harmless w.1) :
    Holding number unicode good (step number unicode sha256 c e) := by
  obtain ⟨hcontained, files, hfiles, hhold⟩ := h
  refine ⟨step_contained sha256 hplain hcontained he, ?_⟩
  obtain ⟨writes, hwritten, hstore, hsurvives⟩ := perform_survives sha256 hplain hk (hcontained.opened e.faults)
    (show (opened c e.faults).healthStore = some files from hfiles) hhold e.operation he
  unfold taken at hw
  unfold step
  cases hcut : e.cut with
  | none =>
    rw [hcut] at hw
    dsimp only at hw ⊢
    rw [hwritten] at hw
    exact ⟨_, hstore, hsurvives.all hw⟩
  | some cut =>
    rw [hcut] at hw
    dsimp only at hw ⊢
    rw [hwritten] at hw
    refine ⟨filesAfter files (writes.take cut), ?_, hsurvives cut hw⟩
    rw [← List.nil_append writes]
    exact (restarted_healthStore hfiles _ cut).trans (congrArg (fun w => some (filesAfter files (w.take cut))) hwritten)

theorem run_holding (hk : Kept good harmless) {c : Controller}
    (h : Holding number unicode good c) {events : List Event}
    (hevents : Permitted (step number unicode sha256)
      (fun c e => e.Hydrated number ∧ ∀ w ∈ taken number unicode sha256 c e, harmless w.1) c events) :
    Holding number unicode good (run (step number unicode sha256) c events) := by
  refine run_permitted (P := Holding number unicode good) ?_ h hevents
  intro c e he hc
  exact step_holding sha256 hplain hk hc he.1 he.2

end Runs

end Kept

section Instances

theorem kept_anything : Kept (fun _ => True) (fun _ => True) := ⟨fun _ _ _ h => h, fun _ _ _ h => h⟩

theorem kept_accounted (componentId packageDigest : QString) :
    Kept (Accounted componentId packageDigest) (fun purpose => ¬ purpose.Releases componentId packageDigest) where
  congr := by
    intro state state' _ hrecords hpending h
    unfold Accounted isQuarantined at *
    rw [hrecords, hpending]
    exact h
  preserved := by
    intro c purpose next hharmless hlegal _ h
    exact hlegal.accounted h hharmless

theorem kept_revision (revision : UInt64) : Kept (fun state => revision ≤ state.revision) (fun _ => True) where
  congr := by
    intro state state' hrevision _ _ h
    rw [hrevision]
    exact h
  preserved := by
    intro c purpose next _ _ hmaximum h
    exact UInt64.le_trans h (UInt64.le_of_lt (later_numbered next hmaximum))

variable {c : Controller}

/-- A controller that knows of no revision, or of the one in its files, is never ahead of these. -/
theorem Contained.hold_revision (h : Contained number unicode c) {files : HealthFiles} (hfiles : c.healthStore = some files) :
    Hold number (fun state => c.health.revision ≤ state.revision) files := by
  rcases h.linked.known with hattached | hdetached
  · exact ((kept_revision c.health.revision).hold_iff hfiles hattached).mpr (UInt64.le_refl _)
  · obtain ⟨state, _, hdurable, _⟩ := h.linked.files.held files hfiles
    refine ⟨state, hdurable, ?_⟩
    rw [hdetached.2.2.2]
    exact UInt64.le_iff_toNat_le.mpr (Nat.zero_le _)

variable (sha256) in
/-- An authorization that reports success has its packages pending. -/
theorem authorizeSurfacePlan_pending (hplain : number.PlainIntegers) (h : Contained number unicode c) {revision : UInt64}
    {plan : SurfacePlan} (hplan : currentPlan c revision = some plan)
    (hauthorized : (authorizeSurfacePlan number unicode sha256 c revision).2 = none) {id : QString} {i : SurfaceInstance}
    (hid : id ∈ mainLayoutIds plan) (hi : plan.instances.lookup id = some i) (hkind : i.runtimeKind = declarativeKind) :
    ∃ e ∈ (authorizeSurfacePlan number unicode sha256 c revision).1.health.pending,
      e.2.componentId = i.componentId ∧ e.2.packageDigest = i.packageDigest := by
  unfold authorizeSurfacePlan at hauthorized ⊢
  by_cases hsafe : thirdPartySafeMode c = true
  · rw [if_pos hsafe] at hauthorized
    cases hauthorized
  · rw [if_neg hsafe] at hauthorized ⊢
    have hsafe : thirdPartySafeMode c = false := by simpa using hsafe
    obtain ⟨hstate, a, ha, _, rfl⟩ := currentPlan_some hplan
    have hmatches : Matches c.health.pending a.plan := by
      by_cases hn : c.health.pending = []
      · simp [Matches, hn]
      · obtain ⟨_, _, b, hb, hm⟩ := h.probation hsafe hn
        rw [ha] at hb
        cases hb
        exact hm
    rw [hplan] at hauthorized ⊢
    dsimp only at hauthorized ⊢
    cases hpending : authorizePending c.health a.plan (mainLayoutIds a.plan) c.health.pending with
    | error error =>
      rw [hpending] at hauthorized
      cases hauthorized
    | ok pending =>
      obtain ⟨hsorted, _, hfresh, hmore, hlisted⟩ := authorizePending_ok (h.artifact a ha)
        h.linked.health.pending_sorted hmatches
        (fun e he => ⟨h.linked.health.pending e he, h.linked.health.disjoint e he⟩) hpending
      have hentry := hlisted id hid i hi hkind
      rw [hpending] at hauthorized
      dsimp only at hauthorized ⊢
      by_cases hsame : ({ c.health with pending } : ComponentRuntimeHealthState) = c.health
      · have hpendings : pending = c.health.pending := congrArg ComponentRuntimeHealthState.pending hsame
        rw [if_pos hsame]
        rw [hpendings] at hentry
        exact hentry
      · rw [if_neg hsame] at hauthorized ⊢
        obtain ⟨c', error, hcommit, hcases⟩ := commitOrRebuild_spec sha256 hplain h
          (not_detached_of_safeMode hsafe) (.authorization hsorted hmore hfresh)
        rw [hcommit] at hauthorized ⊢
        rcases hcases with ⟨rfl, hc⟩ | ⟨⟨text, rfl⟩, _⟩
        · dsimp only
          rw [hc.health]
          exact hentry
        · cases hauthorized

/-- Reading the files either quarantines what they account for, or fails with third parties off; the files
account for it as before. -/
theorem initializeRuntimeHealth_accounted (h : Contained number unicode c) (hfresh : c.healthInitialized = false)
    {componentId packageDigest : QString} {files : HealthFiles} (hfiles : c.healthStore = some files)
    (hhold : Hold number (Accounted componentId packageDigest) files) (faults : LoadFaults) :
    ((initializeRuntimeHealth number c faults).2 = none →
      isQuarantined (initializeRuntimeHealth number c faults).1.health componentId packageDigest = true) ∧
    ((initializeRuntimeHealth number c faults).2 ≠ none →
      thirdPartySafeMode (initializeRuntimeHealth number c faults).1 = true) ∧
    ∃ files', (initializeRuntimeHealth number c faults).1.healthStore = some files' ∧
      Hold number (Accounted componentId packageDigest) files' := by
  obtain ⟨hready, _, hsucceeds⟩ := withLoaded_spec h.toReady hfiles faults
  obtain ⟨state, hdurable, haccounted⟩ := hhold
  have hfailed : (load number faults files).2.success = false → (load number faults files).1 = files := by
    intro hf
    rcases hdurable.load faults with ⟨hsuccess, _⟩ | ⟨_, hsame, _⟩
    · rw [hf] at hsuccess
      cases hsuccess
    · exact hsame
  have hknown : (load number faults files).2.success = true →
      Attached number (withLoaded c files (load number faults files)) ∧
        Accounted componentId packageDigest (withLoaded c files (load number faults files)).health := by
    intro hsuccess
    refine ⟨(hsucceeds hsuccess).1, ?_⟩
    rw [(hsucceeds hsuccess).2.unique hdurable]
    exact haccounted
  have hstore : (withLoaded c files (load number faults files)).healthStore = some (load number faults files).1 := rfl
  unfold initializeRuntimeHealth
  rw [hfresh, hfiles]
  dsimp only
  generalize withLoaded c files (load number faults files) = c' at *
  split_ifs with hsuccess hpending
  · refine ⟨by simp, fun _ => by simp [thirdPartySafeMode], files, ?_, state, hdurable, haccounted⟩
    exact hstore.trans (congrArg some (hfailed (by simpa using hsuccess)))
  · obtain ⟨hattached, haccounted'⟩ := hknown (by simpa using hsuccess)
    have hlegal : Legal c'.health .incompleteStartup _ := .incompleteStartup (qstr "incomplete-startup")
    have hattached' := (commitHealth_files .incompleteStartup _ hattached hready.linked.files
      (healthOk_numbered (hlegal.healthOk hready.linked.health))).1
    obtain ⟨writes, _, hstore', _⟩ := commitHealth_writes .incompleteStartup
      (quarantineAll c'.health (qstr "incomplete-startup")) hstore hattached
    obtain ⟨_, hcases⟩ := commitHealth_cases number c' .incompleteStartup
      (quarantineAll c'.health (qstr "incomplete-startup"))
    generalize commitHealth number c' .incompleteStartup (quarantineAll c'.health (qstr "incomplete-startup")) = result at *
    obtain ⟨c'', error⟩ := result
    have hquarantined : isQuarantined (quarantineAll c'.health (qstr "incomplete-startup")) componentId packageDigest =
        true := isQuarantined_quarantineAll haccounted'
    rcases hcases with ⟨hnone, hhealth, _⟩ | ⟨⟨text, hsome⟩, hhealth, _⟩
    · dsimp only at hnone hhealth hattached' hstore' ⊢
      subst hnone
      refine ⟨fun _ => ?_, by simp, _, hstore', ((kept_accounted _ _).hold_iff hstore' hattached').mpr ?_⟩
      · rw [hhealth]
        exact hquarantined
      · rw [hhealth]
        exact .inl hquarantined
    · dsimp only at hsome hhealth hattached' hstore' ⊢
      subst hsome
      refine ⟨by simp, fun _ => thirdPartySafeMode_refused hhealth, _, hstore',
        ((kept_accounted _ _).hold_iff hstore' hattached').mpr ?_⟩
      rw [hhealth]
      exact haccounted'
  · obtain ⟨hattached, haccounted'⟩ := hknown (by simpa using hsuccess)
    refine ⟨fun _ => ?_, by simp, _, hstore, ((kept_accounted _ _).hold_iff hstore hattached).mpr haccounted'⟩
    rcases haccounted' with hq | ⟨e, he, _⟩
    · exact hq
    · rw [not_not.mp hpending] at he
      cases he

end Instances

section Sample

/-- The clock is authorized, and the process dies before anything else is written. -/
def clockAuthorized : Event := ⟨.authorizeSurfacePlan sampleRevision, [], none⟩
def clockCut : Event := ⟨.probationTimeout, [], some 0⟩

def clockPending : ComponentRuntimeHealthState where
  revision := 1
  pending := [(clockInstance, ⟨clockInstance, clockId, sampleDigest 'b'⟩)]

/-- What the reader of health states and the authorization return on the samples. -/
structure PendingVerdicts : Prop where
  health : (parseRoot [] (stateObject clockPending)).toOption = some clockPending
  bounded : ((serialize exactDecimal clockPending).length : Int) ≤ maximumHealthBytes
  authorized : (authorizePending {} (filterQuarantined {} samplePlan)
    (mainLayoutIds (filterQuarantined {} samplePlan)) []).toOption = some clockPending.pending
  listed : clockInstance ∈ mainLayoutIds (filterQuarantined {} samplePlan)

theorem pendingVerdicts : PendingVerdicts := by
  have h : (parseRoot [] (stateObject clockPending)).toOption = some clockPending ∧
      ((serialize exactDecimal clockPending).length : Int) ≤ maximumHealthBytes ∧
      (authorizePending {} (filterQuarantined {} samplePlan)
        (mainLayoutIds (filterQuarantined {} samplePlan)) []).toOption = some clockPending.pending ∧
      clockInstance ∈ mainLayoutIds (filterQuarantined {} samplePlan) := by
    decide +kernel
  exact ⟨h.1, h.2.1, h.2.2.1, h.2.2.2⟩

theorem clockPending_stored : Stored exactDecimal (serialize exactDecimal clockPending) clockPending := by
  refine (stored_iff exactDecimal_plainIntegers ?_ pendingVerdicts.bounded).mpr (ok_of_toOption pendingVerdicts.health)
  refine ⟨by simp [clockPending], ?_⟩
  intro e he
  rw [List.mem_singleton.mp he]
  exact ⟨isText_qstr _, isText_qstr _, isText_sampleDigest 'b'⟩

theorem sample_currentPlan {made : SurfacePlanArtifact} (hplan : made.plan = filterQuarantined {} samplePlan)
    (hrevision : made.revision = sampleRevision) :
    currentPlan (sampleShown made) sampleRevision = some (filterQuarantined {} samplePlan) := by
  simp only [currentPlan, sampleShown, if_true, Option.filter_some, hrevision, decide_true, Option.map_some, hplan]

theorem sample_authorizePending :
    authorizePending {} (filterQuarantined {} samplePlan) (mainLayoutIds (filterQuarantined {} samplePlan)) [] =
      .ok clockPending.pending := ok_of_toOption pendingVerdicts.authorized

theorem commitOrRebuild_succeeds (unicode : UnicodeTables) (sha256 : QByteArray → QString) {c : Controller} {purpose : Purpose}
    {next : ComponentRuntimeHealthState} (h : (commitHealth number c purpose next).2 = none) :
    (commitOrRebuild number unicode sha256 c purpose next).2 = none := by
  unfold commitOrRebuild
  split
  · rename_i hcommit
    rw [hcommit] at h
    cases h
  · rfl

theorem clock_authorized {made : SurfacePlanArtifact} (hplan : made.plan = filterQuarantined {} samplePlan)
    (hrevision : made.revision = sampleRevision) :
    (perform exactDecimal plainTables sampleSha256 (opened (sampleShown made) [])
      (.authorizeSurfacePlan sampleRevision)).2 = true := by
  have hmade : ¬ Refused exactDecimal (sampleShown made) { pending := clockPending.pending } := by
    rintro (h | h | h | h | ⟨files, _, h⟩)
    · have hzero : (0 : UInt64) = maximumRevision := h
      revert hzero
      decide
    · revert h
      decide
    · revert h
      decide
    · revert h
      decide
    · have hdurable := persist_durable {} files clockPending_stored rfl rfl
      rw [show numbered (sampleShown made) _ = clockPending from rfl] at h
      exact Bool.noConfusion (hdurable.symm.trans h)
  have hnone := commitHealth_refused .authorization hmade
  have hopened : opened (sampleShown made) [] = sampleShown made := rfl
  have hsafe : thirdPartySafeMode (sampleShown made) = false := rfl
  have hhealth : (sampleShown made).health = {} := rfl
  have hnext : ({ pending := clockPending.pending } : ComponentRuntimeHealthState) ≠ {} := by
    simp [clockPending]
  rw [hopened]
  simp only [perform, authorizeSurfacePlan, hsafe, sample_currentPlan hplan hrevision, hhealth, sample_authorizePending,
    Bool.false_eq_true, if_false]
  rw [if_neg hnext]
  have hcommitted := commitOrRebuild_succeeds plainTables sampleSha256 hnone
  generalize commitOrRebuild exactDecimal plainTables sampleSha256 (sampleShown made) .authorization
    { pending := clockPending.pending } = result at hcommitted ⊢
  obtain ⟨c, error⟩ := result
  dsimp only at hcommitted
  subst hcommitted
  rfl

end Sample

section Survival
variable (hplain : number.PlainIntegers)
include hplain

variable (unicode sha256) in
/-- A run from empty files holds some state in its files. -/
theorem run_held {events : List Event} (hevents : ∀ e ∈ events, e.Hydrated number) :
    Holding number unicode (fun _ => True) (run (step number unicode sha256) (withStore {}) events) := by
  apply run_holding sha256 hplain kept_anything
  · exact ⟨contained_withStore .fresh (healthOk_empty 0 false), {}, rfl, {}, .fresh, trivial⟩
  · exact permitted_of_forall (fun _ e he => ⟨hevents e he, fun _ _ => trivial⟩) _

/-- The files hold what an authorization that reported success made pending. -/
theorem authorized_holding {events : List Event} (hevents : ∀ e ∈ events, e.Hydrated number) {revision : UInt64}
    {faults : List PersistFaults} {plan : SurfacePlan}
    (hplan : currentPlan (run (step number unicode sha256) (withStore {}) events) revision = some plan)
    (hauthorized : (perform number unicode sha256 (opened (run (step number unicode sha256) (withStore {}) events) faults)
      (.authorizeSurfacePlan revision)).2 = true) {id : QString} {i : SurfaceInstance} (hid : id ∈ mainLayoutIds plan)
    (hi : plan.instances.lookup id = some i) (hkind : i.runtimeKind = declarativeKind) :
    Holding number unicode (Accounted i.componentId i.packageDigest)
      (step number unicode sha256 (run (step number unicode sha256) (withStore {}) events)
        ⟨.authorizeSurfacePlan revision, faults, none⟩) := by
  obtain ⟨hcontained, hheld⟩ := step_holding sha256 hplain kept_anything
    (run_held unicode sha256 hplain hevents) (show Event.Hydrated number ⟨.authorizeSurfacePlan revision, faults, none⟩ from
      trivial) fun _ _ => trivial
  obtain ⟨files, hfiles, _⟩ := hheld
  refine ⟨hcontained, files, hfiles, ?_⟩
  have hbefore := (run_held unicode sha256 hplain hevents).1
  generalize run (step number unicode sha256) (withStore {}) events = c at *
  obtain ⟨e, he, hsame⟩ := authorizeSurfacePlan_pending sha256 hplain (hbefore.opened faults) hplan
    (by simpa [perform] using hauthorized) hid hi hkind
  have hstep : step number unicode sha256 c ⟨.authorizeSurfacePlan revision, faults, none⟩ =
    (authorizeSurfacePlan number unicode sha256 (opened c faults) revision).1 := rfl
  rw [hstep] at hcontained hfiles
  have hattached := hcontained.linked.known.resolve_right (not_detached_of_pending (List.ne_nil_of_mem he))
  exact ((kept_accounted _ _).hold_iff hfiles hattached).mpr (.inr ⟨e, he, hsame⟩)

end Survival

/-- The run of the clock up to its authorization. -/
theorem clock_before : ∃ c, run sampleStep (withStore {}) (clockFails.take 2) = c ∧
    currentPlan c sampleRevision = some (filterQuarantined {} samplePlan) ∧
    (perform exactDecimal plainTables sampleSha256 (opened c []) (.authorizeSurfacePlan sampleRevision)).2 = true := by
  obtain ⟨made, hplan, hrevision, hrun⟩ := sample_accepted
  exact ⟨_, hrun, sample_currentPlan hplan hrevision, clock_authorized hplan hrevision⟩

theorem taken_clockCut (c : Controller) : taken exactDecimal plainTables sampleSha256 c clockCut = [] := by
  rw [taken, clockCut]
  dsimp only
  exact List.take_zero

theorem clockCut_permitted (c : Controller) (componentId packageDigest : QString) :
    Permitted (step exactDecimal plainTables sampleSha256) (fun c e => e.Hydrated exactDecimal ∧
      ∀ w ∈ taken exactDecimal plainTables sampleSha256 c e, ¬ w.1.Releases componentId packageDigest) c [clockCut] := by
  refine ⟨⟨trivial, ?_⟩, trivial⟩
  intro w hw
  rw [taken_clockCut] at hw
  cases hw

theorem clockCut_fresh {c : Controller} {files : HealthFiles} (h : c.healthStore = some files) :
    (step exactDecimal plainTables sampleSha256 c clockCut).healthInitialized = false ∧
      ∃ files', (step exactDecimal plainTables sampleSha256 c clockCut).healthStore = some files' := by
  rw [step, clockCut]
  dsimp only
  refine ⟨?_, _, restarted_healthStore h _ 0⟩
  rw [restarted, h]
  rfl

theorem clockCut_run : (run (step exactDecimal plainTables sampleSha256) (withStore {})
    (clockFails.take 2 ++ [clockAuthorized, clockCut])).healthInitialized = false ∧
    ∃ files, (run (step exactDecimal plainTables sampleSha256) (withStore {})
      (clockFails.take 2 ++ [clockAuthorized, clockCut])).healthStore = some files := by
  have hsplit : clockFails.take 2 ++ [clockAuthorized, clockCut] = (clockFails.take 2 ++ [clockAuthorized]) ++ [clockCut] :=
    (List.append_assoc _ [clockAuthorized] [clockCut]).symm
  have hhydrated : ∀ e ∈ clockFails.take 2 ++ [clockAuthorized], e.Hydrated exactDecimal := by
    intro e he
    rcases List.mem_append.mp he with he | he
    · exact clockFails_hydrated e (List.mem_of_mem_take he)
    · rw [List.mem_singleton.mp he]
      trivial
  obtain ⟨_, files, hfiles, _⟩ := run_held plainTables sampleSha256 exactDecimal_plainIntegers hhydrated
  rw [hsplit, run_append, run_cons, run_nil]
  exact clockCut_fresh hfiles

variable (number) in
theorem load_unreadable (files : HealthFiles) {faults : LoadFaults} {fault : StorageFault} (h : faults.recovery = some fault) :
    (load number faults files).2.success = false ∧ (load number faults files).2.state = { safeMode := true } := by
  have hunreadable : (readFile number recoveryFile (some fault) files.recovery).status = .unreadable := rfl
  unfold load
  rw [h]
  simp [hunreadable, loadFailure]

/-- A process that cannot read its files quarantines nothing. -/
theorem initializeRuntimeHealth_unreadable {c : Controller} (hfresh : c.healthInitialized = false) {files : HealthFiles}
    (hfiles : c.healthStore = some files) (commitFaults : List PersistFaults) {faults : LoadFaults} {fault : StorageFault}
    (h : faults.recovery = some fault) (componentId packageDigest : QString) :
    isQuarantined (initializeRuntimeHealth number (opened c commitFaults) faults).1.health componentId packageDigest =
      false := by
  obtain ⟨hfailed, hstate⟩ := load_unreadable number files h
  simp [initializeRuntimeHealth, opened, hfresh, hfiles, hfailed, withLoaded, hstate, isQuarantined]

section Survival
variable (hplain : number.PlainIntegers)
include hplain

/-- A package whose authorization was reported is quarantined when a later process has read its files, unless a
write in between released it; a process that cannot read them turns third parties off and leaves the package in
them. And a load that succeeds finds one whole state, of no older revision than any that was reported. -/
theorem probation_survives :
    (∀ {before after : List Event} {revision : UInt64} {faults : List PersistFaults} {plan : SurfacePlan} {id : QString}
      {i : SurfaceInstance} (loadFaults : LoadFaults) (commitFaults : List PersistFaults),
      (∀ e ∈ before, e.Hydrated number) →
      currentPlan (run (step number unicode sha256) (withStore {}) before) revision = some plan →
      (perform number unicode sha256 (opened (run (step number unicode sha256) (withStore {}) before) faults)
        (.authorizeSurfacePlan revision)).2 = true →
      id ∈ mainLayoutIds plan → plan.instances.lookup id = some i → i.runtimeKind = declarativeKind →
      Permitted (step number unicode sha256) (fun c e => e.Hydrated number ∧
          ∀ w ∈ taken number unicode sha256 c e, ¬ w.1.Releases i.componentId i.packageDigest)
        (step number unicode sha256 (run (step number unicode sha256) (withStore {}) before)
          ⟨.authorizeSurfacePlan revision, faults, none⟩) after →
      ∀ c, c = run (step number unicode sha256) (withStore {})
          (before ++ ⟨.authorizeSurfacePlan revision, faults, none⟩ :: after) →
        c.healthInitialized = false →
        ((initializeRuntimeHealth number (opened c commitFaults) loadFaults).2 = none →
          isQuarantined (initializeRuntimeHealth number (opened c commitFaults) loadFaults).1.health
            i.componentId i.packageDigest = true) ∧
        ((initializeRuntimeHealth number (opened c commitFaults) loadFaults).2 ≠ none →
          thirdPartySafeMode (initializeRuntimeHealth number (opened c commitFaults) loadFaults).1 = true) ∧
        ∃ files, (initializeRuntimeHealth number (opened c commitFaults) loadFaults).1.healthStore = some files ∧
          Hold number (Accounted i.componentId i.packageDigest) files) ∧
    ∀ {before after : List Event} (loadFaults : LoadFaults),
      (∀ e ∈ before ++ after, e.Hydrated number) →
      ∀ files ∈ (run (step number unicode sha256) (withStore {}) (before ++ after)).healthStore,
        (load number loadFaults files).2.success = true →
        (run (step number unicode sha256) (withStore {}) before).health.revision ≤
          (load number loadFaults files).2.state.revision ∧
        (files = {} ∧ (load number loadFaults files).2.state = {} ∨
          files.recovery = some (serialize number (load number loadFaults files).2.state)) := by
  constructor
  · intro before after revision faults plan id i loadFaults commitFaults hbefore hplan hauthorized hid hi hkind hafter c hc
      hfresh
    have hheld := authorized_holding hplain hbefore hplan hauthorized hid hi hkind
    obtain ⟨hcontained, files, hfiles, hhold⟩ := run_holding sha256 hplain (kept_accounted i.componentId i.packageDigest)
      hheld hafter
    rw [run_append, run_cons] at hc
    rw [← hc] at hcontained hfiles
    exact initializeRuntimeHealth_accounted (hcontained.opened commitFaults) hfresh hfiles hhold loadFaults
  · intro before after loadFaults hevents files hfiles hsuccess
    have hbefore := run_held unicode sha256 hplain
      fun e he => hevents e (List.mem_append_left after he)
    rw [run_append] at hfiles
    generalize run (step number unicode sha256) (withStore {}) before = c at *
    obtain ⟨hcontained, held, hheld, _⟩ := hbefore
    have hstart : Holding number unicode (fun state => c.health.revision ≤ state.revision) c :=
      ⟨hcontained, held, hheld, hcontained.hold_revision hheld⟩
    obtain ⟨_, files', hfiles', state, hdurable, hrevision⟩ := run_holding sha256 hplain (kept_revision c.health.revision)
      hstart (permitted_of_forall
        (fun _ e he => ⟨hevents e (List.mem_append_right before he), fun _ _ => trivial⟩) c)
    rw [hfiles'] at hfiles
    cases hfiles
    rcases hdurable.load loadFaults with ⟨_, hstate, _⟩ | ⟨hfailed, _⟩
    · rw [hstate]
      refine ⟨hrevision, ?_⟩
      cases hdurable with
      | fresh => exact .inl ⟨rfl, rfl⟩
      | committed => exact .inr rfl
    · rw [hfailed] at hsuccess
      cases hsuccess

end Survival

theorem probation_survives_clock :
    ∃ c, c = run (step exactDecimal plainTables sampleSha256) (withStore {}) (clockFails.take 2 ++ [clockAuthorized, clockCut]) ∧
      ((initializeRuntimeHealth exactDecimal (opened c []) {}).2 = none →
        isQuarantined (initializeRuntimeHealth exactDecimal (opened c []) {}).1.health
          clockId (sampleDigest 'b') = true) := by
  obtain ⟨c, hrun, hplan, hauthorized⟩ := clock_before
  obtain ⟨i, hi, hkind, hid, hdigest⟩ := lookup_runs.mp sampleVerdicts.runs
  rw [← hrun, sampleStep] at hplan hauthorized
  obtain ⟨hsurvives, _⟩ := @probation_survives exactDecimal plainTables sampleSha256 exactDecimal_plainIntegers
  have hhydrated : ∀ e ∈ clockFails.take 2, e.Hydrated exactDecimal :=
    fun e he => clockFails_hydrated e (List.mem_of_mem_take he)
  have hfresh := clockCut_run.1
  have hpermitted := clockCut_permitted (step exactDecimal plainTables sampleSha256
    (run (step exactDecimal plainTables sampleSha256) (withStore {}) (clockFails.take 2)) clockAuthorized) i.componentId i.packageDigest
  rw [clockAuthorized] at hpermitted hfresh ⊢
  have h := @hsurvives (clockFails.take 2) [clockCut] sampleRevision [] (filterQuarantined {} samplePlan) clockInstance i {} []
    hhydrated hplan hauthorized pendingVerdicts.listed hi hkind hpermitted
  obtain ⟨last, hlast⟩ : ∃ last, last = run (step exactDecimal plainTables sampleSha256) (withStore {})
    (clockFails.take 2 ++ [⟨.authorizeSurfacePlan sampleRevision, [], none⟩, clockCut]) := ⟨_, rfl⟩
  rw [← hlast] at hfresh
  have hquarantined := (h last hlast hfresh).1
  rw [hid, hdigest] at hquarantined
  refine ⟨last, ?_, hquarantined⟩
  exact hlast
/-- An authorized package that the next process does not quarantine: its recovery file cannot be read. -/
theorem probation_unread :
    (∃ plan i, currentPlan (run sampleStep (withStore {}) (clockFails.take 2)) sampleRevision = some plan ∧
      clockInstance ∈ mainLayoutIds plan ∧ plan.instances.lookup clockInstance = some i ∧
      i.runtimeKind = declarativeKind ∧ i.componentId = clockId ∧ i.packageDigest = sampleDigest 'b') ∧
    (perform exactDecimal plainTables sampleSha256 (opened (run sampleStep (withStore {}) (clockFails.take 2)) [])
      (.authorizeSurfacePlan sampleRevision)).2 = true ∧
    taken exactDecimal plainTables sampleSha256
      (run sampleStep (withStore {}) (clockFails.take 2 ++ [clockAuthorized])) clockCut = [] ∧
    isQuarantined (initializeRuntimeHealth exactDecimal
      (opened (run sampleStep (withStore {}) (clockFails.take 2 ++ [clockAuthorized, clockCut])) [])
      { recovery := some ⟨qstr "Permission denied", by decide⟩ }).1.health clockId (sampleDigest 'b') = false := by
  obtain ⟨c, hrun, hplan, hauthorized⟩ := clock_before
  obtain ⟨i, hi, hkind, hid, hdigest⟩ := lookup_runs.mp sampleVerdicts.runs
  refine ⟨⟨_, i, ?_, pendingVerdicts.listed, hi, hkind, hid, hdigest⟩, ?_, ?_, ?_⟩
  · rw [hrun]
    exact hplan
  · rw [hrun]
    exact hauthorized
  · exact taken_clockCut _
  · obtain ⟨hfresh, files, hfiles⟩ := clockCut_run
    rw [sampleStep]
    exact initializeRuntimeHealth_unreadable hfresh hfiles [] rfl _ _

end HyprShelld.PlanController
