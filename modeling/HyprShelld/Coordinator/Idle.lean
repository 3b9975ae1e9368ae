import HyprShelld.Coordinator.Reachable

/-! Publications while nothing is on probation leave the health alone, and what a retry publishes then. -/
namespace HyprShelld.PlanController
open Components HealthStore

variable {number : NumberText} {unicode : UnicodeTables} {sha256 : QByteArray → QString}

variable (number) in
/-- A commit that is out of bounds or refused by the system. -/
def Refused (c : Controller) (next : ComponentRuntimeHealthState) : Prop :=
  c.health.revision = maximumRevision ∨ maximumHealthRecords < next.records.length ∨
    maximumHealthRecords < next.pending.length ∨ maximumHealthRecords < (packageStates next).length ∨
    ∃ files ∈ c.healthStore, (persist number (c.faults.headD {}) files (numbered c next)).2.durable = false

theorem commitHealth_refused {c : Controller} {next : ComponentRuntimeHealthState} (purpose : Purpose)
    (h : ¬ Refused number c next) : (commitHealth number c purpose next).2 = none := by
  unfold Refused at h
  obtain ⟨h1, h⟩ := not_or.mp h
  obtain ⟨h2, h⟩ := not_or.mp h
  obtain ⟨h3, h⟩ := not_or.mp h
  obtain ⟨h4, h5⟩ := not_or.mp h
  have hbounds : ¬ (c.health.revision = maximumRevision ∨ maximumHealthRecords < next.records.length ∨
      maximumHealthRecords < next.pending.length ∨ maximumHealthRecords < (packageStates next).length) := 
    fun h => h.elim h1 fun h => h.elim h2 fun h => h.elim h3 h4
  have hdurable : (persistHealth number c purpose (numbered c next)).2.durable = true := by
    unfold persistHealth
    cases hs : c.healthStore with
    | none => simp [PersistResult.durable]
    | some files =>
      dsimp only
      by_contra hrefused
      exact h5 ⟨files, hs, Bool.eq_false_iff.mpr hrefused⟩
  unfold commitHealth
  rw [if_neg hbounds]
  unfold numbered at hdurable
  dsimp only
  generalize persistHealth number c purpose { next with revision := c.health.revision + 1 } = r at *
  rw [if_pos hdurable]
theorem makeSurfacePlanArtifact_revision {plan : SurfacePlan} {made : SurfacePlanArtifact}
    (h : (makeSurfacePlanArtifact number unicode sha256 plan).value = some made) :
    made.revision = surfacePlanRevision (sha256 (surfacePlanBytes number plan)) := by
  unfold makeSurfacePlanArtifact at h
  dsimp only at h
  split at h
  · cases h
  · cases h
    rfl

section Idle
variable {c : Controller}

theorem preparePending_idle (h : c.health.pending = []) (plan : SurfacePlan) :
    preparePending number c plan = ({ c with probationActive := false }, none) := by
  have hkept : keptPending c plan = c.health.pending := by
    unfold keptPending
    rw [h]
    split_ifs <;> rfl
  unfold preparePending
  dsimp only
  rw [if_pos (by rw [hkept]), h]
  simp

variable (sha256) in
/-- With nothing on probation a publishable plan is published and the health left alone. -/
theorem tryPublish_idle (hplain : number.PlainIntegers) {plan : SurfacePlan} (hp : Published number unicode plan)
    (hpending : c.health.pending = []) (state : State) (allowThirdParty : Bool) (error : QString) :
    ∃ made : SurfacePlanArtifact, made.plan = shown c allowThirdParty plan ∧
      made.revision = surfacePlanRevision (sha256 (surfacePlanBytes number (shown c allowThirdParty plan))) ∧
      tryPublish number unicode sha256 c plan state allowThirdParty error =
        ({ c with artifact := some made, state := state, lastError := error, probationActive := false }, .ok true) := by
  have hshown : Published number unicode (shown c allowThirdParty plan) := by
    unfold shown
    split_ifs
    · exact hp.removeInstances hplain _
    · exact hp.removeInstances hplain _
  obtain ⟨made, hmade, hplan⟩ := makeSurfacePlanArtifact_complete sha256 hplain hshown.textual hshown.sound
    hshown.fits
  refine ⟨made, hplan, makeSurfacePlanArtifact_revision (by rw [hmade]), ?_⟩
  unfold tryPublish
  rw [show (if !allowThirdParty || thirdPartySafeMode c then stripThirdParty plan
    else filterQuarantined c.health plan) = shown c allowThirdParty plan from rfl]
  simp [preparePending_idle hpending, hmade]

variable (sha256) in
theorem rebuildAuthoritativePlan_idle (hplain : number.PlainIntegers) {catalog : RuntimeCatalogSnapshot}
    {configuration : RuntimeConfigurationSnapshot} (hr : Ready number unicode c) (hcatalog : c.catalog = some catalog)
    (hconfiguration : c.configuration = some configuration)
    (hp : Published number unicode (effectivePlan number unicode catalog configuration)) (hpending : c.health.pending = []) :
    ∃ made, made.plan = shown c true (effectivePlan number unicode catalog configuration) ∧
      rebuildAuthoritativePlan number unicode sha256 c =
        { c with artifact := some made, state := .authoritative, lastError := [], probationActive := false } := by
  obtain ⟨_, _, hbuildable⟩ := hr.snapshots catalog hcatalog configuration hconfiguration
  have hbuilt : (buildSurfacePlan number unicode catalog configuration).value =
    some (effectivePlan number unicode catalog configuration) := buildSurfacePlan_iff.mpr ⟨hbuildable, rfl⟩
  obtain ⟨made, hplan, _, hpublish⟩ := tryPublish_idle sha256 hplain hp hpending .authoritative true []
  refine ⟨made, hplan, ?_⟩
  unfold rebuildAuthoritativePlan publishPlan
  simp only [hcatalog, hconfiguration, hbuilt, hpublish]

theorem commitAndRebuild_fst (purpose : Purpose) (next : ComponentRuntimeHealthState) :
    (commitAndRebuild number unicode sha256 c purpose next).1 =
      rebuildAuthoritativePlan number unicode sha256 (commitHealth number c purpose next).1 := rfl

variable (sha256) in
theorem acceptSnapshots_idle (hplain : number.PlainIntegers) {catalog : RuntimeCatalogSnapshot}
    {configuration : RuntimeConfigurationSnapshot} (hb : Buildable number unicode catalog configuration)
    (hp : Published number unicode (effectivePlan number unicode catalog configuration)) (hpending : c.health.pending = []) :
    ∃ made : SurfacePlanArtifact, made.plan = shown c true (effectivePlan number unicode catalog configuration) ∧
      made.revision = surfacePlanRevision (sha256 (surfacePlanBytes number
        (shown c true (effectivePlan number unicode catalog configuration)))) ∧
      acceptSnapshots number unicode sha256 c catalog configuration =
        ({ c with
          catalog := some catalog, configuration := some configuration, artifact := some made
          state := .authoritative, lastError := [], probationActive := false }, true) := by
  have hbuilt : (buildSurfacePlan number unicode catalog configuration).value =
    some (effectivePlan number unicode catalog configuration) := buildSurfacePlan_iff.mpr ⟨hb, rfl⟩
  obtain ⟨made, hplan, hrevision, hpublish⟩ := tryPublish_idle sha256
    (c := { c with catalog := some catalog, configuration := some configuration }) hplain hp hpending .authoritative true []
  refine ⟨made, hplan, hrevision, ?_⟩
  unfold acceptSnapshots publishPlan
  simp only [hbuilt, hpublish]

variable (sha256) in
theorem setFailedState_idle (hplain : number.PlainIntegers) {a : SurfacePlanArtifact} (ha : c.artifact = some a)
    (hp : Published number unicode a.plan) (hpending : c.health.pending = []) (error : QString) :
    ∃ made, setFailedState number unicode sha256 c error =
      { c with artifact := some made, state := .retained, lastError := error, probationActive := false } := by
  obtain ⟨made, _, _, hpublish⟩ := tryPublish_idle sha256 hplain hp hpending .retained false error
  refine ⟨made, ?_⟩
  unfold setFailedState
  rw [ha]
  simp only [hpublish]

variable (sha256) in
/-- A retry that passes its checks publishes the plan of the cached snapshots as authoritative, in any state. -/
theorem retryComponent_authoritative (hplain : number.PlainIntegers) {catalog : RuntimeCatalogSnapshot}
    {configuration : RuntimeConfigurationSnapshot} (h : Contained number unicode c) (hcatalog : c.catalog = some catalog)
    (hconfiguration : c.configuration = some configuration)
    (hp : Published number unicode (effectivePlan number unicode catalog configuration)) (hpending : c.health.pending = [])
    (componentId packageDigest : QString) (hq : isQuarantined c.health componentId packageDigest = true) :
    (retryComponent number unicode sha256 c componentId packageDigest c.health.revision).1.state = .authoritative := by
  have hknows : ¬ Detached c := by
    intro hd
    simp [isQuarantined, hd.1] at hq
  obtain ⟨c', error, hcommit, hcases⟩ := commit_cases number hknows (.retry componentId packageDigest)
  have hboth : Chain number c c' ∧ SameRuntime c c' ∧ c'.health.pending = [] := by
    have hhealth := (commitHealth_cases number c (.retry componentId packageDigest)
      { c.health with records := QMap.remove (recordKey componentId packageDigest) c.health.records }).2
    rw [hcommit] at hhealth
    refine ⟨?_, ?_, ?_⟩
    · rcases hcases with ⟨_, hc⟩ | ⟨_, hchain, _⟩
      · exact hc.chain
      · exact hchain
    · rcases hcases with ⟨_, hc⟩ | ⟨_, _, hruntime, _⟩
      · exact hc.runtime
      · exact hruntime
    · rcases hhealth with ⟨_, hhealth, _⟩ | ⟨_, hhealth, _⟩
      · rw [hhealth]
        exact hpending
      · rw [hhealth]
        exact hpending
  obtain ⟨hchain, hruntime, hpending'⟩ := hboth
  have hready := h.toReady.of_same (hchain.linked h.linked) hruntime
  obtain ⟨made, _, hrebuild⟩ := rebuildAuthoritativePlan_idle sha256 hplain hready
    (hruntime.catalog.trans hcatalog) (hruntime.configuration.trans hconfiguration) hp hpending'
  unfold retryComponent commitAndRebuild
  rw [if_neg (by simp), if_neg (by simp [hq])]
  simp only [hcommit, hrebuild]

end Idle

section Sample

def samplePlan : SurfacePlan := effectivePlan exactDecimal plainTables sampleCatalog sampleConfiguration

def clockQuarantined : ComponentRuntimeHealthState where
  revision := 1
  records := quarantineRecord [] clockId (sampleDigest 'b') (qstr "render-failed")

/-- What the builder, the reader of plans and the reader of health states return on the samples. -/
structure SampleVerdicts : Prop where
  built : (buildSurfacePlan exactDecimal plainTables sampleCatalog sampleConfiguration).value.isSome = true
  read : (parsePlanRoot exactDecimal plainTables (surfacePlanObject samplePlan)).value.isSome = true
  fits : samplePlan.Fits exactDecimal
  runs : ((filterQuarantined {} samplePlan).instances.lookup clockInstance).any (runs clockId (sampleDigest 'b')) = true
  health : (parseRoot [] (stateObject clockQuarantined)).toOption = some clockQuarantined
  bounded : ((serialize exactDecimal clockQuarantined).length : Int) ≤ maximumHealthBytes

theorem sampleVerdicts : SampleVerdicts := by
  have h : ((buildSurfacePlan exactDecimal plainTables sampleCatalog sampleConfiguration).value.isSome = true ∧
      (parsePlanRoot exactDecimal plainTables (surfacePlanObject samplePlan)).value.isSome = true ∧
      ((filterQuarantined {} samplePlan).instances.lookup clockInstance).any (runs clockId (sampleDigest 'b')) = true) ∧
      samplePlan.Fits exactDecimal ∧ (parseRoot [] (stateObject clockQuarantined)).toOption = some clockQuarantined ∧
      ((serialize exactDecimal clockQuarantined).length : Int) ≤ maximumHealthBytes := by
    unfold SurfacePlan.Fits
    decide +kernel
  exact ⟨h.1.1, h.1.2.1, h.2.1, h.1.2.2, h.2.2.1, h.2.2.2⟩

theorem sample_buildable : Buildable exactDecimal plainTables sampleCatalog sampleConfiguration := by
  obtain ⟨plan, hplan⟩ := Option.isSome_iff_exists.mp sampleVerdicts.built
  exact (buildSurfacePlan_iff.mp hplan).1

theorem samplePlan_published : Published exactDecimal plainTables samplePlan := by
  have htext := sample_buildable.textual sampleCatalog_textual sampleConfiguration_textual
  obtain ⟨read, hread⟩ := Option.isSome_iff_exists.mp sampleVerdicts.read
  obtain ⟨_, hsound⟩ := parsePlanRoot_exact effectivePlan_sorted effectivePlan_layouts_sorted sample_buildable.canonical
    hread
  exact ⟨hsound, htext, sampleVerdicts.fits, sample_buildable.foreign⟩

theorem clockQuarantined_stored :
    Stored exactDecimal (serialize exactDecimal clockQuarantined) clockQuarantined := by
  refine (stored_iff exactDecimal_plainIntegers ?_ sampleVerdicts.bounded).mpr (ok_of_toOption sampleVerdicts.health)
  refine ⟨?_, by simp [clockQuarantined]⟩
  intro e he
  rw [List.mem_singleton.mp he]
  exact ⟨isText_qstr _, isText_sampleDigest 'b', isText_qstr _, isText_qstr _⟩

/-- The process once it has read its empty files, and once it has accepted the sample with an artifact of it. -/
def sampleStart : Controller := { withStore {} with healthInitialized := true }

def sampleShown (made : SurfacePlanArtifact) : Controller := { sampleStart with
  catalog := some sampleCatalog, configuration := some sampleConfiguration, artifact := some made
  state := .authoritative }

theorem sampleStep_uncut (c : Controller) (operation : Operation) (faults : List PersistFaults) :
    sampleStep c ⟨operation, faults, none⟩ =
      (perform exactDecimal plainTables sampleSha256 (opened c faults) operation).1 := rfl

theorem clockFails_first : run sampleStep (withStore {}) (clockFails.take 1) = sampleStart := rfl

theorem sample_accepted : ∃ made : SurfacePlanArtifact, made.plan = filterQuarantined {} samplePlan ∧
    made.revision = sampleRevision ∧ run sampleStep (withStore {}) (clockFails.take 2) = sampleShown made := by
  obtain ⟨made, hplan, hrevision, haccept⟩ := acceptSnapshots_idle sampleSha256 (c := opened sampleStart [])
    exactDecimal_plainIntegers sample_buildable samplePlan_published rfl
  refine ⟨made, hplan, hrevision, ?_⟩
  have hsplit : clockFails.take 2 =
      clockFails.take 1 ++ [⟨.acceptSnapshots sampleCatalog sampleConfiguration, [], none⟩] := rfl
  rw [hsplit, run_append, clockFails_first, run_cons, run_nil, sampleStep_uncut, perform, haccept]
  rfl

theorem sampleShown_failure (made : SurfacePlanArtifact) :
    ∃ c, commitHealth exactDecimal (sampleShown made) .failure
        { records := quarantineRecord [] clockId (sampleDigest 'b') (qstr "render-failed") } = (c, none) ∧
      Chain exactDecimal (sampleShown made) c ∧ SameRuntime (sampleShown made) c ∧ c.health = clockQuarantined := by
  have hmade : ¬ Refused exactDecimal (sampleShown made)
      { records := quarantineRecord [] clockId (sampleDigest 'b') (qstr "render-failed") } := by
    rintro (h | h | h | h | ⟨files, _, h⟩)
    · have hzero : (0 : UInt64) = maximumRevision := h
      revert hzero
      decide
    · revert h
      decide
    · revert h
      decide
    · revert h
      decide
    · have hdurable := persist_durable {} files clockQuarantined_stored rfl rfl
      rw [show numbered (sampleShown made) _ = clockQuarantined from rfl] at h
      exact Bool.noConfusion (hdurable.symm.trans h)
  have hnone := commitHealth_refused .failure hmade
  have hlegal : Legal (sampleShown made).health .failure
      { records := quarantineRecord [] clockId (sampleDigest 'b') (qstr "render-failed") } :=
    .failure ⟨by decide, by decide +kernel⟩ _
  have hchain : Chain exactDecimal (sampleShown made) _ := .commit .refl (not_detached_of_safeMode rfl) hlegal
  obtain ⟨hruntime, hcases⟩ := commitHealth_cases exactDecimal (sampleShown made) .failure
    { records := quarantineRecord [] clockId (sampleDigest 'b') (qstr "render-failed") }
  generalize commitHealth exactDecimal (sampleShown made) .failure
    { records := quarantineRecord [] clockId (sampleDigest 'b') (qstr "render-failed") } = result at *
  obtain ⟨c, error⟩ := result
  dsimp only at hnone hruntime hcases
  subst hnone
  refine ⟨c, rfl, hchain, hruntime, ?_⟩
  rcases hcases with ⟨_, hhealth, _⟩ | ⟨⟨_, h⟩, _⟩
  · exact hhealth
  · cases h

theorem clockFails_third {made again : SurfacePlanArtifact} {c : Controller}
    (haccept : run sampleStep (withStore {}) (clockFails.take 2) = sampleShown made)
    (hfailed : (activationFailed exactDecimal plainTables sampleSha256 (sampleShown made) clockInstance clockId
      (sampleDigest 'b') sampleRevision (qstr "render-failed")).1 =
      { c with artifact := some again, state := .authoritative, lastError := [], probationActive := false }) :
    run sampleStep (withStore {}) (clockFails.take 3) =
      { c with artifact := some again, state := .authoritative, lastError := [], probationActive := false } := by
  have hsplit : clockFails.take 3 = clockFails.take 2 ++ [⟨.activationFailed clockInstance clockId (sampleDigest 'b')
      sampleRevision (qstr "render-failed"), [], none⟩] := rfl
  rw [hsplit, run_append, haccept, run_cons, run_nil, sampleStep_uncut]
  exact hfailed

theorem clockFails_run : ∃ c, run sampleStep (withStore {}) clockFails = c ∧ c.state = .retained ∧
    c.catalog = some sampleCatalog ∧ c.configuration = some sampleConfiguration ∧ c.health = clockQuarantined := by
  obtain ⟨made, hplan, hrevision, haccept⟩ := sample_accepted
  obtain ⟨c, hcommit, hchain, hruntime, hhealth⟩ := sampleShown_failure made
  have hcontained : Contained exactDecimal plainTables (sampleShown made) := by
    rw [← haccept]
    exact run_contained exactDecimal_plainIntegers .withStore fun e he => clockFails_hydrated e (List.mem_of_mem_take he)
  have hmatch : matchesInstance (sampleShown made) clockInstance clockId (sampleDigest 'b') sampleRevision = true := by
    simp only [matchesInstance, currentPlan, sampleShown, if_true, Option.filter_some, hrevision, decide_true,
      Option.map_some, Option.any_some, hplan, sampleVerdicts.runs]
  have hready := hcontained.toReady.of_same (hchain.linked hcontained.linked) hruntime
  obtain ⟨again, hagain, hrebuild⟩ := rebuildAuthoritativePlan_idle sampleSha256 exactDecimal_plainIntegers
    hready hruntime.catalog hruntime.configuration samplePlan_published (by rw [hhealth]; rfl)
  have hfailed : (activationFailed exactDecimal plainTables sampleSha256 (sampleShown made) clockInstance clockId
      (sampleDigest 'b') sampleRevision (qstr "render-failed")).1 =
      { c with artifact := some again, state := .authoritative, lastError := [], probationActive := false } := by
    have hnext : ({ (sampleShown made).health with
        records := quarantineRecord (sampleShown made).health.records clockId (sampleDigest 'b') (qstr "render-failed")
        pending := (sampleShown made).health.pending.filter fun e =>
          !(e.2.componentId = clockId && e.2.packageDigest = sampleDigest 'b') } : ComponentRuntimeHealthState) =
        { records := quarantineRecord [] clockId (sampleDigest 'b') (qstr "render-failed") } := rfl
    unfold activationFailed
    rw [if_neg (by simp), if_neg (by simp [hmatch]), hnext, commitAndRebuild_fst, hcommit, hrebuild]
  have hthird := clockFails_third haccept hfailed
  have hcontained' : Contained exactDecimal plainTables (run sampleStep (withStore {}) (clockFails.take 3)) :=
    run_contained exactDecimal_plainIntegers .withStore fun e he => clockFails_hydrated e (List.mem_of_mem_take he)
  rw [hthird] at hcontained'
  have hpublished := hcontained'.artifact again rfl
  have hpending : c.health.pending = [] := by
    rw [hhealth]
    rfl
  clear hcontained' hrebuild hfailed hready
  generalize hc : ({ c with artifact := some again, state := .authoritative, lastError := [], probationActive := false } :
    Controller) = published at *
  have hopened : (opened published []).artifact = some again ∧ (opened published []).health = clockQuarantined ∧
      (opened published []).catalog = some sampleCatalog ∧
      (opened published []).configuration = some sampleConfiguration := by
    subst hc
    exact ⟨rfl, hhealth, hruntime.catalog, hruntime.configuration⟩
  obtain ⟨ha, hh, hcatalog, hconfiguration⟩ := hopened
  obtain ⟨retained, hretained⟩ := setFailedState_idle sampleSha256 exactDecimal_plainIntegers ha hpublished
    (by rw [hh]; rfl) (qstr "gone")
  have hsplit : clockFails = clockFails.take 3 ++ [⟨.sourceUnavailable (qstr "gone"), [], none⟩] := rfl
  refine ⟨_, rfl, ?_⟩
  rw [hsplit, run_append, hthird, run_cons, run_nil, sampleStep_uncut, perform, hretained]
  exact ⟨rfl, hcatalog, hconfiguration, hh⟩

/-- The user lets the clock try again while the sources are away. -/
def clockRetried : List Event := clockFails ++ [⟨.retryComponent clockId (sampleDigest 'b') 1, [], none⟩]

theorem clockRetried_authoritative : (run sampleStep (withStore {}) clockRetried).state = .authoritative := by
  obtain ⟨c, hrun, hstate, hcatalog, hconfiguration, hhealth⟩ := clockFails_run
  have hcontained : Contained exactDecimal plainTables c := by
    rw [← hrun]
    exact run_contained exactDecimal_plainIntegers .withStore clockFails_hydrated
  have hquarantined : isQuarantined clockQuarantined clockId (sampleDigest 'b') = true := by decide +kernel
  have hretry := retryComponent_authoritative sampleSha256 exactDecimal_plainIntegers (hcontained.opened [])
    hcatalog hconfiguration samplePlan_published
    (by simp only [opened, hhealth]; rfl) clockId (sampleDigest 'b') (by simp only [opened, hhealth, hquarantined])
  have hrevision : (opened c []).health.revision = 1 := by
    simp only [opened, hhealth]
    rfl
  rw [hrevision] at hretry
  rw [clockRetried, run_append, hrun, run_cons, run_nil, sampleStep_uncut, perform]
  exact hretry

end Sample
end HyprShelld.PlanController
