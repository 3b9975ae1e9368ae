import HyprShelld.Coordinator.Idle

/-! When an authoritative plan is the plan of the snapshots accepted last. -/
namespace HyprShelld.PlanController
open Components HealthStore

section Watch
variable (number : NumberText) (unicode : UnicodeTables) (sha256 : QByteArray → QString)

/-- A controller and the snapshots of the last report of its sources, where that was an acceptance that
succeeded. -/
structure Watched where
  controller : Controller
  accepted : Option (RuntimeCatalogSnapshot × RuntimeConfigurationSnapshot) := none

/-- What the last report of the sources is after an operation of the same process. -/
def reported (accepted : Option (RuntimeCatalogSnapshot × RuntimeConfigurationSnapshot)) (success : Bool) :
    Operation → Option (RuntimeCatalogSnapshot × RuntimeConfigurationSnapshot)
  | .acceptSnapshots catalog configuration => if success then some (catalog, configuration) else none
  | .beginHydration | .hydrationFailed _ | .sourceUnavailable _ => none
  | _ => accepted

def watch (w : Watched) (e : Event) : Watched where
  controller := step number unicode sha256 w.controller e
  accepted := match e.cut with
    | none => reported w.accepted (perform number unicode sha256 (opened w.controller e.faults) e.operation).2 e.operation
    | some _ => none

/-- An authoritative artifact is what is to be shown of the plan of the snapshots accepted last. -/
def Fresh (w : Watched) : Prop :=
  w.controller.state = .authoritative → ∃ catalog configuration plan artifact,
    w.accepted = some (catalog, configuration) ∧
    (buildSurfacePlan number unicode catalog configuration).value = some plan ∧
    w.controller.artifact = some artifact ∧
    artifact.plan = if thirdPartySafeMode w.controller then stripThirdParty plan
      else filterQuarantined w.controller.health plan

/-- Nothing is rebuilt from the cache while the sources are away, the health is read before any plan is accepted,
and the activations that a plan drops can be dropped. -/
def Event.Orderly (c : Controller) (e : Event) : Prop :=
  match e.operation with
  | .retryComponent componentId packageDigest revision =>
    c.state = .authoritative ∨ revision ≠ c.health.revision ∨ isQuarantined c.health componentId packageDigest = false ∨
      c.catalog = none ∨ c.configuration = none
  | .initializeRuntimeHealth _ => c.healthInitialized = true ∨ c.state ≠ .authoritative
  | .acceptSnapshots catalog configuration =>
    ∀ plan, (buildSurfacePlan number unicode catalog configuration).value = some plan →
      keptPending c (shown c true plan) = c.health.pending ∨
        ¬ Refused number (opened c e.faults) { c.health with pending := keptPending c (shown c true plan) }
  | _ => True

end Watch

variable {number : NumberText} {unicode : UnicodeTables} {sha256 : QByteArray → QString}

theorem preparePending_none {c : Controller} {plan : SurfacePlan}
    (h : keptPending c plan = c.health.pending ∨ ¬ Refused number c { c.health with pending := keptPending c plan }) :
    (preparePending number c plan).2 = none := by
  unfold preparePending
  dsimp only
  split_ifs with hsame
  · rfl
  · have hkept : ¬ keptPending c plan = c.health.pending := by
      intro hk
      apply hsame
      rw [hk]
    have hnone := commitHealth_refused .planChange (h.resolve_left hkept)
    generalize commitHealth number c .planChange { c.health with pending := keptPending c plan } = result at *
    obtain ⟨c', error⟩ := result
    dsimp only at hnone
    subst hnone
    rfl

variable (unicode sha256) in
theorem publishPlan_reports {c : Controller} {plan : SurfacePlan}
    (h : (preparePending number c (shown c true plan)).2 = none) :
    (publishPlan number unicode sha256 c plan .authoritative true []).2 = true ∨
      ∃ c' text, tryPublish number unicode sha256 c plan .authoritative true [] = (c', .error text) := by
  unfold publishPlan tryPublish
  rw [show (if !true || thirdPartySafeMode c then stripThirdParty plan
    else filterQuarantined c.health plan) = shown c true plan from rfl]
  dsimp only
  generalize preparePending number c (shown c true plan) = prepared at *
  obtain ⟨c', error⟩ := prepared
  dsimp only at h
  subst h
  cases hmade : (makeSurfacePlanArtifact number unicode sha256 (shown c true plan)).value with
  | none =>
    exact .inr ⟨c', describeErrors (makeSurfacePlanArtifact number unicode sha256 (shown c true plan)).errors, by simp [hmade]⟩
  | some made => exact .inl (by simp [hmade])

variable (sha256) in
/-- An acceptance that ends authoritative has reported success, unless its commit was refused. -/
theorem acceptSnapshots_reports (hplain : number.PlainIntegers) {c : Controller} (h : Contained number unicode c)
    {catalog : RuntimeCatalogSnapshot} {configuration : RuntimeConfigurationSnapshot} (hcatalog : catalog.Textual)
    (hconfiguration : configuration.Textual number)
    (hclean : ∀ plan, (buildSurfacePlan number unicode catalog configuration).value = some plan →
      keptPending c (shown c true plan) = c.health.pending ∨
        ¬ Refused number c { c.health with pending := keptPending c (shown c true plan) })
    (hstate : (acceptSnapshots number unicode sha256 c catalog configuration).1.state = .authoritative) :
    (acceptSnapshots number unicode sha256 c catalog configuration).2 = true := by
  unfold acceptSnapshots at hstate ⊢
  dsimp only at hstate ⊢
  cases hbuilt : (buildSurfacePlan number unicode catalog configuration).value with
  | none =>
    rw [hbuilt] at hstate
    exact absurd hstate (setFailedState_spec _ hplain h.toReady _).2
  | some plan =>
    obtain ⟨hbuildable, rfl⟩ := buildSurfacePlan_iff.mp hbuilt
    rw [hbuilt] at hstate
    dsimp only at hstate ⊢
    have hready : Ready number unicode { c with catalog := some catalog, configuration := some configuration } := by
      refine ⟨SameHealth.linked (c := c) ⟨rfl, rfl, rfl, rfl⟩ h.linked, h.artifact, ?_, by simp⟩
      rintro _ ⟨⟩ _ ⟨⟩
      exact ⟨hcatalog, hconfiguration, hbuildable⟩
    have hnone := preparePending_none (c := { c with catalog := some catalog, configuration := some configuration })
      (hclean _ hbuilt)
    rcases publishPlan_reports unicode sha256 hnone with htrue | ⟨c', text, herror⟩
    · exact htrue
    · exfalso
      obtain ⟨_, _, _, hcases⟩ := tryPublish_spec sha256 hplain hready
        (writable_effectivePlan hbuildable hcatalog hconfiguration) .authoritative true (.inl rfl) ⟨by simp, by simp⟩ []
      unfold publishPlan at hstate
      rw [herror] at hcases hstate
      rcases hcases with ⟨⟨durable, hok⟩, _⟩ | ⟨_, _, hready', _⟩
      · cases hok
      · exact (setFailedState_spec _ hplain hready' text).2 hstate

section Quiet
variable {c : Controller} (hstate : c.state ≠ .authoritative)
include hstate

theorem currentPlan_none (revision : UInt64) : currentPlan c revision = none := if_neg hstate

theorem matchesInstance_false (instanceId componentId packageDigest : QString) (revision : UInt64) :
    matchesInstance c instanceId componentId packageDigest revision = false := by
  simp [matchesInstance, currentPlan_none hstate]

variable (number) in
theorem commitHealth_state (purpose : Purpose) (next : ComponentRuntimeHealthState) :
    (commitHealth number c purpose next).1.state ≠ .authoritative := by
  rw [(commitHealth_cases _ c purpose next).1.state]
  exact hstate

/-- Without snapshots a retry rebuilds nothing. -/
theorem retryComponent_quiet {componentId packageDigest : QString} {revision : UInt64}
    (h : Event.Orderly number unicode c ⟨.retryComponent componentId packageDigest revision, [], none⟩) :
    (retryComponent number unicode sha256 c componentId packageDigest revision).1.state ≠ .authoritative := by
  unfold retryComponent
  split_ifs with hrevision hquarantined
  · exact hstate
  · exact hstate
  · simp only [Event.Orderly, hstate, false_or] at h
    have hnone : c.catalog = none ∨ c.configuration = none :=
      (h.resolve_left hrevision).resolve_left (by simpa using hquarantined)
    have hquiet := commitHealth_state number hstate (.retry componentId packageDigest)
      { c.health with records := QMap.remove (recordKey componentId packageDigest) c.health.records }
    have hruntime := (commitHealth_cases number c (.retry componentId packageDigest)
      { c.health with records := QMap.remove (recordKey componentId packageDigest) c.health.records }).1
    unfold commitAndRebuild rebuildAuthoritativePlan
    generalize commitHealth number c (.retry componentId packageDigest)
      { c.health with records := QMap.remove (recordKey componentId packageDigest) c.health.records } = result at *
    obtain ⟨c', error⟩ := result
    dsimp only at hquiet hruntime ⊢
    rw [hruntime.catalog, hruntime.configuration]
    rcases hnone with hnone | hnone
    · rw [hnone]
      exact hquiet
    · rw [hnone]
      cases c.catalog <;> exact hquiet

theorem initializeRuntimeHealth_quiet (faults : LoadFaults) :
    (initializeRuntimeHealth number c faults).1.state ≠ .authoritative := by
  unfold initializeRuntimeHealth
  split
  · dsimp only
    split_ifs
    · exact hstate
    · exact commitHealth_state _ (c := withLoaded c _ _) hstate _ _
    · exact hstate
  · exact hstate

end Quiet

variable (number unicode) in
/-- What keeps an authoritative plan fresh: it is shown of the cached snapshots, and these were accepted last. -/
structure Watching (w : Watched) : Prop where
  contained : Contained number unicode w.controller
  current : Current number unicode w.controller
  accepted : w.controller.state = .authoritative → ∃ catalog configuration,
    w.accepted = some (catalog, configuration) ∧ w.controller.catalog = some catalog ∧
      w.controller.configuration = some configuration

theorem Watching.fresh {w : Watched} (h : Watching number unicode w) : Fresh number unicode w := by
  intro hstate
  obtain ⟨catalog, configuration, a, hcatalog, hconfiguration, ha, hplan⟩ := h.current hstate
  obtain ⟨_, _, haccepted, hcatalog', hconfiguration'⟩ := h.accepted hstate
  rw [hcatalog] at hcatalog'
  rw [hconfiguration] at hconfiguration'
  cases hcatalog'
  cases hconfiguration'
  obtain ⟨_, _, hbuildable⟩ := h.contained.snapshots catalog hcatalog configuration hconfiguration
  refine ⟨catalog, configuration, _, a, haccepted, buildSurfacePlan_iff.mpr ⟨hbuildable, rfl⟩, ha, ?_⟩
  rw [hplan]
  simp [shown]

theorem run_watch_controller (c : Controller) (events : List Event)
    (accepted : Option (RuntimeCatalogSnapshot × RuntimeConfigurationSnapshot)) :
    (run (watch number unicode sha256) ⟨c, accepted⟩ events).controller = run (step number unicode sha256) c events := by
  induction events generalizing c accepted with
  | nil => rfl
  | cons e events ih =>
    rw [run_cons, run_cons]
    exact ih (step number unicode sha256 c e) (watch number unicode sha256 ⟨c, accepted⟩ e).accepted

section Steps
variable (hplain : number.PlainIntegers)
variable {c : Controller} {accepted : Option (RuntimeCatalogSnapshot × RuntimeConfigurationSnapshot)}

theorem Watching.quiet {c' : Controller} (hc : Contained number unicode c') (hstate : c'.state ≠ .authoritative) :
    Watching number unicode ⟨c', accepted⟩ :=
  ⟨hc, fun h => absurd h hstate, fun h => absurd h hstate⟩

theorem Watching.steps {c' : Controller} (h : Watching number unicode ⟨c, accepted⟩) (hs : Steps number unicode c c')
    (hquiet : c.state ≠ .authoritative → c'.state ≠ .authoritative) : Watching number unicode ⟨c', accepted⟩ := by
  by_cases hstate : c.state = .authoritative
  · obtain ⟨_, _, a, _, _, ha, _⟩ := h.current hstate
    obtain ⟨catalog, configuration, haccepted, hcatalog, hconfiguration⟩ := h.accepted hstate
    exact ⟨hs.contained, hs.current (Option.ne_none_iff_exists'.mpr ⟨a, ha⟩) h.current,
      fun _ => ⟨catalog, configuration, haccepted, hs.catalog.trans hcatalog, hs.configuration.trans hconfiguration⟩⟩
  · exact .quiet hs.contained (hquiet hstate)

theorem initializeRuntimeHealth_watching (h : Watching number unicode ⟨c, accepted⟩) (faults : LoadFaults)
    (ho : c.healthInitialized = true ∨ c.state ≠ .authoritative) :
    Watching number unicode ⟨(initializeRuntimeHealth number c faults).1, accepted⟩ := by
  by_cases hstate : c.state = .authoritative
  · have hsame : (initializeRuntimeHealth number c faults).1 = c := by
      rw [initializeRuntimeHealth, ho.resolve_right (not_not_intro hstate)]
    rw [hsame]
    exact h
  · exact .quiet (initializeRuntimeHealth_contained h.contained faults) (initializeRuntimeHealth_quiet hstate faults)

include hplain

variable (sha256) in
theorem perform_watching (h : Watching number unicode ⟨c, accepted⟩) (operation : Operation)
    (he : Event.Hydrated number ⟨operation, [], none⟩)
    (ho : Event.Orderly number unicode c ⟨operation, c.faults, none⟩) (hopen : opened c c.faults = c) :
    Watching number unicode ⟨(perform number unicode sha256 c operation).1,
      reported accepted (perform number unicode sha256 c operation).2 operation⟩ := by
  cases operation with
  | initializeRuntimeHealth faults => exact initializeRuntimeHealth_watching h faults ho
  | beginHydration =>
    obtain ⟨hleads, hstate⟩ := beginHydration_spec sha256 hplain h.contained
    exact .quiet hleads.contained hstate
  | acceptSnapshots catalog configuration =>
    obtain ⟨_, hcontained, hcurrent, hcached, _⟩ := acceptSnapshots_spec sha256 hplain h.contained he.1 he.2
    have hclean : ∀ plan, (buildSurfacePlan number unicode catalog configuration).value = some plan →
        keptPending c (shown c true plan) = c.health.pending ∨
          ¬ Refused number c { c.health with pending := keptPending c (shown c true plan) } := by
      simp only [Event.Orderly, hopen] at ho
      exact ho
    refine ⟨hcontained, hcurrent, fun hstate => ⟨catalog, configuration, ?_, (hcached hstate).1, (hcached hstate).2⟩⟩
    have hreport := acceptSnapshots_reports sha256 hplain h.contained he.1 he.2 hclean hstate
    exact if_pos hreport
  | hydrationFailed error | sourceUnavailable error =>
    obtain ⟨hleads, hstate⟩ := setFailedState_spec sha256 hplain h.contained.toReady error
    exact .quiet hleads.contained hstate
  | authorizeSurfacePlan revision =>
    refine h.steps (authorizeSurfacePlan_spec hplain h.contained revision) fun hstate => ?_
    simp only [perform, authorizeSurfacePlan, currentPlan_none hstate]
    split_ifs <;> exact hstate
  | cancelSurfacePlanAuthorization revision =>
    refine h.steps (cancelSurfacePlanAuthorization_spec hplain h.contained revision) fun hstate => ?_
    simp only [perform, cancelSurfacePlanAuthorization, currentPlan_none hstate]
    exact hstate
  | activationStable instanceId componentId packageDigest revision =>
    refine h.steps (activationStable_spec hplain h.contained instanceId componentId packageDigest revision)
      fun hstate => ?_
    simp only [perform, activationStable, matchesInstance_false hstate]
    exact hstate
  | activationFailed instanceId componentId packageDigest revision reason =>
    refine h.steps (activationFailed_spec hplain h.contained instanceId componentId packageDigest revision reason)
      fun hstate => ?_
    simp only [perform, activationFailed, matchesInstance_false hstate, Bool.not_false, if_true]
    split_ifs <;> exact hstate
  | retryComponent componentId packageDigest revision =>
    exact h.steps (retryComponent_spec hplain h.contained componentId packageDigest revision)
      fun hstate => retryComponent_quiet hstate ho
  | probationTimeout =>
    refine h.steps (probationTimeout_spec hplain h.contained) fun hstate => ?_
    have hstopped : c.probationActive = false := Bool.eq_false_iff.mpr fun ha => hstate (h.contained.timer ha).1
    simp only [perform, probationTimeout, hstopped]
    exact hstate

theorem watch_watching {w : Watched} (h : Watching number unicode w) {e : Event} (he : e.Hydrated number)
    (ho : e.Orderly number unicode w.controller) : Watching number unicode (watch number unicode sha256 w e) := by
  obtain ⟨c, accepted⟩ := w
  have hcontained := step_contained sha256 hplain h.contained he
  unfold watch
  cases hcut : e.cut with
  | some writes =>
    refine .quiet hcontained ?_
    unfold step restarted
    rw [hcut]
    dsimp only
    cases c.healthStore <;> simp [withoutStore, withStore]
  | none =>
    have hopened : Watching number unicode ⟨opened c e.faults, accepted⟩ :=
      ⟨h.contained.opened e.faults, h.current, h.accepted⟩
    have hperform := perform_watching sha256 hplain hopened e.operation he ho rfl
    have hstep : step number unicode sha256 c e = (perform number unicode sha256 (opened c e.faults) e.operation).1 := by
      rw [step, hcut]
      rfl
    rw [hstep]
    exact hperform

/-- In a run whose events are all orderly an authoritative plan is never stale. -/
theorem authoritativePlan_fresh {start : Controller} (hstart : FirstStart start) {events : List Event}
    (hevents : Permitted (watch number unicode sha256)
      (fun w e => e.Hydrated number ∧ e.Orderly number unicode w.controller) ⟨start, none⟩ events) :
    Fresh number unicode (run (watch number unicode sha256) ⟨start, none⟩ events) := by
  have hinitial : start.state ≠ .authoritative := by
    cases hstart <;> simp [withoutStore, withStore]
  have hwatching : Watching number unicode (run (watch number unicode sha256) ⟨start, none⟩ events) := by
    refine run_permitted (P := Watching number unicode) ?_ (.quiet hstart.contained hinitial) hevents
    intro w e he hw
    exact watch_watching hplain hw he.1 he.2
  exact hwatching.fresh

end Steps

theorem authoritativePlan_fresh_clock :
    Fresh exactDecimal plainTables
      (run (watch exactDecimal plainTables sampleSha256) ⟨withStore {}, none⟩ (clockFails.take 2)) ∧
    (run (watch exactDecimal plainTables sampleSha256) ⟨withStore {}, none⟩ (clockFails.take 2)).controller.state =
      .authoritative := by
  have hevents : Permitted (watch exactDecimal plainTables sampleSha256)
      (fun w e => e.Hydrated exactDecimal ∧ e.Orderly exactDecimal plainTables w.controller) ⟨withStore {}, none⟩
      (clockFails.take 2) := by
    refine ⟨⟨clockFails_hydrated _ List.mem_cons_self, .inr (by simp [withStore])⟩,
      ⟨clockFails_hydrated _ (List.mem_cons_of_mem _ List.mem_cons_self), ?_⟩, trivial⟩
    intro plan _
    left
    have hstart : (watch exactDecimal plainTables sampleSha256 ⟨withStore {}, none⟩
        ⟨.initializeRuntimeHealth {}, [], none⟩).controller = sampleStart := clockFails_first
    rw [hstart]
    have hkept (shownPlan : SurfacePlan) : keptPending sampleStart shownPlan = [] := rfl
    rw [hkept]
    rfl
  refine ⟨authoritativePlan_fresh exactDecimal_plainIntegers .withStore hevents, ?_⟩
  obtain ⟨made, _, _, haccept⟩ := sample_accepted
  rw [run_watch_controller]
  rw [sampleStep] at haccept
  rw [haccept]
  rfl

/-- A plan of cached snapshots is published as authoritative after the sources went away. -/
theorem authoritativePlan_stale :
    ¬ Fresh exactDecimal plainTables (run (watch exactDecimal plainTables sampleSha256) ⟨withStore {}, none⟩ clockRetried) := by
  intro hfresh
  have hauthoritative := clockRetried_authoritative
  rw [sampleStep, ← run_watch_controller _ _ none] at hauthoritative
  obtain ⟨catalog, configuration, _, _, haccepted, _⟩ := hfresh hauthoritative
  have hnone (w : Watched) : (watch exactDecimal plainTables sampleSha256
      (watch exactDecimal plainTables sampleSha256 w ⟨.sourceUnavailable (qstr "gone"), [], none⟩)
      ⟨.retryComponent clockId (sampleDigest 'b') 1, [], none⟩).accepted = none := rfl
  have hsplit : clockRetried = clockFails.take 3 ++ [⟨.sourceUnavailable (qstr "gone"), [], none⟩,
      ⟨.retryComponent clockId (sampleDigest 'b') 1, [], none⟩] := rfl
  rw [hsplit, run_append, run_cons, run_cons, run_nil, hnone] at haccepted
  cases haccepted

end HyprShelld.PlanController
