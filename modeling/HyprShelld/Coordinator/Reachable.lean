import HyprShelld.Coordinator.Operations
import HyprShelld.Canonical.Exact
import HyprShelld.Json.ExactDecimal

/-! The reachable states of the plan controller, restarts included. -/
namespace HyprShelld.PlanController
open Components HealthStore

variable {number : NumberText} {unicode : UnicodeTables} {sha256 : QByteArray → QString}

/-- What the hydrator promises of the snapshots it hands over: their strings were decoded from UTF-8. -/
def Event.Hydrated (number : NumberText) (e : Event) : Prop :=
  match e.operation with
  | .acceptSnapshots catalog configuration => catalog.Textual ∧ configuration.Textual number
  | _ => True

/-- A first start: without a health store, or with one that has no files yet. -/
inductive FirstStart : Controller → Prop where
  | withoutStore : FirstStart withoutStore
  | withStore : FirstStart (withStore {})

theorem contained_withoutStore : Contained number unicode withoutStore := by
  have hready : Ready number unicode withoutStore :=
    ⟨⟨healthOk_empty 0 false, ⟨by simp [withoutStore], by simp [withoutStore]⟩, .inl (by simp [Attached, withoutStore])⟩,
      by simp [withoutStore], by simp [withoutStore], by simp [withoutStore]⟩
  exact hready.contained rfl ⟨.inr rfl, rfl⟩

/-- A restarted process trusts nobody until it has read its files. -/
theorem contained_withStore {files : HealthFiles} {state : ComponentRuntimeHealthState}
    (hd : Durable number files state) (hs : HealthOk state) : Contained number unicode (withStore files) := by
  have hready : Ready number unicode (withStore files) := by
    refine ⟨⟨healthOk_empty 0 false, ⟨by simp [withStore], ?_⟩, .inr ⟨rfl, rfl, rfl, rfl⟩⟩,
      by simp [withStore], by simp [withStore], by simp [withStore]⟩
    rintro _ ⟨⟩
    exact ⟨state, .repair, hd, hs⟩
  exact hready.contained rfl ⟨.inl rfl, rfl⟩

theorem FirstStart.contained {c : Controller} (h : FirstStart c) : Contained number unicode c := by
  cases h with
  | withoutStore => exact contained_withoutStore
  | withStore => exact contained_withStore .fresh (healthOk_empty 0 false)

variable {c : Controller}

/-- A new operation starts without writes of its own. -/
def opened (c : Controller) (faults : List PersistFaults) : Controller := { c with faults, written := [] }

theorem Contained.opened (h : Contained number unicode c) (faults : List PersistFaults) :
    Contained number unicode (opened c faults) :=
  { linked := ⟨h.linked.health, ⟨by simp [PlanController.opened], h.linked.files.held⟩, h.linked.known⟩
    artifact := h.artifact
    snapshots := h.snapshots
    sources := h.sources
    retained := h.retained
    safe := h.safe
    clean := h.clean
    probation := h.probation
    timer := h.timer }

section Sample

/-- A process with a bar that shows a declarative clock. -/
def sampleDigest : Char → QString
  | 'a' => qstr "aaaaaaaaaaaaaaaaaaaaaaaaaaaaaaaaaaaaaaaaaaaaaaaaaaaaaaaaaaaaaaaa"
  | 'b' => qstr "bbbbbbbbbbbbbbbbbbbbbbbbbbbbbbbbbbbbbbbbbbbbbbbbbbbbbbbbbbbbbbbb"
  | 'c' => qstr "cccccccccccccccccccccccccccccccccccccccccccccccccccccccccccccccc"
  | _ => qstr "dddddddddddddddddddddddddddddddddddddddddddddddddddddddddddddddd"

def plainTables : UnicodeTables := { CanonicalJson.plainUnicode with isUnassigned := fun _ => false }

def sampleSha256 (_ : QByteArray) : QString := sampleDigest 'd'

def workspaceEntry : RuntimeCatalogEntry where
  componentId := workspaceSwitcherId
  componentType := qstr "bar-widget"
  packageDigest := sampleDigest 'a'
  origin := qstr "system"
  removable := false
  componentApiVersion := currentComponentApiVersion
  runtimeKind := builtinKind
  factory := workspaceSwitcherFactory
  capabilityIds := [workspacesReadCapability, workspacesActivateCapability]

def clockId : QString := qstr "org.example.clock"

def clockDocument : DeclarativeDocument := { text := ⟨.literal, qstr "noon"⟩ }

def clockEntry : RuntimeCatalogEntry where
  componentId := clockId
  componentType := qstr "bar-widget"
  packageDigest := sampleDigest 'b'
  origin := qstr "user"
  componentApiVersion := currentComponentApiVersion
  runtimeKind := declarativeKind
  runtimeEntryPoint := qstr "clock.json"
  declarativeRuntime := serializeDeclarativeDocument exactDecimal clockDocument
  declarativeDocument := some clockDocument

def sampleCatalog : RuntimeCatalogSnapshot where
  catalogDigest := sampleDigest 'c'
  listedComponentIds := [workspaceSwitcherId, clockId]
  entries := [(clockId, clockEntry), (workspaceSwitcherId, workspaceEntry)]

def clockInstance : QString := qstr "7b4e2329-4320-4e15-894d-218fa690d783"

def sampleConfiguration : RuntimeConfigurationSnapshot where
  catalogDigest := sampleDigest 'c'
  revision := 1
  components := [(clockId, { enabled := true, packageDigest := sampleDigest 'b' })]
  instances := [(clockInstance, { componentId := clockId, enabled := true })]
  barLayouts := [(defaultBarLayoutId, { outputMode := qstr "all", start := [clockInstance] })]

def sampleStep : Controller → Event → Controller := step exactDecimal plainTables sampleSha256

def sampleRevision : UInt64 := surfacePlanRevision (sampleDigest 'd')

/-- The clock fails to render, and then one of the sources goes away. -/
def clockFails : List Event :=
  [⟨.initializeRuntimeHealth {}, [], none⟩, ⟨.acceptSnapshots sampleCatalog sampleConfiguration, [], none⟩,
    ⟨.activationFailed clockInstance clockId (sampleDigest 'b') sampleRevision (qstr "render-failed"), [], none⟩,
    ⟨.sourceUnavailable (qstr "gone"), [], none⟩]

theorem isText_sampleDigest (c : Char) : IsText (sampleDigest c) := by
  unfold sampleDigest
  split <;> exact isText_qstr _

theorem sampleCatalog_textual : sampleCatalog.Textual := by
  refine ⟨isText_sampleDigest 'c', ?_⟩
  intro e he
  rcases List.mem_pair.mp he with rfl | rfl
  · refine ⟨isText_qstr _, isText_qstr _, isText_sampleDigest 'b', isText_qstr _, isText_nil, ?_, ?_⟩
    · rintro _ ⟨⟩
      exact isText_qstr _
    · rintro _ ⟨⟩ _ ⟨⟩
  · refine ⟨isText_qstr _, isText_qstr _, isText_sampleDigest 'a', isText_qstr _, isText_qstr _, ?_, ?_⟩
    · rintro _ ⟨⟩
    · rintro _ ⟨⟩

theorem sampleConfiguration_textual : sampleConfiguration.Textual exactDecimal := by
  refine ⟨?_, ?_, ?_⟩
  · intro e he
    cases List.mem_singleton.mp he
    exact persistable_empty
  · intro e he
    cases List.mem_singleton.mp he
    exact ⟨isText_qstr _, persistable_empty⟩
  · intro e he
    cases List.mem_singleton.mp he
    exact isText_qstr _

theorem clockFails_hydrated : ∀ e ∈ clockFails, e.Hydrated exactDecimal := by
  intro e he
  simp only [clockFails, List.mem_cons, List.not_mem_nil, or_false] at he
  rcases he with rfl | rfl | rfl | rfl
  · trivial
  · exact ⟨sampleCatalog_textual, sampleConfiguration_textual⟩
  · trivial
  · trivial

end Sample
section Runs
variable (hplain : number.PlainIntegers)
include hplain

variable (sha256) in
theorem perform_contained (h : Contained number unicode c) (operation : Operation)
    (ho : Event.Hydrated number ⟨operation, [], none⟩) :
    Contained number unicode (perform number unicode sha256 c operation).1 := by
  cases operation with
  | initializeRuntimeHealth faults => exact initializeRuntimeHealth_contained h faults
  | beginHydration => exact (beginHydration_spec _ hplain h).1.contained
  | acceptSnapshots catalog configuration => exact (acceptSnapshots_spec _ hplain h ho.1 ho.2).2.1
  | hydrationFailed error => exact (setFailedState_spec _ hplain h.toReady error).1.contained
  | sourceUnavailable error => exact (setFailedState_spec _ hplain h.toReady error).1.contained
  | authorizeSurfacePlan revision => exact (authorizeSurfacePlan_spec hplain h revision).contained
  | cancelSurfacePlanAuthorization revision => exact (cancelSurfacePlanAuthorization_spec hplain h revision).contained
  | activationStable instanceId componentId packageDigest revision =>
    exact (activationStable_spec hplain h instanceId componentId packageDigest revision).contained
  | activationFailed instanceId componentId packageDigest revision reason =>
    exact (activationFailed_spec hplain h instanceId componentId packageDigest revision reason).contained
  | retryComponent componentId packageDigest revision =>
    exact (retryComponent_spec hplain h componentId packageDigest revision).contained
  | probationTimeout => exact (probationTimeout_spec hplain h).contained

omit hplain in
theorem restarted_contained {after : Controller} (h : Contained number unicode c) (ha : Contained number unicode after)
    (writes : Nat) : Contained number unicode (restarted c after writes) := by
  unfold restarted
  cases hs : c.healthStore with
  | none => exact contained_withoutStore
  | some files =>
    have hgood : ∃ state, Durable number (((after.written.map (·.2)).take writes).getLastD files) state ∧ HealthOk state := by
      rw [List.getLastD_eq_getLast?]
      cases hl : ((after.written.map (·.2)).take writes).getLast? with
      | none =>
        obtain ⟨state, _, hd, hok⟩ := h.linked.files.held files hs
        exact ⟨state, hd, hok⟩
      | some files' =>
        obtain ⟨w, hw, rfl⟩ := List.mem_map.mp (List.mem_of_mem_take (List.mem_of_mem_getLast? hl))
        exact ha.linked.files.written w hw
    obtain ⟨state, hd, hok⟩ := hgood
    exact contained_withStore hd hok

variable (sha256) in
theorem step_contained (h : Contained number unicode c) {e : Event} (he : e.Hydrated number) :
    Contained number unicode (step number unicode sha256 c e) := by
  have hafter := perform_contained sha256 hplain (h.opened e.faults) e.operation he
  unfold step
  cases e.cut with
  | none => exact hafter
  | some writes => exact restarted_contained h hafter writes

theorem run_contained {start : Controller} (hstart : FirstStart start) {events : List Event}
    (hevents : ∀ e ∈ events, e.Hydrated number) :
    Contained number unicode (run (step number unicode sha256) start events) := by
  refine run_invariant (P := Contained number unicode) ?_ hstart.contained hevents
  intro c e he h
  exact step_contained _ hplain h he

/-- Failing components stay contained in every reachable state. -/
theorem failingComponents_contained {start : Controller} (hstart : FirstStart start) {events : List Event}
    (hevents : ∀ e ∈ events, e.Hydrated number) {c : Controller}
    (hc : c = run (step number unicode sha256) start events) :
    (∀ a ∈ c.artifact, ∀ i ∈ a.plan.instances, ∀ record ∈ c.health.records, record.2.state = quarantined →
      ¬ (record.2.componentId = i.2.componentId ∧ record.2.packageDigest = i.2.packageDigest)) ∧
    (thirdPartySafeMode c = true ∨ c.state = .retained →
      ∀ a ∈ c.artifact, ∀ i ∈ a.plan.instances, i.2.runtimeKind = builtinKind) ∧
    (∀ activation ∈ c.health.pending, ∀ record ∈ c.health.records, record.2.state = quarantined →
      ¬ (record.2.componentId = activation.2.componentId ∧ record.2.packageDigest = activation.2.packageDigest)) ∧
    (thirdPartySafeMode c = false → c.health.pending ≠ [] →
      c.state = .authoritative ∧ c.probationActive = true ∧ ∃ a, c.artifact = some a ∧
        ∀ activation ∈ c.health.pending, ∃ i, a.plan.instances.lookup activation.1 = some i ∧
          i.runtimeKind = declarativeKind ∧ i.componentId = activation.2.componentId ∧
          i.packageDigest = activation.2.packageDigest) := by
  have h : Contained number unicode c := hc ▸ run_contained hplain hstart hevents
  refine ⟨?_, ?_, ?_, ?_⟩
  · rintro a ha i hi record hr hs ⟨hid, hdigest⟩
    have hclean := h.clean a ha i hi
    rw [← hid, ← hdigest, h.linked.health.isQuarantined_of_mem hr hs] at hclean
    cases hclean
  · intro hmode
    rcases hmode with hmode | hmode
    · exact h.safe hmode
    · exact h.retained.resolve_left (by simp [hmode])
  · rintro activation ha record hr hs ⟨hid, hdigest⟩
    have hdisjoint := h.linked.health.disjoint activation ha
    rw [← hid, ← hdigest, h.linked.health.isQuarantined_of_mem hr hs] at hdisjoint
    cases hdisjoint
  · intro hs hn
    obtain ⟨hstate, hactive, a, ha, hmatches⟩ := h.probation hs hn
    exact ⟨hstate, hactive, a, ha, fun activation hm => lookup_runs.mp (hmatches activation hm)⟩

end Runs

theorem failingComponents_contained_clock :
    (∀ a ∈ (run sampleStep (withStore {}) clockFails).artifact, ∀ i ∈ a.plan.instances,
      ∀ record ∈ (run sampleStep (withStore {}) clockFails).health.records, record.2.state = quarantined →
        ¬ (record.2.componentId = i.2.componentId ∧ record.2.packageDigest = i.2.packageDigest)) ∧
    (thirdPartySafeMode (run sampleStep (withStore {}) clockFails) = true ∨
      (run sampleStep (withStore {}) clockFails).state = .retained →
      ∀ a ∈ (run sampleStep (withStore {}) clockFails).artifact, ∀ i ∈ a.plan.instances,
        i.2.runtimeKind = builtinKind) := by
  have h := @failingComponents_contained exactDecimal plainTables sampleSha256 exactDecimal_plainIntegers (withStore {})
    .withStore clockFails clockFails_hydrated (run sampleStep (withStore {}) clockFails) rfl
  exact ⟨h.1, h.2.1⟩

end HyprShelld.PlanController
