import HyprShelld.Coordinator.Chain
import HyprShelld.Support.Run

/-! Failing components stay contained, whatever the order of the controller's operations. -/
namespace HyprShelld.PlanController
open Components HealthStore

variable {number : NumberText} {unicode : UnicodeTables} {sha256 : QByteArray → QString}

section Plans

/-- Only built-ins go by the built-in's identifier. -/
def Foreign (plan : SurfacePlan) : Prop :=
  ∀ e ∈ plan.instances, e.2.runtimeKind ≠ builtinKind → e.2.componentId ≠ workspaceSwitcherId

/-- A plan that can be written as it stands. -/
structure Writable (number : NumberText) (plan : SurfacePlan) : Prop where
  instances_sorted : plan.instances.Sorted
  layouts_sorted : plan.barLayouts.Sorted
  canonical : ∀ e ∈ plan.instances, e.2.Canonical
  textual : plan.Textual number
  foreign : Foreign plan

/-- A plan that has an artifact. -/
structure Published (number : NumberText) (unicode : UnicodeTables) (plan : SurfacePlan) : Prop where
  sound : plan.Sound number unicode
  textual : plan.Textual number
  fits : plan.Fits number
  foreign : Foreign plan

theorem Published.writable {plan : SurfacePlan} (h : Published number unicode plan) : Writable number plan :=
  ⟨h.sound.instances_sorted, h.sound.layouts_sorted, fun e he => (h.sound.instances e he).2.canonical, h.textual,
    h.foreign⟩

theorem Writable.removeInstances {plan : SurfacePlan} (h : Writable number plan) (removed : QString → Bool) :
    Writable number (removeInstances plan removed) :=
  ⟨removeInstances_sorted h.instances_sorted, removeInstances_layouts_sorted h.layouts_sorted,
    fun e he => h.canonical e (mem_removeInstances.mp he).1, h.textual.removeInstances _,
    fun e he => h.foreign e (mem_removeInstances.mp he).1⟩

theorem Published.removeInstances (hplain : number.PlainIntegers) {plan : SurfacePlan}
    (h : Published number unicode plan) (removed : QString → Bool) :
    Published number unicode (removeInstances plan removed) :=
  ⟨h.sound.removeInstances, h.textual.removeInstances _,
    h.fits.removeInstances hplain h.textual h.sound.instances_sorted h.sound.layouts_sorted removed,
    fun e he => h.foreign e (mem_removeInstances.mp he).1⟩

theorem writable_effectivePlan {catalog : RuntimeCatalogSnapshot} {configuration : RuntimeConfigurationSnapshot}
    (h : Buildable number unicode catalog configuration) (hcatalog : catalog.Textual)
    (hconfiguration : configuration.Textual number) :
    Writable number (effectivePlan number unicode catalog configuration) :=
  ⟨effectivePlan_sorted, effectivePlan_layouts_sorted, h.canonical, h.textual hcatalog hconfiguration, h.foreign⟩

/-- Nothing but built-ins. -/
def BuiltinOnly (plan : SurfacePlan) : Prop := ∀ e ∈ plan.instances, e.2.runtimeKind = builtinKind

/-- No instance of a quarantined package. -/
def NoQuarantine (health : ComponentRuntimeHealthState) (plan : SurfacePlan) : Prop :=
  ∀ e ∈ plan.instances, isQuarantined health e.2.componentId e.2.packageDigest = false

/-- Every activation is one of a declarative instance of the plan, of the same package. -/
def Matches (pending : QMap ComponentRuntimePendingActivation) (plan : SurfacePlan) : Prop :=
  ∀ e ∈ pending, (plan.instances.lookup e.1).any (runs e.2.componentId e.2.packageDigest) = true

theorem builtinOnly_stripThirdParty {plan : SurfacePlan} (h : plan.instances.Sorted) :
    BuiltinOnly (stripThirdParty plan) := by
  intro e he
  obtain ⟨hm, hr⟩ := mem_removeInstances.mp he
  rw [QMap.lookup_of_mem h hm] at hr
  simpa using hr

theorem removeInstances_twice (plan : SurfacePlan) (a b : QString → Bool) :
    removeInstances (removeInstances plan a) b = removeInstances plan fun id => a id || b id := by
  simp only [removeInstances, List.filter_filter, List.map_map, Function.comp_def, Bool.not_or, Bool.and_comm]

/-- Stripping forgets what else was taken out of third parties before. -/
theorem stripThirdParty_removeInstances {plan : SurfacePlan} {removed : QString → Bool}
    (h : ∀ id, removed id = true → (plan.instances.lookup id).any (·.runtimeKind ≠ builtinKind) = true) :
    stripThirdParty (removeInstances plan removed) = stripThirdParty plan := by
  unfold stripThirdParty
  rw [removeInstances_twice]
  congr 1
  funext id
  rw [lookup_removeInstances]
  cases hr : removed id with
  | false => simp
  | true => simpa using h id hr

theorem stripThirdParty_twice (plan : SurfacePlan) : stripThirdParty (stripThirdParty plan) = stripThirdParty plan :=
  stripThirdParty_removeInstances fun _ h => h

theorem stripThirdParty_filterQuarantined (health : ComponentRuntimeHealthState) (plan : SurfacePlan) :
    stripThirdParty (filterQuarantined health plan) = stripThirdParty plan := by
  apply stripThirdParty_removeInstances
  intro id h
  cases hl : plan.instances.lookup id with
  | none => simp [hl] at h
  | some i =>
    simp only [hl, Option.any_some, Bool.and_eq_true] at h ⊢
    exact h.1

/-- What of a plan is shown. -/
def shown (c : Controller) (allowThirdParty : Bool) (plan : SurfacePlan) : SurfacePlan :=
  if !allowThirdParty || thirdPartySafeMode c then stripThirdParty plan else filterQuarantined c.health plan

theorem Writable.shown {plan : SurfacePlan} (h : Writable number plan) (c : Controller) (allowThirdParty : Bool) :
    Writable number (shown c allowThirdParty plan) := by
  unfold PlanController.shown
  split_ifs
  · exact h.removeInstances _
  · exact h.removeInstances _

theorem stripThirdParty_shown (c : Controller) (allowThirdParty : Bool) (plan : SurfacePlan) :
    stripThirdParty (shown c allowThirdParty plan) = stripThirdParty plan := by
  unfold PlanController.shown
  split_ifs
  · exact stripThirdParty_twice plan
  · exact stripThirdParty_filterQuarantined _ plan

/-- A built-in is never quarantined. -/
theorem noQuarantine_builtin {health : ComponentRuntimeHealthState} (hh : HealthOk health) {i : SurfaceInstance}
    (hs : i.Sound number unicode) (hk : i.runtimeKind = builtinKind) :
    isQuarantined health i.componentId i.packageDigest = false := by
  rcases hs.runtime with hb | hd
  · rw [hb.componentId]
    exact hh.builtin hs.packageDigest
  · exact absurd (hk.symm.trans hd.kind) builtinKind_ne_declarativeKind

theorem noQuarantine_shown {c : Controller} (hh : HealthOk c.health) {plan : SurfacePlan} {allowThirdParty : Bool}
    (hp : plan.instances.Sorted) (hs : (shown c allowThirdParty plan).Sound number unicode) :
    NoQuarantine c.health (shown c allowThirdParty plan) := by
  intro e he
  have hsound := (hs.instances e he).2
  by_cases hk : e.2.runtimeKind = builtinKind
  · exact noQuarantine_builtin hh hsound hk
  · unfold PlanController.shown at he
    split_ifs at he
    · exact absurd (builtinOnly_stripThirdParty hp e he) hk
    · obtain ⟨hm, hr⟩ := mem_removeInstances.mp he
      rw [QMap.lookup_of_mem hp hm] at hr
      simpa [hk] using hr

end Plans

section Publish

theorem keptPending_mem {c : Controller} {plan : SurfacePlan} {e : QString × ComponentRuntimePendingActivation}
    (h : e ∈ keptPending c plan) :
    e ∈ c.health.pending ∧ (plan.instances.lookup e.1).any (runs e.2.componentId e.2.packageDigest) = true := by
  unfold keptPending at h
  split_ifs at h
  · cases h
  · exact List.mem_filter.mp h

theorem keptPending_sorted {c : Controller} (h : c.health.pending.Sorted) (plan : SurfacePlan) :
    (keptPending c plan).Sorted := by
  unfold keptPending
  split_ifs
  · exact QMap.sorted_nil
  · exact QMap.sorted_filter h _

/-- Preparing a plan drops the activations it does not keep, or turns third parties off. -/
theorem preparePending_spec {c : Controller} (hl : Linked number c) (plan : SurfacePlan) :
    SameRuntime c (preparePending number c plan).1 ∧ Chain number c (preparePending number c plan).1 ∧
    (((preparePending number c plan).2 = none ∧
        (preparePending number c plan).1.health.records = c.health.records ∧
        (preparePending number c plan).1.health.safeMode = c.health.safeMode ∧
        (preparePending number c plan).1.health.pending = keptPending c plan ∧
        (preparePending number c plan).1.probationActive = decide (keptPending c plan ≠ [])) ∨
      ((∃ error, (preparePending number c plan).2 = some error) ∧
        (preparePending number c plan).1.health = { c.health with safeMode := true } ∧
        (preparePending number c plan).1.probationActive = false)) := by
  unfold preparePending
  simp only []
  split_ifs with hsame
  · have hpending : keptPending c plan = c.health.pending := congrArg ComponentRuntimeHealthState.pending hsame
    refine ⟨⟨rfl, rfl, rfl, rfl, rfl⟩, .quiet .refl ⟨rfl, rfl, rfl, rfl⟩, .inl ⟨rfl, rfl, rfl, hpending.symm, ?_⟩⟩
    rw [hpending]
  · have hknows : ¬ Detached c := by
      intro hd
      apply hsame
      have hnone : keptPending c plan = [] := by
        apply List.eq_nil_iff_forall_not_mem.mpr
        intro e he
        have := (keptPending_mem he).1
        rw [hd.2.1] at this
        cases this
      rw [hnone, ← hd.2.1]
    have hlegal : Legal c.health .planChange { c.health with pending := keptPending c plan } :=
      .planChange (keptPending_sorted hl.health.pending_sorted plan) fun e he => (keptPending_mem he).1
    have hchain : Chain number c _ := .commit .refl hknows hlegal
    obtain ⟨hruntime, hcases⟩ := commitHealth_cases number c .planChange
      { c.health with pending := keptPending c plan }
    generalize commitHealth number c .planChange { c.health with pending := keptPending c plan } = result at *
    obtain ⟨c', error⟩ := result
    rcases hcases with ⟨herror, hhealth, _⟩ | ⟨⟨text, herror⟩, hhealth, _⟩
    · dsimp only at herror hhealth
      subst herror
      refine ⟨⟨hruntime.state, hruntime.artifact, hruntime.catalog, hruntime.configuration, hruntime.healthInitialized⟩,
        hchain.quiet ⟨rfl, rfl, rfl, rfl⟩, .inl ⟨rfl, ?_⟩⟩
      simp only [hhealth, numbered]
      trivial
    · dsimp only at herror hhealth
      subst herror
      exact ⟨⟨hruntime.state, hruntime.artifact, hruntime.catalog, hruntime.configuration,
        hruntime.healthInitialized⟩, hchain.quiet ⟨rfl, rfl, rfl, rfl⟩, .inr ⟨⟨text, rfl⟩, hhealth, rfl⟩⟩

variable (number unicode) in
/-- What is ready to be published from: good health, a published artifact and usable snapshots. -/
structure Ready (c : Controller) : Prop where
  linked : Linked number c
  artifact : ∀ a ∈ c.artifact, Published number unicode a.plan
  snapshots : ∀ catalog ∈ c.catalog, ∀ configuration ∈ c.configuration,
    catalog.Textual ∧ configuration.Textual number ∧ Buildable number unicode catalog configuration
  sources : c.artifact ≠ none → c.catalog ≠ none ∧ c.configuration ≠ none

variable (number unicode) in
/-- The invariant of the controller. -/
structure Contained (c : Controller) : Prop extends Ready number unicode c where
  retained : c.state = .authoritative ∨ ∀ a ∈ c.artifact, BuiltinOnly a.plan
  safe : thirdPartySafeMode c = true → ∀ a ∈ c.artifact, BuiltinOnly a.plan
  clean : ∀ a ∈ c.artifact, NoQuarantine c.health a.plan
  probation : thirdPartySafeMode c = false → c.health.pending ≠ [] →
    c.state = .authoritative ∧ c.probationActive = true ∧ ∃ a ∈ c.artifact, Matches c.health.pending a.plan
  timer : c.probationActive = true → c.state = .authoritative ∧ c.artifact ≠ none

theorem Ready.of_same {c c' : Controller} (h : Ready number unicode c) (hl : Linked number c')
    (hs : SameRuntime c c') : Ready number unicode c' := by
  refine ⟨hl, ?_, ?_, ?_⟩
  · rw [hs.artifact]
    exact h.artifact
  · rw [hs.catalog, hs.configuration]
    exact h.snapshots
  · rw [hs.artifact, hs.catalog, hs.configuration]
    exact h.sources

/-- Without an artifact only probation can go wrong. -/
theorem Ready.contained {c : Controller} (h : Ready number unicode c) (hnone : c.artifact = none)
    (hp : (thirdPartySafeMode c = true ∨ c.health.pending = []) ∧ c.probationActive = false) :
    Contained number unicode c := by
  refine { toReady := h, retained := ?_, safe := ?_, clean := ?_, probation := ?_, timer := ?_ }
  · exact .inr (by simp [hnone])
  · simp [hnone]
  · simp [hnone]
  · intro hs hn
    rcases hp.1 with hp | hp
    · rw [hs] at hp
      cases hp
    · exact absurd hp hn
  · simp [hp.2]

theorem thirdPartySafeMode_refused {c c' : Controller} (h : c'.health = { c.health with safeMode := true }) :
    thirdPartySafeMode c' = true := by
  simp [thirdPartySafeMode, h]

/-- What is shown depends on the records and on safe mode only. -/
theorem shown_congr {c c' : Controller} (hr : c'.health.records = c.health.records)
    (hs : thirdPartySafeMode c' = thirdPartySafeMode c) (allowThirdParty : Bool) (plan : SurfacePlan) :
    shown c' allowThirdParty plan = shown c allowThirdParty plan := by
  unfold shown filterQuarantined isQuarantined
  rw [hr, hs]

/-- The controller a plan is published from: the pending activations prepared, and what is left to show. -/
theorem prepared_spec {c : Controller} (hl : Linked number c) (plan : SurfacePlan) (allowThirdParty : Bool) :
    ∃ c' error, preparePending number c (shown c allowThirdParty plan) = (c', error) ∧ SameRuntime c c' ∧
      Chain number c c' ∧
      (if error.isSome then stripThirdParty (shown c allowThirdParty plan) else shown c allowThirdParty plan) =
        shown c' allowThirdParty plan ∧
      (thirdPartySafeMode c' = false →
        Matches c'.health.pending (shown c' allowThirdParty plan) ∧
          (c'.health.pending ≠ [] → c'.probationActive = true)) ∧
      (c'.probationActive = true →
        c'.health.pending ≠ [] ∧ Matches c'.health.pending (shown c' allowThirdParty plan)) := by
  obtain ⟨hruntime, hchain, hcases⟩ := preparePending_spec hl (shown c allowThirdParty plan)
  generalize hp : preparePending number c (shown c allowThirdParty plan) = prepared at *
  obtain ⟨c', error⟩ := prepared
  refine ⟨c', error, rfl, hruntime, hchain, ?_⟩
  rcases hcases with ⟨herror, hr, hs, hpending, htimer⟩ | ⟨⟨text, herror⟩, hhealth, htimer⟩
  · dsimp only at herror hr hs hpending htimer hruntime
    subst herror
    have hsafe : thirdPartySafeMode c' = thirdPartySafeMode c := by
      simp only [thirdPartySafeMode, hs, hruntime.healthInitialized]
    have hshown := shown_congr hr hsafe allowThirdParty plan
    have hmatches : Matches c'.health.pending (shown c' allowThirdParty plan) := by
      rw [hpending, hshown]
      exact fun e he => (keptPending_mem he).2
    rw [← hpending] at htimer
    refine ⟨hshown.symm, fun _ => ⟨hmatches, ?_⟩, ?_⟩
    · intro hn
      rw [htimer, decide_eq_true hn]
    · intro hactive
      rw [htimer] at hactive
      exact ⟨of_decide_eq_true hactive, hmatches⟩
  · dsimp only at herror hhealth htimer
    subst herror
    have hsafe := thirdPartySafeMode_refused hhealth
    refine ⟨?_, fun h => ?_, by simp [htimer]⟩
    · simp only [Option.isSome_some, if_true, stripThirdParty_shown]
      simp only [shown, hsafe, Bool.or_true, if_true]
    · rw [hsafe] at h
      cases h

theorem not_builtinOnly_of_matches {pending : QMap ComponentRuntimePendingActivation} {plan : SurfacePlan}
    (hm : Matches pending plan) (hn : pending ≠ []) : ¬ BuiltinOnly plan := by
  intro hb
  obtain ⟨e, he⟩ := List.exists_mem_of_ne_nil _ hn
  have hruns := hm e he
  cases hl : plan.instances.lookup e.1 with
  | none => simp [hl] at hruns
  | some i =>
    have hk := hb _ (QMap.mem_of_lookup hl)
    simp only [hl, Option.any_some, runs, Bool.and_eq_true, decide_eq_true_eq] at hruns
    exact builtinKind_ne_declarativeKind (hk.symm.trans hruns.1.1)

variable (sha256) in
/-- A publication that got its artifact leaves a contained controller; one that did not changes the health only. -/
theorem tryPublish_spec (hplain : number.PlainIntegers) {c : Controller} (hr : Ready number unicode c)
    {plan : SurfacePlan} (hw : Writable number plan) (state : State) (allowThirdParty : Bool)
    (hstate : state = .authoritative ∨ allowThirdParty = false)
    (hsources : c.catalog ≠ none ∧ c.configuration ≠ none) (error : QString) :
    Chain number c (tryPublish number unicode sha256 c plan state allowThirdParty error).1 ∧
    (tryPublish number unicode sha256 c plan state allowThirdParty error).1.catalog = c.catalog ∧
    (tryPublish number unicode sha256 c plan state allowThirdParty error).1.configuration = c.configuration ∧
    (((∃ durable, (tryPublish number unicode sha256 c plan state allowThirdParty error).2 = .ok durable) ∧
        Contained number unicode (tryPublish number unicode sha256 c plan state allowThirdParty error).1 ∧
        (tryPublish number unicode sha256 c plan state allowThirdParty error).1.state = state ∧
        ∃ a, (tryPublish number unicode sha256 c plan state allowThirdParty error).1.artifact = some a ∧
          a.plan = shown (tryPublish number unicode sha256 c plan state allowThirdParty error).1 allowThirdParty plan) ∨
      ((∃ text, (tryPublish number unicode sha256 c plan state allowThirdParty error).2 = .error text) ∧
        SameRuntime c (tryPublish number unicode sha256 c plan state allowThirdParty error).1 ∧
        Ready number unicode (tryPublish number unicode sha256 c plan state allowThirdParty error).1 ∧
        ∀ a, ¬ (makeSurfacePlanArtifact number unicode sha256
          (shown (tryPublish number unicode sha256 c plan state allowThirdParty error).1 allowThirdParty plan)).value =
            some a)) := by
  obtain ⟨c', healthError, hprepare, hruntime, hchain, hplan, hpending, hactive⟩ := prepared_spec hr.linked plan allowThirdParty
  have hready : Ready number unicode c' := hr.of_same (hchain.linked hr.linked) hruntime
  have hwritable := hw.shown c' allowThirdParty
  have hsorted := hw.instances_sorted
  unfold tryPublish
  rw [show (if !allowThirdParty || thirdPartySafeMode c then stripThirdParty plan
    else filterQuarantined c.health plan) = shown c allowThirdParty plan from rfl]
  simp only [hprepare, hplan]
  cases hmade : (makeSurfacePlanArtifact number unicode sha256 (shown c' allowThirdParty plan)).value with
  | none =>
    simp only []
    exact ⟨hchain, hruntime.catalog, hruntime.configuration, .inr ⟨⟨_, rfl⟩, hruntime, hready, by simp [hmade]⟩⟩
  | some made =>
    dsimp only
    obtain ⟨hexact, _, hsound, hfits⟩ := makeSurfacePlanArtifact_exact hplain hwritable.textual
      hwritable.instances_sorted hwritable.layouts_sorted hwritable.canonical hmade
    have hbuiltin (h : allowThirdParty = false ∨ thirdPartySafeMode c' = true) :
        BuiltinOnly (shown c' allowThirdParty plan) := by
      rw [shown, if_pos (by rcases h with h | h <;> simp [h])]
      exact builtinOnly_stripThirdParty hsorted
    have hpublished : Published number unicode made.plan := by
      rw [hexact]
      exact ⟨hsound, hwritable.textual, hfits, hwritable.foreign⟩
    refine ⟨hchain.quiet ⟨rfl, rfl, rfl, rfl⟩, hruntime.catalog, hruntime.configuration, .inl ⟨⟨_, rfl⟩, ?_, rfl, made, rfl,
      hexact⟩⟩
    refine { linked := ?_, artifact := ?_, snapshots := hready.snapshots, sources := ?_, retained := ?_, safe := ?_,
             clean := ?_, probation := ?_, timer := ?_ }
    · exact SameHealth.linked (c := c') ⟨rfl, rfl, rfl, rfl⟩ hready.linked
    · rintro _ ⟨⟩
      exact hpublished
    · intro _
      rw [← hruntime.catalog, ← hruntime.configuration] at hsources
      exact hsources
    · rcases hstate with rfl | h
      · exact .inl rfl
      · right
        rintro _ ⟨⟩
        rw [hexact]
        exact hbuiltin (.inl h)
    · rintro h _ ⟨⟩
      rw [hexact]
      exact hbuiltin (.inr h)
    · rintro _ ⟨⟩
      rw [hexact]
      exact noQuarantine_shown hready.linked.health hsorted hsound
    · intro hs hn
      obtain ⟨hmatches, htimer⟩ := hpending hs
      refine ⟨?_, htimer hn, made, rfl, by rw [hexact]; exact hmatches⟩
      rcases hstate with rfl | h
      · rfl
      · exact absurd (hbuiltin (.inl h)) (not_builtinOnly_of_matches hmatches hn)
    · intro htimer
      obtain ⟨hn, hmatches⟩ := hactive htimer
      refine ⟨?_, by simp⟩
      rcases hstate with rfl | h
      · rfl
      · exact absurd (hbuiltin (.inl h)) (not_builtinOnly_of_matches hmatches hn)

end Publish

section Operations
variable (hplain : number.PlainIntegers)

variable (number unicode) in
/-- An authoritative artifact is what is to be shown of the plan of the cached snapshots. -/
def Current (c : Controller) : Prop :=
  c.state = .authoritative → ∃ catalog configuration a, c.catalog = some catalog ∧ c.configuration = some configuration ∧
    c.artifact = some a ∧ a.plan = shown c true (effectivePlan number unicode catalog configuration)

variable (number unicode) in
/-- Where an operation that publishes leads. -/
structure Leads (c c' : Controller) : Prop where
  chain : Chain number c c'
  contained : Contained number unicode c'
  catalog : c'.catalog = c.catalog
  configuration : c'.configuration = c.configuration

include hplain

variable (sha256) in
/-- The retained form of a published plan always has its artifact. -/
theorem publishRetained_spec {c : Controller} (hr : Ready number unicode c) {a : SurfacePlanArtifact}
    (ha : c.artifact = some a) (error : QString) :
    (∃ durable, (tryPublish number unicode sha256 c a.plan .retained false error).2 = .ok durable) ∧
      Leads number unicode c (tryPublish number unicode sha256 c a.plan .retained false error).1 ∧
      (tryPublish number unicode sha256 c a.plan .retained false error).1.state = .retained := by
  have hpublished := hr.artifact a ha
  obtain ⟨hchain, hcatalog, hconfiguration, hcases⟩ := tryPublish_spec sha256 hplain hr hpublished.writable
    .retained _ (.inr rfl) (hr.sources (by simp [ha])) error
  rcases hcases with ⟨hok, hcontained, hstate, _⟩ | ⟨_, _, _, hnone⟩
  · exact ⟨hok, ⟨hchain, hcontained, hcatalog, hconfiguration⟩, hstate⟩
  · exfalso
    have hstripped : Published number unicode (stripThirdParty a.plan) := hpublished.removeInstances hplain _
    obtain ⟨made, hmade, _⟩ := makeSurfacePlanArtifact_complete sha256 hplain hstripped.textual
      hstripped.sound hstripped.fits
    apply hnone made
    simp only [shown, Bool.not_false, Bool.true_or, if_true, hmade]

variable (sha256) in
theorem setFailedState_spec {c : Controller} (hr : Ready number unicode c) (error : QString) :
    Leads number unicode c (setFailedState number unicode sha256 c error) ∧
      (setFailedState number unicode sha256 c error).state ≠ .authoritative := by
  unfold setFailedState
  cases ha : c.artifact with
  | some a =>
    obtain ⟨_, hleads, hstate⟩ := publishRetained_spec sha256 hplain hr ha error
    exact ⟨hleads, by simp [hstate]⟩
  | none =>
    obtain ⟨hruntime, hchain, hcases⟩ := preparePending_spec hr.linked {}
    have hnone : keptPending c {} = [] := by
      simp [keptPending, ha]
    have hready := hr.of_same (hchain.linked hr.linked) hruntime
    generalize preparePending number c {} = prepared at *
    obtain ⟨c', healthError⟩ := prepared
    dsimp only at hruntime hchain hcases hready ⊢
    have hchain' : Chain number c { c' with
        state := .unavailable, lastError := if healthError.getD [] ≠ [] then healthError.getD [] else error } :=
      hchain.quiet ⟨rfl, rfl, rfl, rfl⟩
    refine ⟨⟨hchain', ?_, hruntime.catalog, hruntime.configuration⟩, by simp⟩
    apply Ready.contained
    · exact ⟨hchain'.linked hr.linked, hready.artifact, hready.snapshots, hready.sources⟩
    · exact hruntime.artifact.trans ha
    · rcases hcases with ⟨_, _, _, hpending, htimer⟩ | ⟨_, hhealth, htimer⟩
      · exact ⟨.inr (hpending.trans hnone), htimer.trans (by simp [hnone])⟩
      · exact ⟨.inl (thirdPartySafeMode_refused (c := c) hhealth), htimer⟩

variable (sha256) in
/-- An authoritative publication, or a failed state where the plan has no artifact. -/
theorem publishPlan_spec {c : Controller} (hr : Ready number unicode c) {catalog : RuntimeCatalogSnapshot}
    {configuration : RuntimeConfigurationSnapshot} (hcatalog : c.catalog = some catalog)
    (hconfiguration : c.configuration = some configuration) (error : QString) :
    Leads number unicode c (publishPlan number unicode sha256 c (effectivePlan number unicode catalog configuration)
      .authoritative true error).1 ∧
    Current number unicode (publishPlan number unicode sha256 c (effectivePlan number unicode catalog configuration)
      .authoritative true error).1 ∧
    ((publishPlan number unicode sha256 c (effectivePlan number unicode catalog configuration)
      .authoritative true error).2 = true → (publishPlan number unicode sha256 c
        (effectivePlan number unicode catalog configuration) .authoritative true error).1.state = .authoritative) := by
  obtain ⟨htextc, htextd, hbuildable⟩ := hr.snapshots catalog hcatalog configuration hconfiguration
  have hwritable := writable_effectivePlan hbuildable htextc htextd
  obtain ⟨hchain, hsamec, hsamed, hcases⟩ := tryPublish_spec sha256 hplain hr hwritable
    .authoritative true (.inl rfl) ⟨by simp [hcatalog], by simp [hconfiguration]⟩ error
  unfold publishPlan
  generalize tryPublish number unicode sha256 c (effectivePlan number unicode catalog configuration) .authoritative true
    error = result at *
  obtain ⟨c', result⟩ := result
  rcases hcases with ⟨⟨durable, hok⟩, hcontained, hstate, a, ha, hplan⟩ | ⟨⟨text, herror⟩, hruntime, hready, _⟩
  · dsimp only at hok
    subst hok
    refine ⟨⟨hchain, hcontained, hsamec, hsamed⟩, ?_, fun _ => hstate⟩
    intro _
    exact ⟨catalog, configuration, a, hsamec.trans hcatalog, hsamed.trans hconfiguration, ha, hplan⟩
  · dsimp only at herror hready hruntime hchain
    subst herror
    obtain ⟨hleads, hstate⟩ := setFailedState_spec sha256 hplain hready text
    refine ⟨⟨hchain.trans hleads.chain, hleads.contained, hleads.catalog.trans hsamec,
      hleads.configuration.trans hsamed⟩, fun h => absurd h hstate, by simp⟩

variable (sha256) in
theorem rebuildAuthoritativePlan_spec {c : Controller} (hr : Ready number unicode c)
    (hnone : c.artifact = none →
      (thirdPartySafeMode c = true ∨ c.health.pending = []) ∧ c.probationActive = false) :
    Leads number unicode c (rebuildAuthoritativePlan number unicode sha256 c) ∧
      (c.artifact ≠ none → Current number unicode (rebuildAuthoritativePlan number unicode sha256 c)) := by
  have hkeep (h : c.catalog = none ∨ c.configuration = none) : Leads number unicode c c ∧ c.artifact = none := by
    have ha : c.artifact = none := by
      by_contra ha
      obtain ⟨h1, h2⟩ := hr.sources ha
      rcases h with h | h
      · exact h1 h
      · exact h2 h
    exact ⟨⟨.refl, hr.contained ha (hnone ha), rfl, rfl⟩, ha⟩
  unfold rebuildAuthoritativePlan
  cases hcatalog : c.catalog with
  | none =>
    obtain ⟨hleads, ha⟩ := hkeep (.inl hcatalog)
    exact ⟨hleads, fun h => absurd ha h⟩
  | some catalog =>
    cases hconfiguration : c.configuration with
    | none =>
      obtain ⟨hleads, ha⟩ := hkeep (.inr hconfiguration)
      exact ⟨hleads, fun h => absurd ha h⟩
    | some configuration =>
      obtain ⟨_, _, hbuildable⟩ := hr.snapshots catalog hcatalog configuration hconfiguration
      have hbuilt : (buildSurfacePlan number unicode catalog configuration).value =
        some (effectivePlan number unicode catalog configuration) := buildSurfacePlan_iff.mpr ⟨hbuildable, rfl⟩
      simp only [hbuilt]
      obtain ⟨hleads, hcurrent, _⟩ := publishPlan_spec sha256 hplain hr hcatalog hconfiguration []
      exact ⟨hleads, fun _ => hcurrent⟩

end Operations
end HyprShelld.PlanController
