import HyprShelld.Coordinator.Containment

/-! Every operation of the controller keeps failing components contained, by legal commits only. -/
namespace HyprShelld.PlanController
open Components HealthStore

variable {number : NumberText} {unicode : UnicodeTables} {sha256 : QByteArray → QString}

theorem thirdParty_of_runs {plan : SurfacePlan} (hp : Published number unicode plan) {instanceId : QString}
    {componentId packageDigest : QString}
    (h : (plan.instances.lookup instanceId).any (runs componentId packageDigest) = true) :
    ThirdParty componentId packageDigest := by
  cases hl : plan.instances.lookup instanceId with
  | none => simp [hl] at h
  | some i =>
    have hm := QMap.mem_of_lookup hl
    simp only [hl, Option.any_some, runs, Bool.and_eq_true, decide_eq_true_eq] at h
    obtain ⟨⟨hkind, rfl⟩, rfl⟩ := h
    refine ⟨hp.foreign _ hm ?_, (hp.sound.instances _ hm).2.packageDigest⟩
    rw [hkind]
    exact builtinKind_ne_declarativeKind.symm

section Commit
variable {c : Controller} {purpose : Purpose} {next : ComponentRuntimeHealthState}

/-- A controller after a commit that was made. -/
structure Committed (number : NumberText) (c : Controller) (next : ComponentRuntimeHealthState) (c' : Controller) :
    Prop where
  chain : Chain number c c'
  runtime : SameRuntime c c'
  health : c'.health = numbered c next
  timer : c'.probationActive = c.probationActive

variable (number) in
theorem commit_cases (hknows : ¬ Detached c) (hlegal : Legal c.health purpose next) :
    ∃ c' error, commitHealth number c purpose next = (c', error) ∧
      ((error = none ∧ Committed number c next c') ∨
        ((∃ text, error = some text) ∧ Chain number c c' ∧ SameRuntime c c' ∧ thirdPartySafeMode c' = true ∧
          c'.probationActive = false)) := by
  have hchain : Chain number c _ := .commit .refl hknows hlegal
  obtain ⟨hruntime, hcases⟩ := commitHealth_cases number c purpose next
  generalize commitHealth number c purpose next = result at *
  obtain ⟨c', error⟩ := result
  refine ⟨c', error, rfl, ?_⟩
  rcases hcases with ⟨herror, hhealth, htimer⟩ | ⟨herror, hhealth, htimer⟩
  · exact .inl ⟨herror, hchain, hruntime, hhealth, htimer⟩
  · exact .inr ⟨herror, hchain, hruntime, thirdPartySafeMode_refused hhealth, htimer⟩

theorem Committed.safeMode {c' : Controller} (h : Committed number c next c') (hlegal : Legal c.health purpose next) :
    thirdPartySafeMode c' = thirdPartySafeMode c := by
  simp only [thirdPartySafeMode, h.health, numbered, hlegal.safeMode, h.runtime.healthInitialized]

/-- Without an artifact nothing is on probation. -/
theorem Contained.idle (h : Contained number unicode c) (ha : c.artifact = none) :
    (thirdPartySafeMode c = true ∨ c.health.pending = []) ∧ c.probationActive = false := by
  refine ⟨?_, Bool.eq_false_iff.mpr fun hactive => (h.timer hactive).2 ha⟩
  cases hs : thirdPartySafeMode c with
  | true => exact .inl rfl
  | false =>
    right
    by_contra hn
    obtain ⟨_, _, a, hm, _⟩ := h.probation hs hn
    rw [ha] at hm
    cases hm

/-- A commit that only changes what is pending keeps the controller contained. -/
theorem Committed.contained {c' : Controller} (hc : Committed number c next c') (h : Contained number unicode c)
    (hlegal : Legal c.health purpose next) (hrecords : next.records = c.health.records) {active : Bool}
    (hprobation : thirdPartySafeMode c = false → next.pending ≠ [] →
      c.state = .authoritative ∧ active = true ∧ ∃ a ∈ c.artifact, Matches next.pending a.plan)
    (htimer : active = true → c.state = .authoritative ∧ c.artifact ≠ none) :
    Leads number unicode c { c' with probationActive := active } := by
  have hchain : Chain number c { c' with probationActive := active } := hc.chain.quiet ⟨rfl, rfl, rfl, rfl⟩
  have hready : Ready number unicode { c' with probationActive := active } := h.toReady.of_same (hchain.linked h.linked)
    ⟨hc.runtime.state, hc.runtime.artifact, hc.runtime.catalog, hc.runtime.configuration, hc.runtime.healthInitialized⟩
  have hsafe : thirdPartySafeMode { c' with probationActive := active } = thirdPartySafeMode c := hc.safeMode hlegal
  have hartifact := hc.runtime.artifact
  refine ⟨hchain, { toReady := hready, retained := ?_, safe := ?_, clean := ?_, probation := ?_, timer := ?_ },
    hc.runtime.catalog, hc.runtime.configuration⟩
  · simp only [hc.runtime.state, hartifact]
    exact h.retained
  · rw [hsafe]
    simp only [hartifact]
    exact h.safe
  · simp only [hartifact]
    intro a ha e he
    have := h.clean a ha e he
    unfold isQuarantined at this ⊢
    simp only [hc.health, numbered, hrecords]
    exact this
  · rw [hsafe]
    intro hs hn
    simp only [hc.health, numbered] at hn ⊢
    obtain ⟨hstate, hactive, hmatches⟩ := hprobation hs hn
    refine ⟨hc.runtime.state.trans hstate, hactive, ?_⟩
    rw [hartifact]
    exact hmatches
  · simp only [hc.runtime.state, hartifact]
    exact htimer

/-- A change of the timer alone. -/
theorem Contained.withTimer (h : Contained number unicode c) {active : Bool}
    (ha : thirdPartySafeMode c = false → c.health.pending ≠ [] → active = true)
    (htimer : active = true → c.state = .authoritative ∧ c.artifact ≠ none) :
    Leads number unicode c { c with probationActive := active } := by
  have hchain : Chain number c { c with probationActive := active } := Chain.quiet .refl ⟨rfl, rfl, rfl, rfl⟩
  refine ⟨hchain, { toReady := ?_, retained := h.retained, safe := h.safe, clean := h.clean, probation := ?_,
                    timer := htimer }, rfl, rfl⟩
  · exact ⟨hchain.linked h.linked, h.artifact, h.snapshots, h.sources⟩
  · intro hs hn
    obtain ⟨hstate, _, hmatches⟩ := h.probation hs hn
    exact ⟨hstate, ha hs hn, hmatches⟩

variable (hplain : number.PlainIntegers)
include hplain

variable (sha256) in
/-- Committing and rebuilding, where the commit adds nothing to an empty probation. -/
theorem commitAndRebuild_spec (h : Ready number unicode c)
    (hidle : c.artifact = none →
      (thirdPartySafeMode c = true ∨ c.health.pending = []) ∧ c.probationActive = false) (hknows : ¬ Detached c)
    (hlegal : Legal c.health purpose next) (hpending : c.health.pending = [] → next.pending = []) :
    Leads number unicode c (commitAndRebuild number unicode sha256 c purpose next).1 ∧
      (c.artifact ≠ none → Current number unicode (commitAndRebuild number unicode sha256 c purpose next).1) := by
  obtain ⟨c', error, hcommit, hcases⟩ := commit_cases number hknows hlegal
  have hboth : Chain number c c' ∧ SameRuntime c c' ∧
      (c'.artifact = none →
        (thirdPartySafeMode c' = true ∨ c'.health.pending = []) ∧ c'.probationActive = false) := by
    rcases hcases with ⟨_, hc⟩ | ⟨_, hchain, hruntime, hsafe, htimer⟩
    · refine ⟨hc.chain, hc.runtime, ?_⟩
      intro ha
      rw [hc.safeMode hlegal, hc.health, hc.timer]
      exact (hidle (hc.runtime.artifact ▸ ha)).imp (Or.imp id hpending) id
    · exact ⟨hchain, hruntime, fun _ => ⟨.inl hsafe, htimer⟩⟩
  obtain ⟨hchain, hruntime, hnone⟩ := hboth
  have hready := h.of_same (hchain.linked h.linked) hruntime
  obtain ⟨hleads, hcurrent⟩ := rebuildAuthoritativePlan_spec sha256 hplain hready hnone
  simp only [commitAndRebuild, hcommit]
  refine ⟨⟨hchain.trans hleads.chain, hleads.contained, hleads.catalog.trans hruntime.catalog,
    hleads.configuration.trans hruntime.configuration⟩, ?_⟩
  rw [← hruntime.artifact]
  exact hcurrent

variable (sha256) in
/-- A commit on its own, or the rebuild that follows its refusal. -/
theorem commitOrRebuild_spec (h : Contained number unicode c) (hknows : ¬ Detached c)
    (hlegal : Legal c.health purpose next) :
    ∃ c' error, commitOrRebuild number unicode sha256 c purpose next = (c', error) ∧
      ((error = none ∧ Committed number c next c') ∨
        ((∃ text, error = some text) ∧ Leads number unicode c c' ∧ (c.artifact ≠ none → Current number unicode c'))) := by
  obtain ⟨c', error, hcommit, hcases⟩ := commit_cases number hknows hlegal
  unfold commitOrRebuild
  rw [hcommit]
  rcases hcases with ⟨rfl, hc⟩ | ⟨⟨text, rfl⟩, hchain, hruntime, hsafe, htimer⟩
  · exact ⟨c', none, rfl, .inl ⟨rfl, hc⟩⟩
  · have hready := h.toReady.of_same (hchain.linked h.linked) hruntime
    obtain ⟨hleads, hcurrent⟩ := rebuildAuthoritativePlan_spec sha256 hplain hready
      fun _ => ⟨.inl hsafe, htimer⟩
    refine ⟨_, some text, rfl, .inr ⟨⟨text, rfl⟩, ⟨hchain.trans hleads.chain, hleads.contained,
      hleads.catalog.trans hruntime.catalog, hleads.configuration.trans hruntime.configuration⟩, ?_⟩⟩
    rw [← hruntime.artifact]
    exact hcurrent

end Commit

section Current
variable {c : Controller}

theorem currentPlan_some {revision : UInt64} {plan : SurfacePlan} (h : currentPlan c revision = some plan) :
    c.state = .authoritative ∧ ∃ a, c.artifact = some a ∧ a.revision = revision ∧ a.plan = plan := by
  unfold currentPlan at h
  split_ifs at h with hs
  obtain ⟨a, ha, rfl⟩ := Option.map_eq_some_iff.mp h
  obtain ⟨ha, hr⟩ := Option.filter_eq_some_iff.mp ha
  exact ⟨hs, a, ha, by simpa using hr, rfl⟩

theorem matchesInstance_some {instanceId componentId packageDigest : QString} {revision : UInt64}
    (h : matchesInstance c instanceId componentId packageDigest revision = true) :
    c.state = .authoritative ∧ ∃ a, c.artifact = some a ∧
      (a.plan.instances.lookup instanceId).any (runs componentId packageDigest) = true := by
  unfold matchesInstance at h
  cases hp : currentPlan c revision with
  | none => simp [hp] at h
  | some plan =>
    obtain ⟨hs, a, ha, _, rfl⟩ := currentPlan_some hp
    rw [hp, Option.any_some] at h
    exact ⟨hs, a, ha, h⟩

theorem lookup_runs {plan : SurfacePlan} {instanceId componentId packageDigest : QString} :
    (plan.instances.lookup instanceId).any (runs componentId packageDigest) = true ↔
      ∃ i, plan.instances.lookup instanceId = some i ∧ i.runtimeKind = declarativeKind ∧
        i.componentId = componentId ∧ i.packageDigest = packageDigest := by
  cases plan.instances.lookup instanceId with
  | none => simp
  | some i => simp [runs, and_assoc]

/-- Authorizing adds the declarative instances of the layout, none of them quarantined. -/
theorem authorizePending_ok {health : ComponentRuntimeHealthState} {plan : SurfacePlan} {ids : List QString}
    {pending result : QMap ComponentRuntimePendingActivation} (hp : Published number unicode plan)
    (hs : pending.Sorted) (hm : Matches pending plan)
    (hf : ∀ e ∈ pending, ThirdParty e.2.componentId e.2.packageDigest ∧
      isQuarantined health e.2.componentId e.2.packageDigest = false)
    (h : authorizePending health plan ids pending = .ok result) :
    result.Sorted ∧ Matches result plan ∧
      (∀ e ∈ result, ThirdParty e.2.componentId e.2.packageDigest ∧
        isQuarantined health e.2.componentId e.2.packageDigest = false) ∧
      (∀ e ∈ pending, ∃ f ∈ result, f.2.componentId = e.2.componentId ∧ f.2.packageDigest = e.2.packageDigest) ∧
      ∀ id ∈ ids, ∀ i, plan.instances.lookup id = some i → i.runtimeKind = declarativeKind →
        ∃ f ∈ result, f.2.componentId = i.componentId ∧ f.2.packageDigest = i.packageDigest := by
  induction ids generalizing pending with
  | nil =>
    cases h
    exact ⟨hs, hm, hf, fun e he => ⟨e, he, rfl, rfl⟩, by simp⟩
  | cons id ids ih =>
    rw [authorizePending] at h
    cases hl : plan.instances.lookup id with
    | none =>
      rw [hl] at h
      cases h
    | some i =>
      rw [hl] at h
      dsimp only at h
      split_ifs at h with hkind hq hother
      · obtain ⟨h1, h2, h3, h4, h5⟩ := ih hs hm hf h
        refine ⟨h1, h2, h3, h4, ?_⟩
        intro other ho j hj hdeclarative
        rcases List.mem_cons.mp ho with rfl | ho
        · rw [hl] at hj
          cases hj
          exact absurd hdeclarative hkind
        · exact h5 other ho j hj hdeclarative
      · have hkind : i.runtimeKind = declarativeKind := by simpa using hkind
        have hruns : (plan.instances.lookup id).any (runs i.componentId i.packageDigest) = true :=
          lookup_runs.mpr ⟨i, hl, hkind, rfl, rfl⟩
        have hnew : ∀ e ∈ QMap.insert id ⟨id, i.componentId, i.packageDigest⟩ pending,
            e = (id, ⟨id, i.componentId, i.packageDigest⟩) ∨ e ∈ pending := fun e he => QMap.mem_insert he
        have hmem : (id, (⟨id, i.componentId, i.packageDigest⟩ : ComponentRuntimePendingActivation)) ∈
            QMap.insert id ⟨id, i.componentId, i.packageDigest⟩ pending :=
          QMap.mem_of_lookup (by simp)
        obtain ⟨h1, h2, h3, h4, h5⟩ := ih (QMap.sorted_insert hs id _)
          (fun e he => by
            rcases hnew e he with rfl | he
            · exact hruns
            · exact hm e he)
          (fun e he => by
            rcases hnew e he with rfl | he
            · exact ⟨thirdParty_of_runs hp hruns, by simpa using hq⟩
            · exact hf e he) h
        refine ⟨h1, h2, h3, ?_, ?_⟩
        · intro e he
          by_cases hid : e.1 = id
          · have hsame : e.2.componentId = i.componentId ∧ e.2.packageDigest = i.packageDigest := by
              have hlookup : List.lookup id pending = some e.2 := QMap.lookup_of_mem hs (by rw [← hid]; exact he)
              simpa [hlookup] using hother
            obtain ⟨f, hf', h6, h7⟩ := h4 _ hmem
            exact ⟨f, hf', h6.trans hsame.1.symm, h7.trans hsame.2.symm⟩
          · apply h4
            apply QMap.mem_of_lookup
            rw [QMap.lookup_insert, if_neg hid]
            exact QMap.lookup_of_mem hs he
        · intro other ho j hj hdeclarative
          rcases List.mem_cons.mp ho with rfl | ho
          · rw [hl] at hj
            cases hj
            exact h4 _ hmem
          · exact h5 other ho j hj hdeclarative

end Current

section Operations
variable {c : Controller}

/-- Built-ins alone are contained wherever nothing is on probation. -/
theorem Ready.contained_builtin (h : Ready number unicode c) (hb : ∀ a ∈ c.artifact, BuiltinOnly a.plan)
    (hp : thirdPartySafeMode c = true ∨ c.health.pending = [])
    (htimer : c.probationActive = true → c.state = .authoritative ∧ c.artifact ≠ none) :
    Contained number unicode c := by
  refine { toReady := h, retained := .inr hb, safe := fun _ => hb, clean := ?_, probation := ?_, timer := htimer }
  · intro a ha e he
    exact noQuarantine_builtin h.linked.health ((h.artifact a ha).sound.instances e he).2 (hb a ha e he)
  · intro hs hn
    rcases hp with hp | hp
    · rw [hs] at hp
      cases hp
    · exact absurd hp hn

theorem not_detached_of_pending (h : c.health.pending ≠ []) : ¬ Detached c := fun hd => h hd.2.1

theorem not_detached_of_safeMode (h : thirdPartySafeMode c = false) : ¬ Detached c := by
  intro hd
  have := hd.2.2.1
  rw [h] at this
  cases this

/-- What is read from the files when the health store is first read. -/
theorem withLoaded_spec (h : Ready number unicode c) {files : HealthFiles} (hfiles : c.healthStore = some files)
    (faults : LoadFaults) :
    Ready number unicode (withLoaded c files (load number faults files)) ∧
      ((load number faults files).2.success = false →
        (withLoaded c files (load number faults files)).health = { safeMode := true }) ∧
      ((load number faults files).2.success = true →
        Attached number (withLoaded c files (load number faults files)) ∧
          Durable number files (withLoaded c files (load number faults files)).health) := by
  obtain ⟨state, purpose, hdurable, hok⟩ := h.linked.files.held files hfiles
  unfold withLoaded
  rcases hdurable.load faults with ⟨hsuccess, hstate, hafter⟩ | ⟨hfailed, hsame, hstate⟩
  · have hwritten : ∀ w ∈ (if (load number faults files).1 = files then c.written
        else c.written ++ [(.repair, (load number faults files).1)]), ∃ state, Durable number w.2 state ∧ HealthOk state := by
      intro w hw
      split_ifs at hw
      · exact h.linked.files.written w hw
      · rcases List.mem_append.mp hw with hw | hw
        · exact h.linked.files.written w hw
        · rw [List.mem_singleton.mp hw]
          exact ⟨state, hafter, hok⟩
    have hheld : ∀ files' ∈ some (load number faults files).1, ∃ state purpose, Durable number files' state ∧
        (fun _ => HealthOk) (purpose : Purpose) state := by
      rintro _ ⟨⟩
      exact ⟨state, purpose, hafter, hok⟩
    have hattached : Attached number (withLoaded c files (load number faults files)) := by
      rintro _ ⟨⟩
      simp only [withLoaded, hstate]
      exact ⟨state, hafter, rfl, rfl, rfl⟩
    refine ⟨⟨⟨?_, ⟨hwritten, hheld⟩, .inl hattached⟩, h.artifact, h.snapshots, h.sources⟩, by simp [hsuccess],
      fun _ => ⟨hattached, ?_⟩⟩
    · simp only [hstate]
      exact hok
    · simp only [hstate]
      exact hdurable
  · refine ⟨⟨⟨?_, ⟨?_, ?_⟩, .inr ?_⟩, h.artifact, h.snapshots, h.sources⟩, fun _ => hstate, by simp [hfailed]⟩
    · simp only [hstate]
      exact healthOk_empty 0 true
    · rw [if_pos hsame]
      exact h.linked.files.written
    · rintro _ ⟨⟩
      rw [hsame]
      exact ⟨state, purpose, hdurable, hok⟩
    · exact ⟨by simp [hstate], by simp [hstate], by simp [thirdPartySafeMode, hstate], by simp [hstate]⟩

/-- Raising safe mode in memory. -/
theorem Ready.refused (h : Ready number unicode c) :
    Ready number unicode { c with health := { c.health with safeMode := true } } := by
  refine ⟨⟨h.linked.health.congr rfl rfl, ⟨h.linked.files.written, h.linked.files.held⟩, ?_⟩, h.artifact, h.snapshots,
    h.sources⟩
  rcases h.linked.known with hk | hk
  · exact .inl hk
  · exact .inr ⟨hk.1, hk.2.1, by simp [thirdPartySafeMode], hk.2.2.2⟩

theorem initializeRuntimeHealth_contained (h : Contained number unicode c) (faults : LoadFaults) :
    Contained number unicode (initializeRuntimeHealth number c faults).1 := by
  unfold initializeRuntimeHealth
  cases hi : c.healthInitialized with
  | true => exact h
  | false =>
    cases hs : c.healthStore with
    | none => exact h
    | some files =>
      obtain ⟨hready, _, _⟩ := withLoaded_spec h.toReady hs faults
      have hbuiltin : ∀ a ∈ (withLoaded c files (load number faults files)).artifact, BuiltinOnly a.plan :=
        h.safe (by simp [thirdPartySafeMode, hi])
      have htimer : (withLoaded c files (load number faults files)).probationActive = true →
          (withLoaded c files (load number faults files)).state = .authoritative ∧
            (withLoaded c files (load number faults files)).artifact ≠ none := h.timer
      simp only []
      generalize withLoaded c files (load number faults files) = c' at *
      split_ifs with hsuccess hpending
      · exact hready.refused.contained_builtin hbuiltin (.inl (by simp [thirdPartySafeMode])) htimer
      · obtain ⟨c'', error, hcommit, hcases⟩ := commit_cases number (not_detached_of_pending hpending)
          (.incompleteStartup (qstr "incomplete-startup"))
        rw [hcommit]
        rcases hcases with ⟨_, hc⟩ | ⟨_, hchain, hruntime, hsafe, hstopped⟩
        · apply (hready.of_same (hc.chain.linked hready.linked) hc.runtime).contained_builtin
          · rw [hc.runtime.artifact]
            exact hbuiltin
          · exact .inr (by rw [hc.health]; rfl)
          · rw [hc.timer, hc.runtime.state, hc.runtime.artifact]
            exact htimer
        · apply (hready.of_same (hchain.linked hready.linked) hruntime).contained_builtin
          · rw [hruntime.artifact]
            exact hbuiltin
          · exact .inl hsafe
          · simp [hstopped]
      · exact hready.contained_builtin hbuiltin (.inr (by simpa using hpending)) htimer

variable (hplain : number.PlainIntegers)
include hplain

variable (sha256) in
theorem beginHydration_spec (h : Contained number unicode c) :
    Leads number unicode c (beginHydration number unicode sha256 c) ∧
      (beginHydration number unicode sha256 c).state ≠ .authoritative := by
  unfold beginHydration
  cases ha : c.artifact with
  | some a =>
    obtain ⟨⟨durable, hok⟩, hleads, hstate⟩ := publishRetained_spec sha256 hplain h.toReady ha []
    dsimp only
    unfold publishPlan
    generalize tryPublish number unicode sha256 c a.plan .retained false [] = result at *
    obtain ⟨c', result⟩ := result
    dsimp only at hok hstate
    subst hok
    exact ⟨hleads, by simp [hstate]⟩
  | none =>
    dsimp only
    have hchain : Chain number c { c with artifact := none, state := .hydrating, lastError := [] } :=
      Chain.quiet .refl ⟨rfl, rfl, rfl, rfl⟩
    refine ⟨⟨hchain, ?_, rfl, rfl⟩, by simp⟩
    apply Ready.contained (c := { c with artifact := none, state := .hydrating, lastError := [] })
      ⟨hchain.linked h.linked, by simp, h.snapshots, by simp⟩ rfl
    exact h.idle ha

variable (sha256) in
/-- Accepting textual snapshots; a reported success is authoritative. -/
theorem acceptSnapshots_spec (h : Contained number unicode c) {catalog : RuntimeCatalogSnapshot}
    {configuration : RuntimeConfigurationSnapshot} (hcatalog : catalog.Textual)
    (hconfiguration : configuration.Textual number) :
    Chain number c (acceptSnapshots number unicode sha256 c catalog configuration).1 ∧
      Contained number unicode (acceptSnapshots number unicode sha256 c catalog configuration).1 ∧
      Current number unicode (acceptSnapshots number unicode sha256 c catalog configuration).1 ∧
      ((acceptSnapshots number unicode sha256 c catalog configuration).1.state = .authoritative →
        (acceptSnapshots number unicode sha256 c catalog configuration).1.catalog = some catalog ∧
        (acceptSnapshots number unicode sha256 c catalog configuration).1.configuration = some configuration) ∧
      ((acceptSnapshots number unicode sha256 c catalog configuration).2 = true →
        (acceptSnapshots number unicode sha256 c catalog configuration).1.state = .authoritative) := by
  unfold acceptSnapshots
  simp only []
  cases hbuilt : (buildSurfacePlan number unicode catalog configuration).value with
  | none =>
    obtain ⟨hleads, hstate⟩ := setFailedState_spec sha256 hplain h.toReady
      (describeErrors (buildSurfacePlan number unicode catalog configuration).errors)
    exact ⟨hleads.chain, hleads.contained, fun hs => absurd hs hstate, fun hs => absurd hs hstate, by simp⟩
  | some plan =>
    dsimp only
    obtain ⟨hbuildable, rfl⟩ := buildSurfacePlan_iff.mp hbuilt
    have hchain : Chain number c { c with catalog := some catalog, configuration := some configuration } :=
      Chain.quiet .refl ⟨rfl, rfl, rfl, rfl⟩
    have hready : Ready number unicode { c with catalog := some catalog, configuration := some configuration } := by
      refine ⟨hchain.linked h.linked, h.artifact, ?_, by simp⟩
      rintro _ ⟨⟩ _ ⟨⟩
      exact ⟨hcatalog, hconfiguration, hbuildable⟩
    obtain ⟨hleads, hcurrent, htrue⟩ := publishPlan_spec sha256 hplain hready rfl rfl []
    exact ⟨hchain.trans hleads.chain, hleads.contained, hcurrent, fun _ => ⟨hleads.catalog, hleads.configuration⟩, htrue⟩

/-- Operations of the shell and of the user that concern a published plan. -/
structure Steps (number : NumberText) (unicode : UnicodeTables) (c c' : Controller) : Prop extends
    Leads number unicode c c' where
  current : c.artifact ≠ none → Current number unicode c → Current number unicode c'

omit hplain in
theorem Steps.refl (h : Contained number unicode c) : Steps number unicode c c :=
  ⟨⟨.refl, h, rfl, rfl⟩, fun _ h => h⟩

omit hplain in
/-- A commit or a timer change that leaves what is shown. -/
theorem current_of_same (c' : Controller) (hruntime : SameRuntime c c') (hr : c'.health.records = c.health.records)
    (hs : thirdPartySafeMode c' = thirdPartySafeMode c) (h : Current number unicode c) : Current number unicode c' := by
  intro hstate
  obtain ⟨catalog, configuration, a, h1, h2, h3, h4⟩ := h (hruntime.state ▸ hstate)
  exact ⟨catalog, configuration, a, hruntime.catalog.trans h1, hruntime.configuration.trans h2,
    hruntime.artifact.trans h3, h4.trans (shown_congr hr hs true _).symm⟩

theorem authorizeSurfacePlan_spec (h : Contained number unicode c) (revision : UInt64) :
    Steps number unicode c (authorizeSurfacePlan number unicode sha256 c revision).1 := by
  unfold authorizeSurfacePlan
  split_ifs with hsafe
  · exact .refl h
  · have hsafe : thirdPartySafeMode c = false := by simpa using hsafe
    cases hp : currentPlan c revision with
    | none =>
      dsimp only
      exact .refl h
    | some plan =>
      obtain ⟨hstate, a, ha, _, rfl⟩ := currentPlan_some hp
      have hmatches : Matches c.health.pending a.plan := by
        by_cases hn : c.health.pending = []
        · simp [Matches, hn]
        · obtain ⟨_, _, b, hb, hm⟩ := h.probation hsafe hn
          rw [ha] at hb
          cases hb
          exact hm
      dsimp only
      cases hauthorize : authorizePending c.health a.plan (mainLayoutIds a.plan) c.health.pending with
      | error error =>
        dsimp only
        exact .refl h
      | ok pending =>
        obtain ⟨hsorted, hmatches', hfresh, hmore, _⟩ := authorizePending_ok (h.artifact a ha)
          h.linked.health.pending_sorted hmatches
          (fun e he => ⟨h.linked.health.pending e he, h.linked.health.disjoint e he⟩) hauthorize
        dsimp only
        split_ifs with hsame
        · refine ⟨h.withTimer ?_ fun _ => ⟨hstate, by simp [ha]⟩,
            fun _ hc => current_of_same (c := c) _ ⟨rfl, rfl, rfl, rfl, rfl⟩ rfl rfl hc⟩
          intro _ hn
          simp [hn]
        · obtain ⟨c', error, hcommit, hcases⟩ := commitOrRebuild_spec sha256 hplain h
            (not_detached_of_safeMode hsafe) (.authorization hsorted hmore hfresh)
          rw [hcommit]
          rcases hcases with ⟨rfl, hc⟩ | ⟨⟨text, rfl⟩, hleads, hcurrent⟩ <;> dsimp only
          · have hlegal : Legal c.health .authorization { c.health with pending } := .authorization hsorted hmore hfresh
            refine ⟨hc.contained h hlegal rfl (fun _ _ => ⟨hstate, rfl, a, ha, hmatches'⟩) fun _ => ⟨hstate, by simp [ha]⟩,
              fun _ hcur => ?_⟩
            exact current_of_same (c := c) { c' with probationActive := true } ⟨hc.runtime.state, hc.runtime.artifact,
              hc.runtime.catalog, hc.runtime.configuration, hc.runtime.healthInitialized⟩ (by simp [hc.health, numbered])
              (hc.safeMode hlegal) hcur
          · exact ⟨hleads, fun hn _ => hcurrent hn⟩

theorem cancelSurfacePlanAuthorization_spec (h : Contained number unicode c) (revision : UInt64) :
    Steps number unicode c (cancelSurfacePlanAuthorization number unicode sha256 c revision).1 := by
  unfold cancelSurfacePlanAuthorization
  split_ifs with hplan hpending
  · exact .refl h
  · exact .refl h
  · obtain ⟨c', error, hcommit, hcases⟩ := commitOrRebuild_spec sha256 hplain h
      (not_detached_of_pending hpending) .cancellation
    rw [hcommit]
    rcases hcases with ⟨rfl, hc⟩ | ⟨⟨text, rfl⟩, hleads, hcurrent⟩ <;> dsimp only
    · refine ⟨hc.contained h .cancellation rfl (fun _ hn => absurd rfl hn) (by simp), fun _ hcur => ?_⟩
      exact current_of_same (c := c) { c' with probationActive := false } ⟨hc.runtime.state, hc.runtime.artifact,
        hc.runtime.catalog, hc.runtime.configuration, hc.runtime.healthInitialized⟩ (by simp [hc.health, numbered])
        (hc.safeMode .cancellation) hcur
    · exact ⟨hleads, fun hn _ => hcurrent hn⟩

theorem activationStable_spec (h : Contained number unicode c) (instanceId componentId packageDigest : QString)
    (revision : UInt64) :
    Steps number unicode c
      (activationStable number unicode sha256 c instanceId componentId packageDigest revision).1 := by
  unfold activationStable
  split_ifs with hmatch
  · exact .refl h
  · cases hp : c.health.pending.lookup instanceId with
    | none =>
      dsimp only
      exact .refl h
    | some pending =>
      dsimp only
      split_ifs with htuple
      · exact .refl h
      · push Not at htuple
        have hm := QMap.mem_of_lookup hp
        have hlegal : Legal c.health (.stability componentId packageDigest)
            { c.health with pending := QMap.remove instanceId c.health.pending } := by
          apply Legal.stability
          rintro ⟨k, a⟩ he rfl
          rw [QMap.lookup_of_mem h.linked.health.pending_sorted he] at hp
          cases hp
          exact htuple
        obtain ⟨c', error, hcommit, hcases⟩ := commitOrRebuild_spec sha256 hplain h
          (not_detached_of_pending (List.ne_nil_of_mem hm)) hlegal
        rw [hcommit]
        rcases hcases with ⟨rfl, hc⟩ | ⟨⟨text, rfl⟩, hleads, hcurrent⟩ <;> dsimp only
        · refine ⟨hc.contained h hlegal rfl (fun hs hn => ?_) fun hactive => ?_, fun _ hcur => ?_⟩
          · obtain ⟨hstate, hactive, a, ha, hmatches⟩ := h.probation hs (List.ne_nil_of_mem hm)
            refine ⟨hstate, ?_, a, ha, fun e he => hmatches e (List.mem_filter.mp he).1⟩
            rw [hc.timer, hactive, hc.health, Bool.true_and]
            exact decide_eq_true hn
          · rw [hc.timer] at hactive
            exact h.timer (Bool.and_eq_true_iff.mp hactive).1
          · exact current_of_same (c := c) { c' with probationActive := _ } ⟨hc.runtime.state, hc.runtime.artifact,
              hc.runtime.catalog, hc.runtime.configuration, hc.runtime.healthInitialized⟩ (by simp [hc.health, numbered])
              (hc.safeMode hlegal) hcur
        · exact ⟨hleads, fun hn _ => hcurrent hn⟩

theorem activationFailed_spec (h : Contained number unicode c) (instanceId componentId packageDigest : QString)
    (revision : UInt64) (reason : QString) :
    Steps number unicode c
      (activationFailed number unicode sha256 c instanceId componentId packageDigest revision reason).1 := by
  unfold activationFailed
  split_ifs with hreason hmatch
  · exact .refl h
  · exact .refl h
  · obtain ⟨_, a, ha, hruns⟩ := matchesInstance_some (by simpa using hmatch)
    have hpackage := thirdParty_of_runs (h.artifact a ha) hruns
    -- a declarative instance is published outside safe mode only
    have hsafe : thirdPartySafeMode c = false := by
      by_contra hs
      obtain ⟨i, hl, hk, _⟩ := lookup_runs.mp hruns
      have hbuiltin := h.safe (Bool.eq_true_of_not_eq_false hs) a ha _ (QMap.mem_of_lookup hl)
      exact builtinKind_ne_declarativeKind (hbuiltin.symm.trans hk)
    obtain ⟨hleads, hcurrent⟩ := commitAndRebuild_spec sha256 hplain h.toReady h.idle (not_detached_of_safeMode hsafe)
      (.failure hpackage reason) fun hn => by simp [hn]
    exact ⟨hleads, fun hn _ => hcurrent hn⟩

/-- A retry that is let through rebuilds from the cached snapshots. -/
theorem retryComponent_spec (h : Contained number unicode c) (componentId packageDigest : QString)
    (revision : UInt64) :
    Steps number unicode c (retryComponent number unicode sha256 c componentId packageDigest revision).1 := by
  unfold retryComponent
  split_ifs with hrevision hquarantined
  · exact .refl h
  · exact .refl h
  · have hknows : ¬ Detached c := by
      intro hd
      apply hquarantined
      simp [isQuarantined, hd.1]
    obtain ⟨hleads, hcurrent⟩ := commitAndRebuild_spec sha256 hplain h.toReady h.idle hknows
      (.retry componentId packageDigest) fun hn => hn
    exact ⟨hleads, fun hn _ => hcurrent hn⟩

theorem probationTimeout_spec (h : Contained number unicode c) :
    Steps number unicode c (probationTimeout number unicode sha256 c) := by
  unfold probationTimeout
  split_ifs with hactive
  · unfold quarantinePending
    split_ifs with hpending
    · exact ⟨h.withTimer (fun _ hn => absurd hpending hn) (by simp),
        fun _ hc => current_of_same (c := c) _ ⟨rfl, rfl, rfl, rfl, rfl⟩ rfl rfl hc⟩
    · have hchain : Chain number c { c with probationActive := false } := Chain.quiet .refl ⟨rfl, rfl, rfl, rfl⟩
      have hready : Ready number unicode { c with probationActive := false } :=
        ⟨hchain.linked h.linked, h.artifact, h.snapshots, h.sources⟩
      obtain ⟨hleads, hcurrent⟩ := commitAndRebuild_spec sha256 hplain hready
        (fun ha => ⟨(h.idle ha).1, rfl⟩)
        (not_detached_of_pending hpending) (.timeout (qstr "timeout")) fun _ => rfl
      exact ⟨⟨hchain.trans hleads.chain, hleads.contained, hleads.catalog, hleads.configuration⟩,
        fun hn _ => hcurrent hn⟩
  · exact .refl h

end Operations
end HyprShelld.PlanController
