import HyprShelld.Coordinator.Packages

/-! An operation changes the health by legal commits only, so what legal commits preserve holds of
the memory and of the files alike. -/
namespace HyprShelld.PlanController
open Components HealthStore

variable {number : NumberText}

/-- The changes of health that are ever committed. -/
inductive Legal (health : ComponentRuntimeHealthState) : Purpose → ComponentRuntimeHealthState → Prop where
  | incompleteStartup (reason : QString) : Legal health .incompleteStartup (quarantineAll health reason)
  | planChange {pending : QMap ComponentRuntimePendingActivation} (sorted : pending.Sorted)
      (fewer : ∀ e ∈ pending, e ∈ health.pending) : Legal health .planChange { health with pending }
  | authorization {pending : QMap ComponentRuntimePendingActivation} (sorted : pending.Sorted)
      (more : ∀ e ∈ health.pending, ∃ f ∈ pending,
        f.2.componentId = e.2.componentId ∧ f.2.packageDigest = e.2.packageDigest)
      (fresh : ∀ e ∈ pending, ThirdParty e.2.componentId e.2.packageDigest ∧
        isQuarantined health e.2.componentId e.2.packageDigest = false) :
      Legal health .authorization { health with pending }
  | cancellation : Legal health .cancellation { health with pending := [] }
  | stability {instanceId componentId packageDigest : QString}
      (runs : ∀ e ∈ health.pending, e.1 = instanceId →
        e.2.componentId = componentId ∧ e.2.packageDigest = packageDigest) :
      Legal health (.stability componentId packageDigest)
        { health with pending := QMap.remove instanceId health.pending }
  | failure {componentId packageDigest : QString} (package : ThirdParty componentId packageDigest) (reason : QString) :
      Legal health .failure { health with
        records := quarantineRecord health.records componentId packageDigest reason
        pending := health.pending.filter fun e =>
          !(e.2.componentId = componentId && e.2.packageDigest = packageDigest) }
  | timeout (reason : QString) : Legal health .failure (quarantineAll health reason)
  | retry (componentId packageDigest : QString) : Legal health (.retry componentId packageDigest)
      { health with records := QMap.remove (recordKey componentId packageDigest) health.records }

section Legal
variable {health next : ComponentRuntimeHealthState} {purpose : Purpose}

theorem Legal.healthOk (h : Legal health purpose next) (hok : HealthOk health) : HealthOk next := by
  cases h with
  | incompleteStartup reason => exact hok.quarantineAll reason
  | planChange sorted fewer => exact hok.filterPending sorted fewer
  | authorization sorted more fresh =>
    exact ⟨hok.records_sorted, sorted, hok.keyed, fun e he => (fresh e he).1, fun e he => (fresh e he).2⟩
  | cancellation => exact hok.filterPending QMap.sorted_nil (by simp)
  | stability runs =>
    exact hok.filterPending (QMap.sorted_remove hok.pending_sorted _) fun e he => (List.mem_filter.mp he).1
  | failure package reason => exact hok.quarantine package reason
  | timeout reason => exact hok.quarantineAll reason
  | retry componentId packageDigest => exact hok.retry _

/-- A package the state still speaks of: on probation or quarantined. -/
def Accounted (componentId packageDigest : QString) (health : ComponentRuntimeHealthState) : Prop :=
  isQuarantined health componentId packageDigest = true ∨
    ∃ e ∈ health.pending, e.2.componentId = componentId ∧ e.2.packageDigest = packageDigest

/-- The writes after which a package may be forgotten. -/
def Purpose.Releases (componentId packageDigest : QString) : Purpose → Prop
  | .planChange | .cancellation => True
  | .stability id digest => id = componentId ∧ digest = packageDigest
  | .retry id digest => recordKey id digest = recordKey componentId packageDigest
  | .repair | .incompleteStartup | .authorization | .failure => False

theorem Legal.accounted {componentId packageDigest : QString} (h : Legal health purpose next)
    (ha : Accounted componentId packageDigest health) (hr : ¬ purpose.Releases componentId packageDigest) :
    Accounted componentId packageDigest next := by
  cases h with
  | incompleteStartup reason => exact .inl (isQuarantined_quarantineAll ha)
  | planChange sorted fewer => exact absurd trivial hr
  | authorization sorted more fresh =>
    rcases ha with ha | ⟨e, he, hid, hdigest⟩
    · exact .inl ha
    · obtain ⟨f, hf, h1, h2⟩ := more e he
      exact .inr ⟨f, hf, h1.trans hid, h2.trans hdigest⟩
  | cancellation => exact absurd trivial hr
  | @stability instanceId id digest runs =>
    rcases ha with ha | ⟨e, he, hid, hdigest⟩
    · exact .inl ha
    · refine .inr ⟨e, List.mem_filter.mpr ⟨he, ?_⟩, hid, hdigest⟩
      apply decide_eq_true
      intro hk
      obtain ⟨h1, h2⟩ := runs e he hk
      exact hr ⟨h1.symm.trans hid, h2.symm.trans hdigest⟩
  | @failure id digest package reason =>
    have hrecord := isQuarantined_quarantineRecord health id digest reason componentId packageDigest
    rcases ha with ha | ⟨e, he, hid, hdigest⟩
    · left
      unfold isQuarantined at ha hrecord ⊢
      simp only [hrecord, ha, Bool.or_true]
    · by_cases hsame : e.2.componentId = id ∧ e.2.packageDigest = digest
      · left
        have hkey : recordKey componentId packageDigest = recordKey id digest := by
          rw [← hid, ← hdigest, hsame.1, hsame.2]
        rw [decide_eq_true hkey, Bool.true_or] at hrecord
        exact hrecord
      · refine .inr ⟨e, List.mem_filter.mpr ⟨he, ?_⟩, hid, hdigest⟩
        simpa [Classical.or_iff_not_imp_left] using hsame
  | timeout reason => exact .inl (isQuarantined_quarantineAll ha)
  | retry id digest =>
    rcases ha with ha | ha
    · left
      unfold isQuarantined at ha ⊢
      rw [QMap.lookup_remove, if_neg fun h => hr h.symm]
      exact ha
    · exact .inr ha

/-- No commit lifts safe mode. -/
theorem Legal.safeMode (h : Legal health purpose next) : next.safeMode = health.safeMode := by
  cases h <;> rfl

end Legal

/-- The health and the files of two controllers are the same. -/
structure SameHealth (c c' : Controller) : Prop where
  health : c'.health = c.health
  healthStore : c'.healthStore = c.healthStore
  written : c'.written = c.written
  healthInitialized : c'.healthInitialized = c.healthInitialized

/-- Legal commits, and in between changes that concern neither the health nor the files. -/
inductive Chain (number : NumberText) (c : Controller) : Controller → Prop where
  | refl : Chain number c c
  | quiet {c' c'' : Controller} (before : Chain number c c') (same : SameHealth c' c'') : Chain number c c''
  | commit {c' : Controller} {purpose : Purpose} {next : ComponentRuntimeHealthState} (before : Chain number c c')
      (knows : ¬ Detached c') (legal : Legal c'.health purpose next) :
      Chain number c (commitHealth number c' purpose next).1

theorem Chain.trans {a b c : Controller} (hab : Chain number a b) (hbc : Chain number b c) : Chain number a c := by
  induction hbc with
  | refl => exact hab
  | quiet _ same ih => exact ih.quiet same
  | commit _ knows legal ih => exact ih.commit knows legal

/-- The files know what the memory knows, or the memory knows nothing. -/
structure Linked (number : NumberText) (c : Controller) : Prop where
  health : HealthOk c.health
  files : FilesGood number (fun _ => HealthOk) c
  known : Attached number c ∨ Detached c

theorem SameHealth.linked {c c' : Controller} (h : SameHealth c c') (hl : Linked number c) : Linked number c' := by
  refine ⟨h.health ▸ hl.health, ⟨?_, ?_⟩, ?_⟩
  · rw [h.written]
    exact hl.files.written
  · rw [h.healthStore]
    exact hl.files.held
  · unfold Attached Detached thirdPartySafeMode
    rw [h.health, h.healthStore, h.healthInitialized]
    exact hl.known

theorem healthOk_numbered {c : Controller} {next : ComponentRuntimeHealthState} (h : HealthOk next) :
    HealthOk (numbered c next) := h.congr rfl rfl

theorem Chain.linked {c c' : Controller} (h : Chain number c c') (hl : Linked number c) : Linked number c' := by
  induction h with
  | refl => exact hl
  | quiet _ same ih => exact same.linked ih
  | @commit c' purpose next _ knows legal ih =>
    have hnext := legal.healthOk ih.health
    have hfiles := commitHealth_files purpose next (ih.known.resolve_right knows) ih.files
      (healthOk_numbered hnext)
    refine ⟨?_, hfiles.2, .inl hfiles.1⟩
    obtain ⟨_, hcases⟩ := commitHealth_cases number c' purpose next
    rcases hcases with ⟨_, hhealth, _⟩ | ⟨_, hhealth, _⟩
    · rw [hhealth]
      exact healthOk_numbered hnext
    · rw [hhealth]
      exact ih.health.congr rfl rfl

end HyprShelld.PlanController
