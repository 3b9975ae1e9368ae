import HyprShelld.Coordinator.HealthFacts

/-! What one commit of the controller does to its state and to the files. -/
namespace HyprShelld.PlanController
open Components HealthStore

variable {number : NumberText}

/-- What no commit touches. -/
structure SameRuntime (c c' : Controller) : Prop where
  state : c'.state = c.state
  artifact : c'.artifact = c.artifact
  catalog : c'.catalog = c.catalog
  configuration : c'.configuration = c.configuration
  healthInitialized : c'.healthInitialized = c.healthInitialized

theorem SameRuntime.refl (c : Controller) : SameRuntime c c := ⟨rfl, rfl, rfl, rfl, rfl⟩

/-- The files hold what the controller remembers, safe mode apart, which is raised in memory only. -/
def Attached (number : NumberText) (c : Controller) : Prop :=
  ∀ files ∈ c.healthStore, ∃ state, Durable number files state ∧ state.revision = c.health.revision ∧
    state.records = c.health.records ∧ state.pending = c.health.pending

/-- A controller that knows nothing of its files: it has not read them, or could not. -/
def Detached (c : Controller) : Prop :=
  c.health.records = [] ∧ c.health.pending = [] ∧ thirdPartySafeMode c = true ∧ c.health.revision = 0

/-- Whatever the files hold, and held after each write of this operation, is good. -/
structure FilesGood (number : NumberText) (good : Purpose → ComponentRuntimeHealthState → Prop)
    (c : Controller) : Prop where
  written : ∀ w ∈ c.written, ∃ state, Durable number w.2 state ∧ good w.1 state
  held : ∀ files ∈ c.healthStore, ∃ state purpose, Durable number files state ∧ good purpose state

section Commit
variable {c : Controller} {purpose : Purpose} {next : ComponentRuntimeHealthState}

/-- The state a commit makes of the next one. -/
def numbered (c : Controller) (next : ComponentRuntimeHealthState) : ComponentRuntimeHealthState :=
  { next with revision := c.health.revision + 1 }

variable (next) in
theorem later_numbered (h : c.health.revision ≠ maximumRevision) : c.health.revision < (numbered c next).revision := by
  have hne : c.health.revision.toNat ≠ 2 ^ 64 - 1 := by
    intro he
    apply h
    rw [← UInt64.toNat_inj, he]
    rfl
  have hlt := c.health.revision.toNat_lt
  rw [UInt64.lt_iff_toNat_lt]
  show c.health.revision.toNat < (c.health.revision + 1).toNat
  rw [UInt64.toNat_add]
  simp only [UInt64.toNat_one]
  omega

variable (number) in
/-- A commit is made, or refused with third parties off; nothing else of the runtime changes. -/
theorem commitHealth_cases (c : Controller) (purpose : Purpose) (next : ComponentRuntimeHealthState) :
    SameRuntime c (commitHealth number c purpose next).1 ∧
    (((commitHealth number c purpose next).2 = none ∧
        (commitHealth number c purpose next).1.health = numbered c next ∧
        (commitHealth number c purpose next).1.probationActive = c.probationActive) ∨
      ((∃ error, (commitHealth number c purpose next).2 = some error) ∧
        (commitHealth number c purpose next).1.health = { c.health with safeMode := true } ∧
        (commitHealth number c purpose next).1.probationActive = false)) := by
  have hpersist : SameRuntime c (persistHealth number c purpose (numbered c next)).1 ∧
      (persistHealth number c purpose (numbered c next)).1.health = c.health ∧
      (persistHealth number c purpose (numbered c next)).1.probationActive = c.probationActive := by
    unfold persistHealth
    cases c.healthStore with
    | none => exact ⟨SameRuntime.refl c, rfl, rfl⟩
    | some files => exact ⟨⟨rfl, rfl, rfl, rfl, rfl⟩, rfl, rfl⟩
  obtain ⟨hsame, hhealth, htimer⟩ := hpersist
  unfold numbered at hsame hhealth htimer ⊢
  unfold commitHealth
  split_ifs with hbounds
  · exact ⟨⟨rfl, rfl, rfl, rfl, rfl⟩, .inr ⟨⟨_, rfl⟩, rfl, rfl⟩⟩
  · simp only []
    split_ifs with hdurable
    · exact ⟨⟨hsame.state, hsame.artifact, hsame.catalog, hsame.configuration, hsame.healthInitialized⟩,
        .inl ⟨rfl, rfl, htimer⟩⟩
    · refine ⟨⟨hsame.state, hsame.artifact, hsame.catalog, hsame.configuration, hsame.healthInitialized⟩,
        .inr ⟨⟨_, rfl⟩, ?_, rfl⟩⟩
      simp only [refuseHealth, hhealth]

variable (number) in
theorem persistHealth_cases (c : Controller) (purpose : Purpose) (next : ComponentRuntimeHealthState) :
    ((persistHealth number c purpose next).2.durable = false ∧
        (persistHealth number c purpose next).1.healthStore = c.healthStore ∧
        (persistHealth number c purpose next).1.written = c.written) ∨
      ((persistHealth number c purpose next).2.durable = true ∧
        (c.healthStore = none ∧ (persistHealth number c purpose next).1 = c ∨
          ∃ files written, c.healthStore = some files ∧ written ≠ [] ∧
            (∃ faults, written = (persist number faults files next).1) ∧
            (persistHealth number c purpose next).1.healthStore = some (written.getLastD files) ∧
            (persistHealth number c purpose next).1.written = c.written ++ written.map (purpose, ·))) := by
  unfold persistHealth
  cases hs : c.healthStore with
  | none => exact .inr ⟨rfl, .inl ⟨rfl, rfl⟩⟩
  | some files =>
    have hcases := persist_cases number (c.faults.headD {}) files next
    have hwritten : ∃ faults, (persist number (c.faults.headD {}) files next).1 = (persist number faults files next).1 :=
      ⟨_, rfl⟩
    simp only []
    generalize persist number (c.faults.headD {}) files next = persisted at hcases hwritten ⊢
    obtain ⟨written, result⟩ := persisted
    rcases hcases with ⟨hw, hd⟩ | ⟨hd, _, hw⟩
    · cases hw
      exact .inl ⟨hd, rfl, List.append_nil _⟩
    · refine .inr ⟨hd, .inr ⟨files, written, rfl, ?_, hwritten, rfl, rfl⟩⟩
      rcases hw with rfl | rfl <;> simp

variable {good : Purpose → ComponentRuntimeHealthState → Prop}

variable (purpose next) in
/-- A commit of something good leaves good files, which still hold what the controller remembers. -/
theorem commitHealth_files (hattached : Attached number c) (hfiles : FilesGood number good c)
    (hgood : good purpose (numbered c next)) :
    Attached number (commitHealth number c purpose next).1 ∧ FilesGood number good (commitHealth number c purpose next).1 := by
  unfold numbered at hgood
  unfold commitHealth
  split_ifs with hbounds
  · exact ⟨hattached, hfiles.written, hfiles.held⟩
  · have hlater := later_numbered next fun h => hbounds (.inl h)
    unfold numbered at hlater
    simp only []
    generalize hn : ({ next with revision := c.health.revision + 1 } : ComponentRuntimeHealthState) = numbered at *
    rcases persistHealth_cases number c purpose numbered with ⟨hd, hs, hw⟩ | ⟨hd, hnone | hsome⟩
    · rw [if_neg (by simp [hd])]
      have hhealth : (persistHealth number c purpose numbered).1.health = c.health := by
        unfold persistHealth
        cases c.healthStore <;> rfl
      refine ⟨?_, ⟨?_, ?_⟩⟩
      · intro files hf
        simp only [refuseHealth, hs] at hf
        simp only [refuseHealth, hhealth]
        exact hattached files hf
      · simpa only [refuseHealth, hw] using hfiles.written
      · simpa only [refuseHealth, hs] using hfiles.held
    · obtain ⟨hs, hc⟩ := hnone
      rw [if_pos hd, hc]
      exact ⟨by simp [Attached, hs], hfiles.written, by simp [hs]⟩
    · obtain ⟨files, written, hs, hne, ⟨faults, hpersist⟩, hs', hw⟩ := hsome
      obtain ⟨state, hstate, hrevision, _⟩ := hattached files hs
      have hdurable : ∀ files' ∈ written, Durable number files' numbered := by
        rw [hpersist]
        exact hstate.persist faults (by rw [hrevision]; exact hlater)
      have hlast : Durable number (written.getLastD files) numbered := by
        apply hdurable
        rw [List.getLastD_eq_getLast?, List.getLast?_eq_some_getLast hne]
        exact List.getLast_mem hne
      rw [if_pos hd]
      refine ⟨?_, ⟨?_, ?_⟩⟩
      · intro files' hf
        simp only [hs', Option.mem_def, Option.some.injEq] at hf
        subst hf
        exact ⟨numbered, hlast, rfl, rfl, rfl⟩
      · intro w hmem
        simp only [hw, List.mem_append, List.mem_map] at hmem
        rcases hmem with hmem | ⟨files', hf, rfl⟩
        · exact hfiles.written w hmem
        · exact ⟨numbered, hdurable files' hf, hgood⟩
      · intro files' hf
        simp only [hs', Option.mem_def, Option.some.injEq] at hf
        subst hf
        exact ⟨numbered, purpose, hlast, hgood⟩

end Commit
end HyprShelld.PlanController
