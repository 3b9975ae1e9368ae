import HyprShelld.Component.DormantState
import Mathlib.Logic.Relation

/-! Runs of the service in one process, whatever its files answer. -/
namespace HyprShelld.Configuration
open Components Program

theorem mapM_forall₂ {α β : Type} {f : α → Option β} {l : List α} {out : List β} (h : l.mapM f = some out) :
    List.Forall₂ (fun a b => f a = some b) l out := by
  induction l generalizing out with
  | nil =>
    rw [List.mapM_nil] at h
    obtain rfl := Option.some_inj.mp h
    exact .nil
  | cons a l ih =>
    rw [List.mapM_cons] at h
    obtain ⟨b, hb, h⟩ := Option.bind_eq_some_iff.mp h
    obtain ⟨rest, hrest, h⟩ := Option.bind_eq_some_iff.mp h
    obtain rfl := Option.some_inj.mp h
    exact .cons hb (ih hrest)

section Steps
variable {number : NumberText} {unicode : UnicodeTables} {paths : ComponentPaths} {catalog : ConfigurationCatalog}
  {current next : ComponentConfiguration} {service after : ComponentConfigService} {expectedRevision : UInt64}
  {expectedCatalogDigest : QString} {candidateSnapshot : QByteArray} {error : Option ServiceError}

/-- The configuration of the workspace switcher's new package: no other record and no layout changes. -/
structure Migrated (number : NumberText) (unicode : UnicodeTables) (catalog : ConfigurationCatalog)
    (current next : ComponentConfiguration) : Prop where
  revision : next.revision = current.revision + 1 ∧ current.revision.toNat ≠ maximumUnsigned64
  reads : (parseComponentConfiguration number unicode catalog (serializeComponentConfiguration number next)).value = some next
  bars : next.bars = current.bars
  components : ∃ desired, next.components = QMap.insert workspaceSwitcherId desired current.components
  instances : List.Forall₂ (fun before placed => migrateInstance workspaceSwitcherId before = some placed) current.instances next.instances

theorem migrationCandidate_migrated (h : migrationCandidate number unicode current catalog = some next) :
    Migrated number unicode catalog current next := by
  unfold migrationCandidate at h
  split at h
  · split_ifs at h with hother
    · simp only [Bool.or_eq_true, decide_eq_true_eq, not_or] at hother
      obtain ⟨instances, hinstances, h⟩ := Option.bind_eq_some_iff.mp h
      dsimp only at h
      split_ifs at h with hreads
      obtain rfl := Option.some_inj.mp h
      exact ⟨⟨rfl, hother.2⟩, hreads, rfl, ⟨_, rfl⟩, mapM_forall₂ hinstances⟩
  · cases h

theorem returns_migrate {result : ComponentMigrationResult} (h : Returns (ComponentStore.migrate number unicode catalog current) result) :
    result.state = current ∨ migrationCandidate number unicode current catalog = some result.state := by
  unfold ComponentStore.migrate at h
  cases hcandidate : migrationCandidate number unicode current catalog with
  | none =>
    rw [hcandidate] at h
    exact .inl (returns_done.mp h ▸ rfl)
  | some next =>
    rw [hcandidate] at h
    obtain ⟨written, -, h⟩ := returns_bind.mp h
    cases written with
    | some error => exact .inl (returns_done.mp h ▸ rfl)
    | none =>
      obtain ⟨active, -, h⟩ := returns_bind.mp h
      cases active <;> exact .inr (by rw [← returns_done.mp h])

theorem returns_persist {current next : ComponentConfiguration} : Returns (ComponentStore.persist current next) none := by
  refine returns_bind.mpr ⟨none, returns_ask, returns_bind.mpr ⟨none, returns_ask, ?_⟩⟩
  exact returns_bind.mpr ⟨none, returns_ask, .done _⟩

/-- What becomes of a candidate that the checks let through. -/
inductive Replaces (service : ComponentConfigService) (candidate : ComponentConfiguration) :
    ComponentConfigService → Option ServiceError → Prop
  | unchanged : candidate = service.state → Replaces service candidate service none
  | exhausted : candidate ≠ service.state → service.state.revision.toNat = maximumUnsigned64 →
    Replaces service candidate service (some (serviceError "RevisionExhausted" "The component configuration revision is exhausted"))
  | unwritten {text : QString} : candidate ≠ service.state → service.state.revision.toNat ≠ maximumUnsigned64 →
    Returns (ComponentStore.persist service.state { candidate with revision := service.state.revision + 1 }) (some text) →
    Replaces service candidate service (some ⟨errorPrefix ++ qstr "PersistenceFailed", text⟩)
  | installed : candidate ≠ service.state → service.state.revision.toNat ≠ maximumUnsigned64 →
    Replaces service candidate { service with state := { candidate with revision := service.state.revision + 1 } } none

theorem returns_checked {candidate : ComponentConfiguration}
    (hcheck : service.checkCandidate number unicode expectedRevision expectedCatalogDigest candidateSnapshot = .ok candidate) :
    Returns (service.ReplaceSnapshot number unicode expectedRevision expectedCatalogDigest candidateSnapshot) (after, error) ↔
      Replaces service candidate after error := by
  unfold ComponentConfigService.ReplaceSnapshot
  rw [hcheck]
  dsimp only
  constructor
  · intro h
    split_ifs at h with hsame hexhausted
    · obtain ⟨rfl, rfl⟩ := Prod.mk.inj (returns_done.mp h)
      exact .unchanged hsame
    · obtain ⟨rfl, rfl⟩ := Prod.mk.inj (returns_done.mp h)
      exact .exhausted hsame hexhausted
    · obtain ⟨persisted, hpersisted, h⟩ := returns_bind.mp h
      cases persisted with
      | some text =>
        obtain ⟨rfl, rfl⟩ := Prod.mk.inj (returns_done.mp h)
        exact .unwritten hsame hexhausted hpersisted
      | none =>
        obtain ⟨rfl, rfl⟩ := Prod.mk.inj (returns_done.mp h)
        exact .installed hsame hexhausted
  · intro h
    cases h with
    | unchanged hsame =>
      rw [if_pos hsame]
      exact .done _
    | exhausted hsame hexhausted =>
      rw [if_neg hsame, if_pos hexhausted]
      exact .done _
    | unwritten hsame hexhausted hpersisted =>
      rw [if_neg hsame, if_neg hexhausted]
      exact returns_bind.mpr ⟨_, hpersisted, .done _⟩
    | installed hsame hexhausted =>
      rw [if_neg hsame, if_neg hexhausted]
      exact returns_bind.mpr ⟨none, returns_persist, .done _⟩

/-- A call that the checks refuse changes nothing. -/
theorem returns_refused {refused : ServiceError}
    (hcheck : service.checkCandidate number unicode expectedRevision expectedCatalogDigest candidateSnapshot = .error refused) :
    Returns (service.ReplaceSnapshot number unicode expectedRevision expectedCatalogDigest candidateSnapshot) (after, error) ↔
      after = service ∧ error = some refused := by
  unfold ComponentConfigService.ReplaceSnapshot
  rw [hcheck]
  constructor
  · intro h
    obtain ⟨rfl, rfl⟩ := Prod.mk.inj (returns_done.mp h)
    exact ⟨rfl, rfl⟩
  · rintro ⟨rfl, rfl⟩
    exact .done _

/-- A replacement leaves the service alone or puts an accepted candidate in the place of its state. -/
theorem returns_replace
    (h : Returns (service.ReplaceSnapshot number unicode expectedRevision expectedCatalogDigest candidateSnapshot) (after, error)) :
    after = service ∧ (error = none →
      service.checkCandidate number unicode expectedRevision expectedCatalogDigest candidateSnapshot = .ok service.state) ∨
    ∃ candidate, service.checkCandidate number unicode expectedRevision expectedCatalogDigest candidateSnapshot = .ok candidate ∧
      service.state.revision.toNat ≠ maximumUnsigned64 ∧
      after = { service with state := { candidate with revision := service.state.revision + 1 } } := by
  cases hcheck : service.checkCandidate number unicode expectedRevision expectedCatalogDigest candidateSnapshot with
  | error refused =>
    obtain ⟨rfl, rfl⟩ := (returns_refused hcheck).mp h
    exact .inl ⟨rfl, by simp⟩
  | ok candidate =>
    cases (returns_checked hcheck).mp h with
    | unchanged hsame => exact .inl ⟨rfl, fun _ => hsame ▸ rfl⟩
    | exhausted _ _ => exact .inl ⟨rfl, by simp⟩
    | unwritten _ _ _ => exact .inl ⟨rfl, by simp⟩
    | installed _ hexhausted => exact .inr ⟨candidate, rfl, hexhausted, rfl⟩

/-- A call acts on an admissible candidate and refuses everything else; an admissible candidate leaves the instances of a
dormant component as they are unless one of another component is handed over to it. -/
theorem replaceSnapshot_iff (hstate : Accepted number unicode service.state) :
    (Returns (service.ReplaceSnapshot number unicode expectedRevision expectedCatalogDigest candidateSnapshot) (after, error) ↔
      (∃ candidate, Admissible number unicode service expectedRevision expectedCatalogDigest candidateSnapshot candidate ∧
        Replaces service candidate after error) ∨
      (∀ candidate, ¬ Admissible number unicode service expectedRevision expectedCatalogDigest candidateSnapshot candidate) ∧
        after = service ∧ ∃ refused, error = some refused ∧
          service.checkCandidate number unicode expectedRevision expectedCatalogDigest candidateSnapshot = .error refused) ∧
    ∀ candidate, Admissible number unicode service expectedRevision expectedCatalogDigest candidateSnapshot candidate →
      ∀ id ∈ dormantIds service.catalog service.state,
        (∀ e : QString × ComponentInstance, e.2.componentId = id → (e ∈ candidate.instances ↔ e ∈ service.state.instances)) ↔
          ¬ HandedOver service.state candidate id := by
  constructor
  · cases hcheck : service.checkCandidate number unicode expectedRevision expectedCatalogDigest candidateSnapshot with
    | error refused =>
      have hnone (candidate : ComponentConfiguration) :
          ¬ Admissible number unicode service expectedRevision expectedCatalogDigest candidateSnapshot candidate := by
        rw [← checkCandidate_iff hstate, hcheck]
        simp
      rw [returns_refused hcheck]
      constructor
      · rintro ⟨rfl, rfl⟩
        exact .inr ⟨hnone, rfl, refused, rfl, rfl⟩
      · rintro (⟨candidate, hadmissible, -⟩ | ⟨-, rfl, other, rfl, hother⟩)
        · exact absurd hadmissible (hnone candidate)
        · exact ⟨rfl, congrArg some (Except.error.inj hother).symm⟩
    | ok candidate =>
      have hadmissible := (checkCandidate_iff hstate).mp hcheck
      rw [returns_checked hcheck]
      constructor
      · exact fun h => .inl ⟨candidate, hadmissible, h⟩
      · rintro (⟨other, hother, h⟩ | ⟨hnone, -⟩)
        · obtain rfl := Option.some_inj.mp (hother.parsed.symm.trans hadmissible.parsed)
          exact h
        · exact absurd hadmissible (hnone candidate)
  · intro candidate h id hid
    exact h.keeps.instances_iff hstate.sorted.2.1 (accepted_parsed h.parsed).sorted.2.1 hid

section Catalogs

@[simp] theorem takeCatalog_state : (service.takeCatalog number unicode catalog).state = service.state := by
  unfold ComponentConfigService.takeCatalog
  dsimp only
  split_ifs <;> rfl

@[simp] theorem takeCatalog_available : (service.takeCatalog number unicode catalog).available = service.available := by
  unfold ComponentConfigService.takeCatalog
  dsimp only
  split_ifs <;> rfl

@[simp] theorem takeCatalog_loadedOnce : (service.takeCatalog number unicode catalog).loadedOnce = service.loadedOnce := by
  unfold ComponentConfigService.takeCatalog
  dsimp only
  split_ifs <;> rfl

@[simp] theorem takeCatalog_writable : (service.takeCatalog number unicode catalog).writable = service.writable := by
  unfold ComponentConfigService.takeCatalog
  dsimp only
  split_ifs <;> rfl

/-- A catalog is in use only where the state reads the same under it. -/
theorem takeCatalog_reads (hloaded : service.loadedOnce = true) (havailable : service.available = true)
    (h : (service.takeCatalog number unicode catalog).catalogAvailable = true) :
    (service.takeCatalog number unicode catalog).catalog = catalog ∧
      (parseComponentConfiguration number unicode catalog (serializeComponentConfiguration number service.state)).value =
        some service.state := by
  unfold ComponentConfigService.takeCatalog at h ⊢
  dsimp only at h ⊢
  split_ifs at h ⊢ with hreads
  · cases h
  · simp only [hloaded, havailable, Bool.and_self, Bool.true_and, decide_eq_true_eq, not_not] at hreads
    exact ⟨rfl, hreads⟩

theorem returns_loadFirst (h : Returns (service.loadFirst number unicode paths catalog) after) : after.loadedOnce = after.available := by
  obtain ⟨loaded, -, h⟩ := returns_bind.mp h
  rw [← returns_done.mp h]

theorem returns_loadAgain (h : Returns (service.loadAgain number unicode paths catalog) after) :
    after.available = service.available ∧ after.loadedOnce = service.loadedOnce ∧
      (after.state = service.state ∨ migrationCandidate number unicode service.state catalog = some after.state) := by
  obtain ⟨retried, -, h⟩ := returns_bind.mp h
  split_ifs at h with hknown
  · obtain rfl := returns_done.mp h
    simp only [Bool.and_eq_true, Bool.or_eq_true, decide_eq_true_eq, ComponentStore.recognizesMigration] at hknown
    exact ⟨rfl, rfl, hknown.2⟩
  · obtain rfl := returns_done.mp h
    exact ⟨rfl, rfl, .inl rfl⟩

theorem returns_migrateState (h : Returns (service.migrateState number unicode catalog) after) :
    after.available = service.available ∧ after.loadedOnce = service.loadedOnce ∧
      (after.state = service.state ∨ migrationCandidate number unicode service.state catalog = some after.state) := by
  obtain ⟨migrated, hmigrated, h⟩ := returns_bind.mp h
  have hstate := returns_migrate hmigrated
  dsimp only at h
  split_ifs at h <;> obtain rfl := returns_done.mp h
  · exact ⟨rfl, rfl, hstate⟩
  · exact ⟨rfl, rfl, .inl rfl⟩
  · exact ⟨rfl, rfl, hstate⟩
  · exact ⟨rfl, rfl, .inl rfl⟩

end Catalogs

section Runs

/-- What a running service takes: a replacement, a catalog, the loss of the catalog. -/
inductive ServiceStep (number : NumberText) (unicode : UnicodeTables) (paths : ComponentPaths) :
    ComponentConfigService → ComponentConfigService → Prop
  | replace {service after : ComponentConfigService} {expectedRevision : UInt64} {expectedCatalogDigest : QString}
      {candidateSnapshot : QByteArray} {error : Option ServiceError} :
    Returns (service.ReplaceSnapshot number unicode expectedRevision expectedCatalogDigest candidateSnapshot) (after, error) →
    ServiceStep number unicode paths service after
  | catalog {service after : ComponentConfigService} {catalog : ConfigurationCatalog} :
    Returns (service.applyCatalog number unicode paths catalog) after → ServiceStep number unicode paths service after
  | catalogUnavailable (service : ComponentConfigService) : ServiceStep number unicode paths service service.setCatalogUnavailable

def ServiceRun (number : NumberText) (unicode : UnicodeTables) (paths : ComponentPaths) :
    ComponentConfigService → ComponentConfigService → Prop :=
  Relation.ReflTransGen (ServiceStep number unicode paths)

/-- What holds of a service that has begun without a configuration. -/
structure Loaded (number : NumberText) (unicode : UnicodeTables) (service : ComponentConfigService) : Prop where
  once : service.loadedOnce = service.available
  accepted : service.available = true → service.catalogAvailable = true → Accepted number unicode service.state

/-- How the state of an available service changes. -/
inductive Revises (number : NumberText) (unicode : UnicodeTables) (service after : ComponentConfigService) : Prop
  | same : after.state = service.state → Revises number unicode service after
  | replaced {candidate : ComponentConfiguration} {expectedCatalogDigest : QString} {candidateSnapshot : QByteArray} :
    service.checkCandidate number unicode service.state.revision expectedCatalogDigest candidateSnapshot = .ok candidate →
    service.state.revision.toNat ≠ maximumUnsigned64 →
    after = { service with state := { candidate with revision := service.state.revision + 1 } } →
    Revises number unicode service after
  | migrated {catalog : ConfigurationCatalog} : migrationCandidate number unicode service.state catalog = some after.state →
    Revises number unicode service after

theorem Loaded.applyCatalog (hloaded : Loaded number unicode service)
    (h : Returns (service.applyCatalog number unicode paths catalog) after) :
    Loaded number unicode after ∧ (service.available = true → after.available = true ∧
      (after.state = service.state ∨ migrationCandidate number unicode service.state catalog = some after.state)) := by
  have htaken {loaded : ComponentConfigService} (honce : loaded.loadedOnce = loaded.available) :
      Loaded number unicode (loaded.takeCatalog number unicode catalog) := by
    refine ⟨by simpa using honce, fun havailable hcatalog => ?_⟩
    rw [takeCatalog_available] at havailable
    rw [takeCatalog_state]
    exact accepted_parsed (takeCatalog_reads (honce.trans havailable) havailable hcatalog).2
  unfold ComponentConfigService.applyCatalog at h
  split_ifs at h with hdigest honce hwritable havailable
  · obtain rfl := returns_done.mp h
    exact ⟨⟨hloaded.once, by simp [ComponentConfigService.setCatalogUnavailable]⟩, fun h => ⟨h, .inl rfl⟩⟩
  · obtain ⟨loaded, hfirst, h⟩ := returns_bind.mp h
    obtain rfl := returns_done.mp h
    refine ⟨htaken (returns_loadFirst hfirst), fun havailable => ?_⟩
    rw [hloaded.once, havailable] at honce
    cases honce
  · obtain ⟨loaded, hagain, h⟩ := returns_bind.mp h
    obtain rfl := returns_done.mp h
    obtain ⟨havailable, honce, hstate⟩ := returns_loadAgain hagain
    refine ⟨htaken (by rw [havailable, honce, hloaded.once]), fun h => ?_⟩
    rw [takeCatalog_available, takeCatalog_state, havailable]
    exact ⟨h, hstate⟩
  · obtain ⟨loaded, hmigrate, h⟩ := returns_bind.mp h
    obtain rfl := returns_done.mp h
    obtain ⟨havailable, honce, hstate⟩ := returns_migrateState hmigrate
    refine ⟨htaken (by rw [havailable, honce, hloaded.once]), fun h => ?_⟩
    rw [takeCatalog_available, takeCatalog_state, havailable]
    exact ⟨h, hstate⟩
  · obtain rfl := returns_done.mp h
    refine ⟨htaken hloaded.once, fun h => ?_⟩
    rw [takeCatalog_available, takeCatalog_state]
    exact ⟨h, .inl rfl⟩

theorem checkCandidate_current {candidate : ComponentConfiguration}
    (h : service.checkCandidate number unicode expectedRevision expectedCatalogDigest candidateSnapshot = .ok candidate) :
    Current service expectedRevision expectedCatalogDigest ∧
      (parseComponentConfiguration number unicode service.catalog candidateSnapshot).value = some candidate := by
  unfold ComponentConfigService.checkCandidate at h
  split_ifs at h with hwritable hcatalog hrevision hdigest
  simp only [Bool.or_eq_true, Bool.not_eq_true', not_or, Bool.not_eq_false] at hwritable hcatalog
  refine ⟨⟨hwritable, hcatalog, not_not.mp hrevision, not_not.mp hdigest⟩, ?_⟩
  split at h
  · cases h
  · rename_i parsed hparsed
    split_ifs at h
    split at h
    · cases h
    · rw [hparsed, ← Except.ok.inj h]

theorem Loaded.step (hloaded : Loaded number unicode service) (h : ServiceStep number unicode paths service after) :
    Loaded number unicode after ∧
      (service.available = true → after.available = true ∧ Revises number unicode service after) := by
  cases h with
  | replace h =>
    rcases returns_replace h with ⟨rfl, -⟩ | ⟨candidate, hcheck, hrevision, rfl⟩
    · exact ⟨hloaded, fun h => ⟨h, .same rfl⟩⟩
    · obtain ⟨⟨-, -, rfl, -⟩, hparsed⟩ := checkCandidate_current hcheck
      exact ⟨⟨hloaded.once, fun _ _ => (accepted_parsed hparsed).revised _⟩, fun h => ⟨h, .replaced hcheck hrevision rfl⟩⟩
  | catalog h =>
    obtain ⟨hafter, hstate⟩ := hloaded.applyCatalog h
    refine ⟨hafter, fun havailable => ⟨(hstate havailable).1, ?_⟩⟩
    exact (hstate havailable).2.elim .same .migrated
  | catalogUnavailable =>
    exact ⟨⟨hloaded.once, by simp [ComponentConfigService.setCatalogUnavailable]⟩, fun h => ⟨h, .same rfl⟩⟩

theorem loaded_initial (legacy : Option LegacyWorkspaceSettings) :
    Loaded number unicode { legacyWorkspaceSettings := legacy } := ⟨rfl, by simp⟩

/-- The same configuration or one with a greater revision. -/
def Later (current next : ComponentConfiguration) : Prop := next = current ∨ current.revision < next.revision

theorem Later.trans {a b c : ComponentConfiguration} (hab : Later a b) (hbc : Later b c) : Later a c := by
  rcases hbc with rfl | hbc
  · exact hab
  · rcases hab with rfl | hab
    · exact .inr hbc
    · exact .inr (UInt64.lt_trans hab hbc)

theorem lt_next_revision {revision : UInt64} (h : revision.toNat ≠ maximumUnsigned64) : revision < revision + 1 := by
  have hlt := revision.toNat_lt
  have hbound : maximumUnsigned64 = 2 ^ 64 - 1 := rfl
  rw [UInt64.lt_iff_toNat_lt, UInt64.toNat_add, UInt64.toNat_one, Nat.mod_eq_of_lt (by omega)]
  omega

theorem Migrated.later (h : Migrated number unicode catalog current next) : Later current next :=
  .inr (h.revision.1 ▸ lt_next_revision h.revision.2)

theorem Revises.later (h : Revises number unicode service after) : Later service.state after.state := by
  cases h with
  | same h => exact .inl h
  | replaced _ hrevision h =>
    rw [h]
    exact .inr (lt_next_revision hrevision)
  | migrated h => exact (migrationCandidate_migrated h).later

theorem Loaded.run (hloaded : Loaded number unicode service) (h : ServiceRun number unicode paths service after) :
    Loaded number unicode after ∧
      (service.available = true → after.available = true ∧ Later service.state after.state) := by
  induction h with
  | refl => exact ⟨hloaded, fun h => ⟨h, .inl rfl⟩⟩
  | tail _ hstep ih =>
    obtain ⟨hmiddle, hbefore⟩ := ih
    obtain ⟨hafter, hrevises⟩ := hmiddle.step hstep
    refine ⟨hafter, fun havailable => ?_⟩
    obtain ⟨hmiddle, hlater⟩ := hbefore havailable
    exact ⟨(hrevises hmiddle).1, hlater.trans (hrevises hmiddle).2.later⟩

/-- After a client has read the configuration, it stays or takes a greater revision, whatever the files answer; a
replacement at the revision that was read acts on what was read. -/
theorem replaceSnapshot_unlost {legacy : Option LegacyWorkspaceSettings} {read later : ComponentConfigService} {revision : UInt64}
    {digest : QString} {bytes : QByteArray}
    (hread : ServiceRun number unicode paths { legacyWorkspaceSettings := legacy } read)
    (hsnapshot : read.GetSnapshot number = .ok (revision, digest, bytes)) (hlater : ServiceRun number unicode paths read later) :
    Later read.state later.state ∧
    ∀ expectedCatalogDigest candidateSnapshot after,
      Returns (later.ReplaceSnapshot number unicode revision expectedCatalogDigest candidateSnapshot) (after, none) →
      bytes = serializeComponentConfiguration number later.state ∧ ∃ candidate,
        (parseComponentConfiguration number unicode later.catalog candidateSnapshot).value = some candidate ∧
        (candidate = later.state ∧ after = later ∨
          after = { later with state := { candidate with revision := revision + 1 } } ∧ revision < after.state.revision) := by
  have hloaded := ((loaded_initial legacy).run hread).1
  unfold ComponentConfigService.GetSnapshot at hsnapshot
  split_ifs at hsnapshot with havailable
  obtain ⟨rfl, -, rfl⟩ : read.state.revision = revision ∧ _ ∧ serializeComponentConfiguration number read.state = bytes := by
    simpa using hsnapshot
  obtain ⟨-, hmore⟩ := (hloaded.run hlater).2 (by simpa using havailable)
  refine ⟨hmore, fun expectedCatalogDigest candidateSnapshot after h => ?_⟩
  have hsame (hrevision : read.state.revision = later.state.revision) : read.state = later.state := by
    rcases hmore with hsame | hmore
    · exact hsame.symm
    · exact absurd hmore (by rw [hrevision]; exact UInt64.lt_irrefl _)
  rcases returns_replace h with ⟨rfl, hcheck⟩ | ⟨candidate, hcheck, hrevision, rfl⟩
  · obtain ⟨⟨-, -, hrevision, -⟩, hparsed⟩ := checkCandidate_current (hcheck rfl)
    exact ⟨by rw [hsame hrevision], _, hparsed, .inl ⟨rfl, rfl⟩⟩
  · obtain ⟨⟨-, -, hsaved, -⟩, hparsed⟩ := checkCandidate_current hcheck
    rw [← hsaved] at hrevision ⊢
    exact ⟨by rw [hsame hsaved], candidate, hparsed, .inr ⟨rfl, lt_next_revision hrevision⟩⟩

end Runs

section Remaining
variable {id : QString}

/-- What is left of a component: its record, its instances and the layouts that hold them. -/
structure Remains (id : QString) (before after : ComponentConfiguration) : Prop where
  record : after.components.lookup id = before.components.lookup id
  instances : ∀ key placed, before.instances.lookup key = some placed → placed.componentId = id →
    after.instances.lookup key = some placed
  layouts : ∀ name layout key placed, before.bars.lookup name = some layout → before.instances.lookup key = some placed →
    placed.componentId = id → key ∈ layoutInstances layout → after.bars.lookup name = some layout

theorem Remains.of_eq {before after : ComponentConfiguration} (h : after = before) : Remains id before after := by
  subst h
  exact ⟨rfl, fun _ _ h _ => h, fun _ _ _ _ h _ _ _ => h⟩

theorem Remains.trans {a b c : ComponentConfiguration} (hab : Remains id a b) (hbc : Remains id b c) : Remains id a c := by
  refine ⟨hbc.record.trans hab.record, fun key placed hplaced hid => ?_, fun name layout key placed hlayout hplaced hid hkey => ?_⟩
  · exact hbc.instances key placed (hab.instances key placed hplaced hid) hid
  · exact hbc.layouts name layout key placed (hab.layouts name layout key placed hlayout hplaced hid hkey)
      (hab.instances key placed hplaced hid) hid hkey

theorem migrateInstance_kept {entry placed : QString × ComponentInstance}
    (h : migrateInstance workspaceSwitcherId entry = some placed) :
    placed.1 = entry.1 ∧ (entry.2.componentId ≠ workspaceSwitcherId → placed = entry) := by
  unfold migrateInstance at h
  split_ifs at h with hother
  · obtain rfl := Option.some_inj.mp h
    exact ⟨rfl, fun _ => rfl⟩
  · obtain ⟨settings, -, h⟩ := Option.bind_eq_some_iff.mp h
    obtain rfl := Option.some_inj.mp h
    exact ⟨rfl, fun hne => absurd hne hother⟩

theorem lookup_migrated {before after : QMap ComponentInstance} {key : QString} {placed : ComponentInstance}
    (h : List.Forall₂ (fun entry placed => migrateInstance workspaceSwitcherId entry = some placed) before after)
    (hplaced : before.lookup key = some placed) (hother : placed.componentId ≠ workspaceSwitcherId) :
    after.lookup key = some placed := by
  induction h with
  | nil => cases hplaced
  | @cons entry migrated before after hentry _ ih =>
    obtain ⟨hkey, hsame⟩ := migrateInstance_kept hentry
    rw [show entry :: before = (entry.1, entry.2) :: before from rfl, QMap.lookup_cons_ite] at hplaced
    rw [show migrated :: after = (migrated.1, migrated.2) :: after from rfl, QMap.lookup_cons_ite, hkey]
    split_ifs at hplaced ⊢ with hfound
    · obtain rfl := Option.some_inj.mp hplaced
      rw [hsame hother]
    · exact ih hplaced

/-- A component other than the workspace switcher keeps everything when the switcher's settings are migrated. -/
theorem Migrated.remains (h : Migrated number unicode catalog current next) (hid : id ≠ workspaceSwitcherId) :
    Remains id current next := by
  obtain ⟨desired, hcomponents⟩ := h.components
  refine ⟨?_, fun key placed hplaced hcomponent => ?_, fun name layout key placed hlayout _ _ _ => ?_⟩
  · rw [hcomponents, QMap.lookup_insert, if_neg hid]
  · exact lookup_migrated h.instances hplaced (hcomponent ▸ hid)
  · rw [h.bars]
    exact hlayout

/-- The catalog has no package of the component, or another one than the record's that is not the user's. -/
def PackageAway (catalog : ConfigurationCatalog) (id : QString) (desired : DesiredComponent) : Prop :=
  ∀ live, catalog.entries.lookup id = some live → live.packageDigest ≠ desired.packageDigest ∧ live.origin ≠ .user

theorem PackageAway.dormant {desired : DesiredComponent} (h : PackageAway catalog id desired) : isDormant catalog id desired = true := by
  unfold isDormant
  cases hlive : catalog.entries.lookup id with
  | none => rfl
  | some live => simpa using (h live hlive).1

theorem PackageAway.not_adopted {desired proposed : DesiredComponent} (h : PackageAway catalog id desired) :
    adoptsUpdatedUserPackage catalog id desired proposed = false := by
  unfold adoptsUpdatedUserPackage
  cases hlive : catalog.entries.lookup id with
  | none => rfl
  | some live => simp [(h live hlive).2]

/-- A component whose package is away keeps everything in a replacement. -/
theorem KeepsDormant.remains {candidate : ComponentConfiguration} {desired : DesiredComponent}
    (h : KeepsDormant catalog current candidate) (hrecord : current.components.lookup id = some desired)
    (haway : PackageAway catalog id desired) : Remains id current candidate := by
  have hmem := QMap.mem_of_lookup hrecord
  have hdormant := mem_dormantIds.mpr ⟨desired, hmem, haway.dormant⟩
  refine ⟨?_, fun key placed hplaced hcomponent => ?_, fun name layout key placed hlayout hplaced hcomponent hkey => ?_⟩
  · obtain ⟨proposed, hproposed, hkept⟩ := h.records id desired hmem haway.dormant
    rw [haway.not_adopted, or_iff_left (by simp)] at hkept
    rw [hproposed, hrecord, hkept]
  · exact (h.instances key placed (QMap.mem_of_lookup hplaced) (hcomponent ▸ hdormant)).1
  · exact (h.instances key placed (QMap.mem_of_lookup hplaced) (hcomponent ▸ hdormant)).2 (name, layout)
      (QMap.mem_of_lookup hlayout) hkey

theorem Revises.remains {desired : DesiredComponent} (hloaded : Loaded number unicode service)
    (h : Revises number unicode service after) (hid : id ≠ workspaceSwitcherId)
    (hrecord : service.state.components.lookup id = some desired) (haway : PackageAway service.catalog id desired) :
    Remains id service.state after.state := by
  cases h with
  | same h => exact .of_eq h
  | migrated h => exact (migrationCandidate_migrated h).remains hid
  | replaced hcheck _ h =>
    subst h
    obtain ⟨⟨⟨havailable, -⟩, hcatalog, -, -⟩, -⟩ := checkCandidate_current hcheck
    have hadmissible := (checkCandidate_iff (hloaded.accepted havailable hcatalog)).mp hcheck
    obtain ⟨hkept, hinstances, hlayouts⟩ := hadmissible.keeps.remains hrecord haway
    exact ⟨hkept, hinstances, hlayouts⟩

/-- Steps that take up no package of the component, whatever becomes of its record. -/
def AwayRun (number : NumberText) (unicode : UnicodeTables) (paths : ComponentPaths) (id : QString) (desired : DesiredComponent) :
    ComponentConfigService → ComponentConfigService → Prop :=
  Relation.ReflTransGen fun service after =>
    ServiceStep number unicode paths service after ∧ PackageAway after.catalog id desired

/-- A component whose package is away keeps its record, its instances and the layouts that hold them until the package is
back. -/
theorem dormant_remains {legacy : Option LegacyWorkspaceSettings} {desired : DesiredComponent} (hid : id ≠ workspaceSwitcherId)
    (hreached : ServiceRun number unicode paths { legacyWorkspaceSettings := legacy } service) (havailable : service.available = true)
    (hrecord : service.state.components.lookup id = some desired) (haway : PackageAway service.catalog id desired)
    (hrun : AwayRun number unicode paths id desired service after) : Remains id service.state after.state := by
  have hloaded := ((loaded_initial legacy).run hreached).1
  suffices h : Loaded number unicode after ∧ after.available = true ∧ PackageAway after.catalog id desired ∧
      Remains id service.state after.state from h.2.2.2
  induction hrun with
  | refl => exact ⟨hloaded, havailable, haway, .of_eq rfl⟩
  | tail _ hstep ih =>
    obtain ⟨hmiddle, havailable, haway, hremains⟩ := ih
    obtain ⟨hafter, hrevises⟩ := hmiddle.step hstep.1
    obtain ⟨havailable, hrevises⟩ := hrevises havailable
    have hstill := hremains.record.trans hrecord
    exact ⟨hafter, havailable, hstep.2, hremains.trans (hrevises.remains hmiddle hid hstill haway)⟩

end Remaining

section Loading

theorem snapshotResult_present {path : QString} {bytes : QByteArray} (hsize : bytes.length ≤ maximumComponentConfigurationBytes)
    (h : (parseComponentConfiguration number unicode catalog bytes).value = some current) :
    snapshotResult number unicode catalog path (.present bytes) = { status := .valid, state := current } := by
  rw [snapshotResult, if_neg (not_lt.mpr hsize)]
  dsimp only
  rw [h]

/-- Both files hold the configuration. -/
theorem returns_load {bytes : QByteArray} {legacy : Option LegacyWorkspaceSettings}
    (hsize : bytes.length ≤ maximumComponentConfigurationBytes)
    (h : (parseComponentConfiguration number unicode catalog bytes).value = some current)
    (hmigrate : migrationCandidate number unicode current catalog = none) :
    Returns (ComponentStore.load number unicode paths catalog legacy)
      { available := true, writable := true, state := current, loadState := .normal } := by
  have hread (file : SnapshotFile) : Returns (readSnapshot number unicode paths catalog file) { status := .valid, state := current } :=
    returns_bind.mpr ⟨.present bytes, returns_ask, by rw [snapshotResult_present hsize h]; exact .done _⟩
  refine returns_bind.mpr ⟨_, hread .active, returns_bind.mpr ⟨_, hread .recovery, ?_⟩⟩
  refine returns_bind.mpr ⟨{ state := current }, ?_, ?_⟩
  · rw [ComponentStore.migrate, hmigrate]
    exact .done _
  · simp

end Loading

end Steps

section Sample
variable (paths : ComponentPaths)

theorem clock_evaluated : isFullSha256Digest levelDigest = true ∧
    migrationCandidate exactDecimal qaTables (sharedConfiguration clockId) clockCatalog = none ∧ clockId ≠ workspaceSwitcherId ∧
    levelId ≠ workspaceSwitcherId ∧ sharedConfiguration levelId ≠ sharedConfiguration clockId ∧
    (sharedBytes clockId).length ≤ maximumComponentConfigurationBytes ∧
    (sharedConfiguration clockId).components.lookup levelId = some ⟨levelDigest, true, [], []⟩ ∧
    clockCatalog.entries.lookup levelId = none := by
  decide +kernel

theorem loadedClock_reads : (parseComponentConfiguration exactDecimal qaTables clockCatalog
    (serializeComponentConfiguration exactDecimal (loadedClock clockId 0).state)).value = some (loadedClock clockId 0).state :=
  shared_accepted (List.mem_cons_self : clockId ∈ [clockId, levelId])

def clockBefore : ComponentConfigService :=
  { loadedClock clockId 0 with catalog := ⟨[], []⟩, catalogDigest := [], catalogAvailable := false }

theorem clock_taken : clockBefore.takeCatalog exactDecimal qaTables clockCatalog = loadedClock clockId 0 := by
  have hreads : (parseComponentConfiguration exactDecimal qaTables clockCatalog
    (serializeComponentConfiguration exactDecimal clockBefore.state)).value = some clockBefore.state := loadedClock_reads
  rw [ComponentConfigService.takeCatalog, hreads]
  rfl

theorem clock_loaded : ServiceRun exactDecimal qaTables paths { legacyWorkspaceSettings := none } (loadedClock clockId 0) := by
  obtain ⟨hdigest, hmigrate, -, -, -, hsize, -⟩ := clock_evaluated
  refine .single (@ServiceStep.catalog _ _ _ _ _ clockCatalog ?_)
  unfold ComponentConfigService.applyCatalog
  rw [show clockCatalog.digest = levelDigest from rfl, hdigest]
  refine returns_bind.mpr ⟨clockBefore, returns_bind.mpr ⟨_, returns_load hsize loadedClock_reads hmigrate, .done _⟩, ?_⟩
  rw [clock_taken]
  exact .done _

theorem clock_replaces : Replaces (loadedClock clockId 0) (sharedConfiguration levelId) (loadedClock levelId 1) none := by
  obtain ⟨-, -, -, -, hother, -⟩ := clock_evaluated
  exact .installed hother (by decide)

/-- An instance of the clock is handed over to the level, which is not installed. -/
theorem replaceSnapshot_handedOver :
    Returns ((loadedClock clockId 0).ReplaceSnapshot exactDecimal qaTables 0 levelDigest (sharedBytes levelId))
        (loadedClock levelId 1, none) ∧
      ¬ ∀ e : QString × ComponentInstance, e.2.componentId = levelId →
        (e ∈ (sharedConfiguration levelId).instances ↔ e ∈ (loadedClock clockId 0).state.instances) := by
  obtain ⟨-, hdormant, hplaced, hbefore, hother⟩ := shared_dormant
  have h := @replaceSnapshot_iff exactDecimal qaTables (loadedClock clockId 0) (loadedClock levelId 1) 0 levelDigest
    (sharedBytes levelId) none (accepted_parsed loadedClock_reads)
  refine ⟨h.1.mpr (.inl ⟨_, shared_admissible, clock_replaces⟩), fun hsame => ?_⟩
  exact (h.2 _ shared_admissible levelId hdormant).mp hsame ⟨clockInstance, _, _, hplaced, rfl, hbefore, hother⟩

theorem clock_checked : (loadedClock clockId 0).checkCandidate exactDecimal qaTables 0 levelDigest (sharedBytes levelId) =
    .ok (sharedConfiguration levelId) :=
  (checkCandidate_iff (accepted_parsed loadedClock_reads)).mpr shared_admissible

theorem clock_replaced : Returns ((loadedClock clockId 0).ReplaceSnapshot exactDecimal qaTables 0 levelDigest (sharedBytes levelId))
    (loadedClock levelId 1, none) :=
  (returns_checked clock_checked).mpr clock_replaces

/-- The replacement acts on the configuration that was read. -/
theorem replaceSnapshot_unlost_clock : ∃ candidate,
    (parseComponentConfiguration exactDecimal qaTables clockCatalog (sharedBytes levelId)).value = some candidate ∧
      (candidate = (loadedClock clockId 0).state ∧ loadedClock levelId 1 = loadedClock clockId 0 ∨
        loadedClock levelId 1 = { loadedClock clockId 0 with state := { candidate with revision := 1 } } ∧
          0 < (loadedClock levelId 1).state.revision) :=
  ((replaceSnapshot_unlost (clock_loaded ⟨[], [], []⟩)
    (show (loadedClock clockId 0).GetSnapshot exactDecimal = .ok (0, levelDigest, sharedBytes clockId) from rfl) .refl).2
      levelDigest (sharedBytes levelId) (loadedClock levelId 1) clock_replaced).2

/-- The level stays dormant when an instance of the clock is handed over to it. -/
theorem dormant_remains_level : Remains levelId (loadedClock clockId 0).state (loadedClock levelId 1).state := by
  obtain ⟨-, -, -, hlevel, -, -, hrecord, hnone⟩ := clock_evaluated
  have haway : PackageAway clockCatalog levelId ⟨levelDigest, true, [], []⟩ := by
    intro live hlive
    rw [hnone] at hlive
    cases hlive
  exact dormant_remains hlevel (clock_loaded ⟨[], [], []⟩) rfl hrecord haway (.single ⟨.replace clock_replaced, haway⟩)

end Sample

end HyprShelld.Configuration
