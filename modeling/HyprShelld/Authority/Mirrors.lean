import HyprShelld.Authority.Rules
import HyprShelld.Display.Candidate

/-! The memory of the authority and the files it stands for. -/
namespace HyprShelld.Compositor
open Hyprland Program

section Spelling
variable (g : Setting)

/-- The bytes are exactly what the current authorities read as the state and write for it. -/
structure Spells (bytes : QByteArray) (state : DesiredState) : Prop where
  parsed : parseDesiredState g.platform bytes g.catalog g.actions = ⟨some state, []⟩
  serialized : serializeDesiredState g.platform state = bytes

variable {g} {bytes : QByteArray} {state : DesiredState}

theorem Spells.compatible (h : Spells g bytes state) :
    parseCompatibleDesiredState g.platform g.catalog g.actions bytes = some { state } := by
  simp [parseCompatibleDesiredState, h.parsed, h.serialized, Option.filter, ValidationResult.ok]

theorem current_of_fresh (state : DesiredState) :
    currentAuthorityState g.platform g.catalog g.actions { state } = some state := rfl

theorem Spells.unique {other : DesiredState} (h : Spells g bytes state) (h' : Spells g bytes other) : other = state := by
  have heq := h'.parsed
  rw [h.parsed] at heq
  cases heq
  rfl

theorem spells_of_parse {candidate : DesiredState}
    (h : (parseDesiredState g.platform (serializeDesiredState g.platform candidate) g.catalog g.actions).ok = true)
    (hvalue : (parseDesiredState g.platform (serializeDesiredState g.platform candidate) g.catalog g.actions).value =
      some candidate) : Spells g (serializeDesiredState g.platform candidate) candidate := by
  refine ⟨?_, rfl⟩
  revert h hvalue
  generalize parseDesiredState g.platform (serializeDesiredState g.platform candidate) g.catalog g.actions = result
  obtain ⟨value, errors⟩ := result
  rintro hok rfl
  simp only [ValidationResult.ok, Option.isSome_some, Bool.true_and, List.isEmpty_iff] at hok
  rw [hok]

theorem storedLineage_migrates {c a : QString} {lineage : Lineage}
    (h : storedLineage g.platform g.catalog g.actions c a = some lineage) : lineage.migrates = true := by
  unfold storedLineage at h
  dsimp only at h
  split_ifs at h with h1 h2 h3
  cases h
  simp only [Bool.and_eq_true, Bool.not_eq_true', not_and, Bool.not_eq_false] at h3
  unfold Lineage.migrates
  grind

theorem parseLegacy_migrates {root : QJsonObject} {parsed : CompatibleDesiredState}
    (h : parseLegacyDesiredState g.platform g.catalog g.actions bytes root = some parsed) : parsed.migrates = true := by
  simp only [parseLegacyDesiredState, Option.bind_eq_bind, Option.bind_eq_some_iff] at h
  obtain ⟨lineage, hlineage, -, -, state, -, -, -, -, -, -, -, h⟩ := h
  cases h
  exact storedLineage_migrates hlineage

/-- What was stored is spelled by the current authorities, or by reviewed ones before them. -/
theorem compatible_cases {parsed : CompatibleDesiredState}
    (h : parseCompatibleDesiredState g.platform g.catalog g.actions bytes = some parsed) :
    (parsed.migrates = false ∧ Spells g bytes parsed.state) ∨ parsed.migrates = true := by
  unfold parseCompatibleDesiredState at h
  dsimp only at h
  split at h
  · rename_i state hstate
    cases h
    obtain ⟨hvalue, hok⟩ := Option.filter_eq_some_iff.mp hstate
    simp only [Bool.and_eq_true, decide_eq_true_eq] at hok
    refine .inl ⟨rfl, ?_⟩
    obtain ⟨hok, hbytes⟩ := hok
    subst hbytes
    exact spells_of_parse hok hvalue
  · obtain ⟨root, -, hlegacy⟩ := Option.bind_eq_some_iff.mp h
    exact .inr (parseLegacy_migrates hlegacy)

/-- A stored state under the current authorities, in the form it is written in. -/
theorem spells_current {parsed : CompatibleDesiredState} {current : DesiredState}
    (hparsed : parseCompatibleDesiredState g.platform g.catalog g.actions bytes = some parsed)
    (h : currentAuthorityState g.platform g.catalog g.actions parsed = some current) :
    Spells g (serializeDesiredState g.platform current) current ∧
      (parsed.migrates = false → serializeDesiredState g.platform current = bytes) := by
  unfold currentAuthorityState at h
  rcases compatible_cases hparsed with ⟨hfresh, hspells⟩ | hmigrates
  · rw [if_pos (by simp [hfresh])] at h
    cases h
    rw [hspells.serialized]
    exact ⟨hspells, fun _ => rfl⟩
  · rw [if_neg (by simp [hmigrates])] at h
    dsimp only at h
    split_ifs at h with hverified
    cases h
    simp only [Bool.and_eq_true, decide_eq_true_eq] at hverified
    exact ⟨spells_of_parse hverified.1 hverified.2, fun hfresh => absurd (hfresh.symm.trans hmigrates) (by simp)⟩

end Spelling

namespace ConfigurationTransaction

section Mirrors
variable (g : Setting) (t : ConfigurationTransaction) (disk : Disk)

/-- The applied tuple and its two files, or neither. -/
def AppliedMirrored : Prop :=
  match t.applied with
  | none => disk.files .activation = none ∧ disk.files .lastGood = none ∧ t.appliedState = none ∧ t.lastGoodBytes = []
  | some record => disk.files .activation = some (appliedBytes g.platform record) ∧
      disk.files .lastGood = some t.lastGoodBytes ∧
      ∃ parsed state, parseCompatibleDesiredState g.platform g.catalog g.actions t.lastGoodBytes = some parsed ∧
        currentAuthorityState g.platform g.catalog g.actions parsed = some state ∧ t.appliedState = some state

/-- A journal that was written by this process. -/
structure Journal (record : PendingRecord) : Prop where
  candidate : Spells g record.candidateBytes record.candidate
  digest : record.snapshotDigest = g.platform.sha256 record.candidateBytes

/-- The memory is what the four files say. -/
structure Mirrored : Prop where
  desired : disk.files .desired = some t.desiredBytes
  digest : t.desiredDigest = g.platform.sha256 t.desiredBytes
  spelled : Spells g t.desiredBytes t.desired
  applied : t.AppliedMirrored g disk
  pending : disk.files .pending = t.pending.map (pendingBytes g.platform)
  journal : ∀ record, t.pending = some record → Journal g record

/-- What a process that has its authority may rely on; before its start there is no transaction. -/
structure Good : Prop where
  mirrored : t.unavailable = false → t.Mirrored g disk
  untouched : t.initialized = false → t.failed = false → t.pending = none

/-- An answer to an operation: an error without the loss of authority leaves everything as it was. -/
structure Answered (r : ConfigurationTransaction × AuthorityResult) (m : Disk) : Prop where
  good : r.1.Good g m
  unchanged : r.2.success = false → r.1.failed = false → r.1 = t ∧ m = disk
  initialized : r.2.success = true → r.1.initialized = true

end Mirrors

variable {g : Setting} {t : ConfigurationTransaction} {disk : Disk}

/-- Nothing is asked of the disk where an operation is cut. -/
def anywhere (_ : Disk) : Prop := True

/-- Every complete run of an operation from this memory and disk answers it. -/
abbrev Answers (g : Setting) (t : ConfigurationTransaction) (disk : Disk)
    (x : Stored (ConfigurationTransaction × AuthorityResult)) (m : Disk) : Prop :=
  x.wp Effect anywhere (t.Answered g disk) m

section Endings
variable {m : Disk} {code : String} {message : QString}

theorem good_failed {t' : ConfigurationTransaction} (h : t'.failed = true) : t'.Good g m where
  mirrored havailable := by simp [unavailable, h] at havailable
  untouched _ hfailed := absurd (hfailed.symm.trans h) (by simp)

theorem initialized_of (h : t.unavailable = false) : t.initialized = true := by
  simp only [unavailable, Bool.or_eq_false_iff, Bool.not_eq_false'] at h
  exact h.1

theorem Mirrored.good {t' : ConfigurationTransaction} (h : t'.Mirrored g m) (hinitialized : t'.initialized = true) :
    t'.Good g m where
  mirrored _ := h
  untouched hfresh := absurd (hfresh.symm.trans hinitialized) (by simp)

theorem refuse_answers (hgood : t.Good g disk) : Answers g t disk (t.refuse g code message) disk :=
  ⟨trivial, hgood, fun _ _ => ⟨rfl, rfl⟩, fun h => absurd h (by simp [fail])⟩

/-- A refusal that gives up the authority. -/
theorem refuse_failed {t' : ConfigurationTransaction} (h : t'.failed = true) :
    Answers g t disk (t'.refuse g code message) m :=
  ⟨trivial, good_failed h, fun _ hfailed => absurd (hfailed.symm.trans h) (by simp), fun h => absurd h (by simp [fail])⟩

theorem succeed_answers {t' : ConfigurationTransaction} (hgood : t'.Good g m) (hinitialized : t'.initialized = true) :
    Answers g t disk (t'.succeed g) m :=
  ⟨trivial, hgood, fun h => absurd h (by simp), fun _ => hinitialized⟩

theorem Mirrored.succeed_answers {t' : ConfigurationTransaction} (h : t'.Mirrored g m) (hinitialized : t'.initialized = true) :
    Answers g t disk (t'.succeed g) m :=
  ConfigurationTransaction.succeed_answers (h.good hinitialized) hinitialized

end Endings

section Writing

@[simp] theorem files_sync (disk : Disk) : disk.sync.files = disk.files := rfl

theorem files_put (disk : Disk) (file other : StoreFile) (bytes : Option QByteArray) :
    (disk.put file bytes).files other = if other = file then bytes else disk.files other := by
  simp [Disk.put, Function.update_apply]

/-- Only the two mirrors of the applied state are read. -/
theorem AppliedMirrored.frame {t' : ConfigurationTransaction} {disk' : Disk} (h : t.AppliedMirrored g disk)
    (happlied : t'.applied = t.applied) (hstate : t'.appliedState = t.appliedState)
    (hbytes : t'.lastGoodBytes = t.lastGoodBytes) (hactivation : disk'.files .activation = disk.files .activation)
    (hlastGood : disk'.files .lastGood = disk.files .lastGood) : t'.AppliedMirrored g disk' := by
  unfold AppliedMirrored at h ⊢
  rw [happlied, hstate, hbytes, hactivation, hlastGood]
  exact h

end Writing
end ConfigurationTransaction
end HyprShelld.Compositor
