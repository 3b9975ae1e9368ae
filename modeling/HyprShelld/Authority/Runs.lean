import HyprShelld.Authority.Drift
import Mathlib.Logic.Relation

/-! Runs of the authority: operations one after the other over the same files, cut short by crashes or not. -/
namespace HyprShelld.Compositor
open Hyprland Program

/-- A display profile reaches the authority through its parser. -/
abbrev ParsedProfile (g : Setting) : Type :=
  { profile : DisplayProfile // ∃ bytes, (parseDisplayProfile g.platform bytes).value = some profile }

inductive Operation (g : Setting) where
  | initializeAuthority
  | replaceSnapshot (expectedRevision : UInt64) (candidateBytes : QByteArray)
  | prepareApply (expectedRevision : UInt64) (nonce : QString) (createdAt : QDateTime)
  | prepareRecovery (expectedRevision : UInt64) (nonce : QString) (createdAt : QDateTime)
  | prepareDisplayApply (expectedRevision : UInt64) (profile : ParsedProfile g) (topology : ConnectedDisplayTopology)
    (nonce : QString) (createdAt : QDateTime)
  | commitApply (generation : QString)
  | abortApply (generation : QString)

/-- A process and the files. -/
structure World where
  process : ConfigurationTransaction := {}
  disk : Disk

section Steps
variable (g : Setting)

def Operation.run (t : ConfigurationTransaction) : Operation g → Stored (ConfigurationTransaction × AuthorityResult)
  | initializeAuthority => t.initializeAuthority g
  | replaceSnapshot expectedRevision candidateBytes => t.replaceSnapshot g expectedRevision candidateBytes
  | prepareApply expectedRevision nonce createdAt => t.prepareApply g expectedRevision nonce createdAt
  | prepareRecovery expectedRevision nonce createdAt => t.prepareRecovery g expectedRevision nonce createdAt
  | prepareDisplayApply expectedRevision profile topology nonce createdAt =>
    t.prepareDisplayApply g expectedRevision profile topology nonce createdAt
  | commitApply generation => t.commitApply g generation
  | abortApply generation => t.abortApply g generation

/-- An operation that ends, with its answer. -/
def Answer (w : World) (operation : Operation g) (result : AuthorityResult) (w' : World) : Prop :=
  Executes Effect w.disk (operation.run g w.process) w'.disk (some (w'.process, result))

/-- One operation of a process. -/
def Operates (w w' : World) : Prop := ∃ operation result, Answer g w operation result w'

/-- A process is killed in an operation, and the next one has only the files. -/
def Crashes (w w' : World) : Prop :=
  ∃ operation : Operation g, Executes Effect w.disk (operation.run g w.process) w'.disk none ∧ w'.process = {}

/-- The power fails: what was not synced may be gone. -/
def LosesPower (w w' : World) : Prop := ∃ m, Crashes g w m ∧ PowerLoss m.disk w'.disk ∧ w'.process = {}

inductive Step (w w' : World) : Prop where
  | operates (h : Operates g w w')
  | crashes (h : Crashes g w w')
  | losesPower (h : LosesPower g w w')

variable {g} {w w' : World}

theorem Operation.answers (hgood : w.process.Good g w.disk) (operation : Operation g) :
    ConfigurationTransaction.Answers g w.process w.disk (operation.run g w.process) w.disk := by
  cases operation with
  | initializeAuthority => exact ConfigurationTransaction.initializeAuthority_answers hgood
  | replaceSnapshot expectedRevision candidateBytes =>
    exact ConfigurationTransaction.replaceSnapshot_answers hgood expectedRevision candidateBytes
  | prepareApply expectedRevision nonce createdAt =>
    exact ConfigurationTransaction.prepare_answers hgood expectedRevision nonce createdAt false
  | prepareRecovery expectedRevision nonce createdAt =>
    exact ConfigurationTransaction.prepare_answers hgood expectedRevision nonce createdAt true
  | prepareDisplayApply expectedRevision profile topology nonce createdAt =>
    exact ConfigurationTransaction.prepareDisplayApply_answers hgood expectedRevision profile.2 topology nonce createdAt
  | commitApply generation => exact ConfigurationTransaction.commitApply_answers hgood generation
  | abortApply generation => exact ConfigurationTransaction.abortApply_answers hgood generation

theorem Answer.answered {operation : Operation g} {result : AuthorityResult} (hgood : w.process.Good g w.disk)
    (h : Answer g w operation result w') : w.process.Answered g w.disk (w'.process, result) w'.disk :=
  ((operation.answers hgood).executes h).2

theorem good_fresh (disk : Disk) : ({} : ConfigurationTransaction).Good g disk where
  mirrored havailable := absurd havailable (by decide)
  untouched _ _ := rfl

theorem Step.good (hgood : w.process.Good g w.disk) (h : Step g w w') : w'.process.Good g w'.disk := by
  cases h with
  | operates h =>
    obtain ⟨operation, result, h⟩ := h
    exact (h.answered hgood).good
  | crashes h =>
    obtain ⟨_, _, hfresh⟩ := h
    rw [hfresh]
    exact good_fresh w'.disk
  | losesPower h =>
    obtain ⟨_, _, _, hfresh⟩ := h
    rw [hfresh]
    exact good_fresh w'.disk

/-- Every run keeps the memory of the process to the files. -/
theorem good_run (hgood : w.process.Good g w.disk) (h : Relation.ReflTransGen (Step g) w w') :
    w'.process.Good g w'.disk := by
  induction h with
  | refl => exact hgood
  | tail _ hstep ih => exact hstep.good ih

/-- A process keeps its start until it fails. -/
theorem Operates.initialized (hgood : w.process.Good g w.disk) (h : Operates g w w')
    (hkept : w.process.failed = false → w.process.initialized = true) :
    w'.process.failed = false → w'.process.initialized = true := by
  obtain ⟨operation, result, h⟩ := h
  have hanswered := h.answered hgood
  intro hfailed
  by_cases hsuccess : result.success = true
  · exact hanswered.initialized hsuccess
  · obtain ⟨hsame, -⟩ := hanswered.unchanged (by simpa using hsuccess) hfailed
    dsimp only at hsame
    rw [hsame] at hfailed ⊢
    exact hkept hfailed

/-- After a start, and until the process gives up its authority, its memory is what the files say; an
operation that is refused leaves both as they were. -/
theorem memory_never_drifts (g : Setting) {fresh started w : World} {result : AuthorityResult}
    (hfresh : fresh.process = {}) (hstart : Answer g fresh .initializeAuthority result started) (hsuccess : result.success = true)
    (hrun : Relation.ReflTransGen (Operates g) started w) :
    (w.process.failed = false → w.process.Mirrored g w.disk) ∧
      ∀ operation result w', Answer g w operation result w' → result.success = false → w'.process.failed = false →
        w'.process = w.process ∧ w'.disk = w.disk := by
  have hfirst : fresh.process.Good g fresh.disk := by
    rw [hfresh]
    exact good_fresh fresh.disk
  have hstarted := hstart.answered hfirst
  have hkept : w.process.Good g w.disk ∧ (w.process.failed = false → w.process.initialized = true) := by
    induction hrun with
    | refl => exact ⟨hstarted.good, fun _ => hstarted.initialized hsuccess⟩
    | tail _ hstep ih => exact ⟨(Step.operates hstep).good ih.1, hstep.initialized ih.1 ih.2⟩
  refine ⟨fun hfailed => hkept.1.mirrored ?_, fun operation result w' h => (h.answered hkept.1).unchanged⟩
  simp [ConfigurationTransaction.unavailable, hfailed, hkept.2 hfailed]

end Steps

section Dependable
variable {g : Setting} {generations : QString → Except QString VerifiedGeneration} {disk : Disk}

@[simp] theorem openStore_served : openStore.runWith (serve generations) disk = (.ok (), disk) := rfl

@[simp] theorem openGenerations_served : openGenerations.runWith (serve generations) disk = (.ok (), disk) := rfl

@[simp] theorem readStore_served (file : StoreFile) :
    (readStore file).runWith (serve generations) disk = (readAnswer file (disk.files file), disk) := rfl

@[simp] theorem writeStore_served (file : StoreFile) (bytes : QByteArray) :
    (writeStore file bytes).runWith (serve generations) disk = writeAnswer disk file bytes := rfl

theorem answer_served (generations : QString → Except QString VerifiedGeneration) {w : World} (operation : Operation g) {w' : World} {result : AuthorityResult}
    (h : (operation.run g w.process).runWith (serve generations) w.disk = ((w'.process, result), w'.disk)) :
    Answer g w operation result w' := by
  have hx := executes_runWith (w := w.disk) (effect_serve generations) (operation.run g w.process)
  rw [h] at hx
  exact hx

/-- The disk of a first start: only the desired state is there. -/
def Disk.ofDesired (bytes : QByteArray) : Disk :=
  let files := Function.update (fun _ => none) .desired (some bytes)
  { files, durable := files }

/-- The process that has read it. -/
def ConfigurationTransaction.holding (g : Setting) (state : DesiredState) : ConfigurationTransaction where
  initialized := true
  loadState := qstr "normal"
  desired := state
  desiredBytes := serializeDesiredState g.platform state
  desiredDigest := g.platform.sha256 (serializeDesiredState g.platform state)

theorem start_served {state : DesiredState} (h : Spells g (serializeDesiredState g.platform state) state)
    (hwritable : state.readOnly = false) (hsize : (serializeDesiredState g.platform state).length ≤ maximumDesiredStateBytes) :
    (ConfigurationTransaction.initializeAuthority g {}).runWith (serve generations)
        (.ofDesired (serializeDesiredState g.platform state)) =
      ((.holding g state, { success := true, snapshot := (ConfigurationTransaction.holding g state).snapshot g }),
        .ofDesired (serializeDesiredState g.platform state)) := by
  have hsize : (serializeDesiredState g.platform state).length ≤ StoreFile.desired.maximumBytes := hsize
  simp [ConfigurationTransaction.initializeAuthority, ConfigurationTransaction.reconcilePending, Disk.ofDesired, readAnswer, hsize,
    ConfigurationTransaction.loadSnapshots, ConfigurationTransaction.loadRead, ConfigurationTransaction.unreadable,
    ConfigurationTransaction.loadDesiredBytes, ConfigurationTransaction.loadDesired, h.compatible, current_of_fresh,
    ConfigurationTransaction.loadUnless, ConfigurationTransaction.loadMirrors, ConfigurationTransaction.migrateDesired,
    ConfigurationTransaction.succeed, ConfigurationTransaction.holding, hwritable, Lineage.migrates]

end Dependable

section Sample

def sampleSetting : Setting where
  platform := displayPlatform
  catalog := sampleCatalog
  actions := sampleActionCatalog
  configRoot := qstr "/home/user/.config/hypr"
  managedConfigRoot := qstr "/home/user/.config/hypr/managed"
  hexDigests := hexDigest_sample

theorem sample_spelled {state : DesiredState} (h : SampleChecks state) :
    Spells sampleSetting (serializeDesiredState displayPlatform state) state where
  parsed := (desiredStateCodec_exact displayPlatform sampleCatalog sampleActionCatalog _ state h.parsed h.size).1
  serialized := rfl

theorem sampleBaseline_spelled : Spells sampleSetting (serializeDesiredState displayPlatform sampleBaseline) sampleBaseline :=
  sample_spelled sampleBaseline_checks

def sampleDisk : Disk := .ofDesired (serializeDesiredState displayPlatform sampleBaseline)

theorem sample_starts :
    Answer sampleSetting { disk := sampleDisk } .initializeAuthority
      { success := true, snapshot := (ConfigurationTransaction.holding sampleSetting sampleBaseline).snapshot sampleSetting }
      { process := .holding sampleSetting sampleBaseline, disk := sampleDisk } :=
  answer_served (fun _ => .error []) _ (start_served sampleBaseline_spelled rfl sampleBaseline_checks.size)

end Sample
end HyprShelld.Compositor
