import HyprShelld.Authority.Runs
import HyprShelld.Desired.Revision

/-! A replacement whose answer was lost may be asked for again. -/
namespace HyprShelld.Compositor
open Hyprland Program

namespace ConfigurationTransaction
variable {g : Setting} {t t' : ConfigurationTransaction} {disk : Disk} {expectedRevision : UInt64} {candidateBytes : QByteArray}
  {state : DesiredState}

theorem readCandidate_spelled (h : Spells g candidateBytes state) (hwritable : state.readOnly = false) :
    readCandidate g state.revision candidateBytes = .ok state := by
  unfold readCandidate
  rw [h.parsed]
  simp [ValidationResult.ok, hwritable]

theorem readCandidate_elsewhere (h : Spells g candidateBytes state) (hne : state.revision ≠ expectedRevision) :
    readCandidate g expectedRevision candidateBytes =
      .error (qstr "The candidate must embed the current expected revision") := by
  simp [readCandidate, h.parsed, ValidationResult.ok, hne]

section Success

/-- What a successful replacement leaves: the candidate under the next revision, or the candidate as it was. -/
structure Replaced (g : Setting) (t : ConfigurationTransaction) (expectedRevision : UInt64) (state : DesiredState) : Prop where
  available : t.unavailable = false
  writable : t.desired.readOnly = false
  held : (expectedRevision ≠ maximumRevision ∧ t.desired.revision = expectedRevision + 1 ∧
      t.desiredBytes = serializeDesiredState g.platform { state with revision := expectedRevision + 1 }) ∨
    (t.desired.revision = expectedRevision ∧ t.desiredBytes = serializeDesiredState g.platform state)

def Replaces (g : Setting) (expectedRevision : UInt64) (candidateBytes : QByteArray)
    (r : ConfigurationTransaction × AuthorityResult) (_ : Disk) : Prop :=
  r.2.success = true → r.2.snapshot = r.1.snapshot g ∧
    ∃ state, readCandidate g expectedRevision candidateBytes = .ok state ∧ r.1.Replaced g expectedRevision state

theorem refuse_replaces {code : String} {message : QString} :
    (t.refuse g code message).wp Effect anywhere (Replaces g expectedRevision candidateBytes) disk :=
  ⟨trivial, fun h => absurd h (by simp [fail])⟩

theorem succeed_replaces (hread : readCandidate g expectedRevision candidateBytes = .ok state)
    (h : t.Replaced g expectedRevision state) :
    (t.succeed g).wp Effect anywhere (Replaces g expectedRevision candidateBytes) disk :=
  ⟨trivial, fun _ => ⟨rfl, state, hread, h⟩⟩

theorem publishDesired_replaces (havailable : t.unavailable = false)
    (hread : readCandidate g expectedRevision candidateBytes = .ok state) (hrevision : expectedRevision ≠ maximumRevision) :
    (t.publishDesired g { state with revision := expectedRevision + 1 }).wp Effect anywhere
      (Replaces g expectedRevision candidateBytes) disk := by
  unfold publishDesired
  dsimp only
  split
  · exact refuse_replaces
  · split
    · exact refuse_replaces
    · refine wp_bind.mpr (writeStore_wp trivial (fun _ => ⟨trivial, succeed_replaces hread ?_⟩) (fun _ => refuse_replaces)
        fun _ _ => ⟨trivial, refuse_replaces⟩)
      exact ⟨havailable, (readCandidate_ok hread).2.1, .inl ⟨hrevision, rfl, rfl⟩⟩

/-- How a replacement succeeds. -/
theorem replaceSnapshot_replaces : (t.replaceSnapshot g expectedRevision candidateBytes).wp Effect anywhere
    (Replaces g expectedRevision candidateBytes) disk := by
  unfold replaceSnapshot
  split
  · exact refuse_replaces
  · rename_i havailable
    have havailable : t.unavailable = false := by simpa using havailable
    split
    · exact refuse_replaces
    · rename_i hwritable
      have hwritable : t.desired.readOnly = false := by simpa using hwritable
      dsimp only
      split
      · exact refuse_replaces
      · rename_i htoken
        split
        · exact refuse_replaces
        · rename_i state hread
          split
          · rename_i hretry
            unfold retryReplace
            split
            · rename_i hsame
              refine succeed_replaces hread ⟨havailable, hwritable, .inl ⟨hretry.1, hretry.2.symm, ?_⟩⟩
              rw [← hsame, hretry.2]
            · exact refuse_replaces
          · rename_i hretry
            split
            · exact refuse_replaces
            · split
              · rename_i hsame
                have hcurrent : expectedRevision = t.desired.revision := by tauto
                exact succeed_replaces hread ⟨havailable, hwritable, .inr ⟨hcurrent.symm, hsame.symm⟩⟩
              · split
                · exact refuse_replaces
                · rename_i hrevision
                  exact publishDesired_replaces havailable hread hrevision

end Success

section Again
variable (havailable : t.unavailable = false) (hwritable : t.desired.readOnly = false)

include havailable hwritable

/-- The token before the current one decides between a retry and a stale write, without a call to the stores. -/
theorem replaceSnapshot_preceding (hrevision : expectedRevision ≠ maximumRevision)
    (hpreceding : t.desired.revision = expectedRevision + 1) :
    t.replaceSnapshot g expectedRevision candidateBytes =
      match readCandidate g expectedRevision candidateBytes with
      | .error message => t.refuse g "InvalidSnapshot" message
      | .ok state => t.retryReplace g state := by
  have hstale : ¬ (¬ expectedRevision = t.desired.revision ∧
      ¬ (expectedRevision ≠ maximumRevision ∧ expectedRevision + 1 = t.desired.revision)) :=
    fun h => h.2 ⟨hrevision, hpreceding.symm⟩
  unfold replaceSnapshot
  rw [if_neg (by simp [havailable]), if_neg (by simp [hwritable])]
  dsimp only
  rw [if_neg hstale]
  cases readCandidate g expectedRevision candidateBytes with
  | error message => rfl
  | ok state => exact if_pos ⟨hrevision, hpreceding.symm⟩

theorem replaceSnapshot_current (hcurrent : t.desired.revision = expectedRevision)
    (hread : readCandidate g expectedRevision candidateBytes = .ok state)
    (hsame : t.desiredBytes = serializeDesiredState g.platform state) :
    t.replaceSnapshot g expectedRevision candidateBytes =
      if t.pending.isSome then
        t.refuse g "ConfirmationPending" (qstr "A compositor transaction is already pending")
      else t.succeed g := by
  have hne : ¬ expectedRevision + 1 = expectedRevision := by grind
  unfold replaceSnapshot
  simp [havailable, hwritable, hcurrent, hread, hsame, hne]

end Again

theorem snapshot_of_available (havailable : t.unavailable = false) (hspelled : Spells g t.desiredBytes t.desired) :
    (t.snapshot g).desiredState = t.desiredBytes ∧ (t.snapshot g).revision = t.desired.revision := by
  have hbytes : t.desiredBytes.isEmpty = false := by
    rw [← hspelled.serialized]
    simp [serializeDesiredState]
  simp [snapshot, havailable, hbytes]

/-- The same candidate is what the memory still holds. -/
theorem Replaced.transport (h : t.Replaced g expectedRevision state) (havailable : t'.unavailable = false)
    (hdesired : t'.desired = t.desired) (hbytes : t'.desiredBytes = t.desiredBytes) : t'.Replaced g expectedRevision state := by
  refine ⟨havailable, ?_, ?_⟩
  · rw [hdesired]
    exact h.writable
  · rw [hdesired, hbytes]
    exact h.held

end ConfigurationTransaction

section Retries
open ConfigurationTransaction
variable {g : Setting} {expectedRevision : UInt64} {candidateBytes : QByteArray}

/-- The first answer again, from memory: no call is made and nothing changes. -/
def Repeats (g : Setting) (t : ConfigurationTransaction) (expectedRevision : UInt64) (candidateBytes : QByteArray)
    (first : AuthorityResult) : Prop :=
  ∃ again : AuthorityResult, t.replaceSnapshot g expectedRevision candidateBytes = .done (t, again) ∧ again.success = true ∧
    again.snapshot.desiredState = first.snapshot.desiredState ∧ again.snapshot.revision = first.snapshot.revision

/-- Every other candidate at a spent token is refused, and nothing changes. -/
structure RefusesOthers (g : Setting) (t : ConfigurationTransaction) (expectedRevision : UInt64) (state : DesiredState) : Prop where
  stale : ∀ other otherState, readCandidate g expectedRevision other = .ok otherState → otherState ≠ state →
    t.replaceSnapshot g expectedRevision other = t.refuse g "StaleRevision" desiredRevisionChanged
  invalid : ∀ other message, readCandidate g expectedRevision other = .error message →
    t.replaceSnapshot g expectedRevision other = t.refuse g "InvalidSnapshot" message

theorem refusesOthers {t : ConfigurationTransaction} {state : DesiredState} (hm : Spells g t.desiredBytes t.desired)
    (havailable : t.unavailable = false) (hwritable : t.desired.readOnly = false)
    (hread : readCandidate g expectedRevision candidateBytes = .ok state)
    (hrevision : expectedRevision ≠ maximumRevision) (hpreceding : t.desired.revision = expectedRevision + 1)
    (hbytes : t.desiredBytes = serializeDesiredState g.platform { state with revision := expectedRevision + 1 }) :
    RefusesOthers g t expectedRevision state where
  invalid other message hother := by
    rw [replaceSnapshot_preceding havailable hwritable hrevision hpreceding, hother]
  stale other otherState hother hne := by
    rw [replaceSnapshot_preceding havailable hwritable hrevision hpreceding, hother]
    change t.retryReplace g otherState = _
    unfold retryReplace
    rw [if_neg]
    intro hsame
    -- both candidates are the desired state under their own revision
    obtain ⟨hstate, heditable, hembedded⟩ := readCandidate_ok hread
    obtain ⟨hotherState, hotherEditable, hotherEmbedded⟩ := readCandidate_ok hother
    have hparsed := congrArg ValidationResult.value hm.parsed
    have h1 : t.desired = { state with revision := expectedRevision + 1 } :=
      parsed_revision (congrArg ValidationResult.value hstate) heditable (by rw [← hbytes]; exact hparsed)
    have h2 : t.desired = { otherState with revision := expectedRevision + 1 } :=
      parsed_revision (congrArg ValidationResult.value hotherState) hotherEditable (by rw [← hpreceding, hsame]; exact hparsed)
    apply hne
    have hback : { otherState with revision := expectedRevision } = { state with revision := expectedRevision } :=
      congrArg (fun s : DesiredState => { s with revision := expectedRevision }) (h2.symm.trans h1)
    have hself : ∀ s : DesiredState, s.revision = expectedRevision → { s with revision := expectedRevision } = s := by
      intro s hs
      rw [← hs]
    rwa [hself _ hembedded, hself _ hotherEmbedded] at hback

/-- A replacement that advanced the revision is repeated from memory by every later process that finds the
desired file as it was left, whatever happened in between; nothing else is accepted at its token. One that
found its candidate in place leaves the token as it is, and is repeated while no transaction is pending. -/
theorem replaceSnapshot_retries (g : Setting) {fresh before after later : World} {first : AuthorityResult}
    {expectedRevision : UInt64} {candidateBytes : QByteArray} (hfresh : fresh.process = {})
    (hreached : Relation.ReflTransGen (Step g) fresh before)
    (hreplaced : Answer g before (.replaceSnapshot expectedRevision candidateBytes) first after) (hsuccess : first.success = true)
    (hlater : Relation.ReflTransGen (Step g) after later) (hkept : later.disk.files .desired = after.disk.files .desired)
    (havailable : later.process.unavailable = false) :
    ∃ state, readCandidate g expectedRevision candidateBytes = .ok state ∧
      ((expectedRevision ≠ maximumRevision ∧ first.snapshot.revision = expectedRevision + 1 ∧
          Repeats g later.process expectedRevision candidateBytes first ∧ RefusesOthers g later.process expectedRevision state) ∨
        (first.snapshot.revision = expectedRevision ∧
          if later.process.pending.isSome then later.process.replaceSnapshot g expectedRevision candidateBytes =
            later.process.refuse g "ConfirmationPending" (qstr "A compositor transaction is already pending")
          else Repeats g later.process expectedRevision candidateBytes first)) := by
  have hgood : before.process.Good g before.disk := by
    refine good_run ?_ hreached
    rw [hfresh]
    exact good_fresh fresh.disk
  have hafter := (hreplaced.answered hgood).good
  obtain ⟨hsnapshot, state, hread, hheld⟩ := (replaceSnapshot_replaces.executes hreplaced).2 hsuccess
  have hm := hafter.mirrored hheld.available
  have hm' := (good_run hafter hlater).mirrored havailable
  have hbytes : later.process.desiredBytes = after.process.desiredBytes :=
    Option.some.inj (hm'.desired.symm.trans (hkept.trans hm.desired))
  have hdesired : later.process.desired = after.process.desired := by
    have hspelled := hm'.spelled
    rw [hbytes] at hspelled
    exact hm.spelled.unique hspelled
  have hlaterHeld := hheld.transport havailable hdesired hbytes
  obtain ⟨hfirstBytes, hfirstRevision⟩ := snapshot_of_available hheld.available hm.spelled
  obtain ⟨hagainBytes, hagainRevision⟩ := snapshot_of_available havailable hm'.spelled
  dsimp only at hsnapshot
  have hrepeats : later.process.replaceSnapshot g expectedRevision candidateBytes = later.process.succeed g →
      Repeats g later.process expectedRevision candidateBytes first := by
    intro hsucceeds
    refine ⟨_, hsucceeds, rfl, ?_, ?_⟩
    · rw [hsnapshot, hfirstBytes, ← hbytes]
      exact hagainBytes
    · rw [hsnapshot, hfirstRevision, ← hdesired]
      exact hagainRevision
  refine ⟨state, hread, ?_⟩
  rcases hlaterHeld.held with ⟨hrevision, hpreceding, hcanonical⟩ | ⟨hcurrent, hcanonical⟩
  · refine .inl ⟨hrevision, ?_, hrepeats ?_, ?_⟩
    · rw [hsnapshot, hfirstRevision, ← hdesired, hpreceding]
    · rw [replaceSnapshot_preceding havailable hlaterHeld.writable hrevision hpreceding, hread]
      change later.process.retryReplace g state = _
      unfold retryReplace
      rw [if_pos]
      rw [hpreceding, hcanonical]
    · exact refusesOthers hm'.spelled havailable hlaterHeld.writable hread hrevision hpreceding hcanonical
  · refine .inr ⟨by rw [hsnapshot, hfirstRevision, ← hdesired, hcurrent], ?_⟩
    have hanswer := replaceSnapshot_current havailable hlaterHeld.writable hcurrent hread hcanonical
    split
    · rename_i hpending
      rw [hanswer, if_pos hpending]
    · rename_i hpending
      rw [if_neg hpending] at hanswer
      exact hrepeats hanswer

end Retries

section Dependable
open ConfigurationTransaction
variable {generations : QString → Except QString VerifiedGeneration}

/-- A replacement over a store without faults. -/
theorem replace_served (g : Setting) (base state next : DesiredState)
    (hstate : Spells g (serializeDesiredState g.platform state) state)
    (hnext : Spells g (serializeDesiredState g.platform next) next) (hbase : base.readOnly = false)
    (hwritable : state.readOnly = false) (hembedded : state.revision = base.revision)
    (hrevision : base.revision ≠ maximumRevision) (heq : next = { state with revision := base.revision + 1 })
    (hchanged : serializeDesiredState g.platform state ≠ serializeDesiredState g.platform base)
    (hsafe : validateManagedActivationSafety next g.catalog = [])
    (hsize : (serializeDesiredState g.platform next).length ≤ maximumDesiredStateBytes) :
    ((holding g base).replaceSnapshot g base.revision (serializeDesiredState g.platform state)).runWith (serve generations)
        (.ofDesired (serializeDesiredState g.platform base)) =
      ((holding g next, { success := true, snapshot := (holding g next).snapshot g }),
        .ofDesired (serializeDesiredState g.platform next)) := by
  have hread := readCandidate_spelled hstate hwritable
  rw [hembedded] at hread
  have hne : ¬ base.revision + 1 = base.revision := by grind
  have haccepted : accepted .desired (serializeDesiredState g.platform next) := ⟨by simp [serializeDesiredState], hsize⟩
  have hdisk : ((Disk.ofDesired (serializeDesiredState g.platform base)).put .desired
      (some (serializeDesiredState g.platform next))).sync = .ofDesired (serializeDesiredState g.platform next) := by
    simp [Disk.ofDesired, Disk.put, Disk.sync]
  simp [replaceSnapshot, holding, unavailable, hbase, hread, hne, hrevision, hchanged, ← heq, publishDesired, hnext.parsed,
    ValidationResult.ok, hsafe, writeAnswer, haccepted, hdisk, succeed]

theorem edits_served (g : Setting) (base state next : DesiredState)
    (hstate : Spells g (serializeDesiredState g.platform state) state)
    (hnext : Spells g (serializeDesiredState g.platform next) next) (hbase : base.readOnly = false)
    (hwritable : state.readOnly = false) (hembedded : state.revision = base.revision)
    (hrevision : base.revision ≠ maximumRevision) (heq : next = { state with revision := base.revision + 1 })
    (hchanged : serializeDesiredState g.platform state ≠ serializeDesiredState g.platform base)
    (hsafe : validateManagedActivationSafety next g.catalog = [])
    (hsize : (serializeDesiredState g.platform next).length ≤ maximumDesiredStateBytes) :
    Answer g ⟨holding g base, .ofDesired (serializeDesiredState g.platform base)⟩
      (.replaceSnapshot base.revision (serializeDesiredState g.platform state))
      { success := true, snapshot := (holding g next).snapshot g }
      ⟨holding g next, .ofDesired (serializeDesiredState g.platform next)⟩ :=
  answer_served (fun _ => .error []) _ (replace_served g base state next hstate hnext hbase hwritable hembedded hrevision heq
    hchanged hsafe hsize)

theorem keeps_served (g : Setting) (base : DesiredState) (disk : Disk)
    (hbase : Spells g (serializeDesiredState g.platform base) base) (hwritable : base.readOnly = false) :
    Answer g ⟨holding g base, disk⟩ (.replaceSnapshot base.revision (serializeDesiredState g.platform base))
      { success := true, snapshot := (holding g base).snapshot g } ⟨holding g base, disk⟩ := by
  have hread := readCandidate_spelled hbase hwritable
  have hanswer : (holding g base).replaceSnapshot g base.revision (serializeDesiredState g.platform base) =
      (holding g base).succeed g := replaceSnapshot_current rfl hwritable rfl hread rfl
  unfold Answer Operation.run
  dsimp only
  rw [hanswer]
  exact .done _ _

/-- A candidate that embeds the revision after the token it is sent with. -/
theorem moved_refused (g : Setting) (next : DesiredState) (expectedRevision : UInt64)
    (hnext : Spells g (serializeDesiredState g.platform next) next) (hwritable : next.readOnly = false)
    (hrevision : expectedRevision ≠ maximumRevision) (hpreceding : next.revision = expectedRevision + 1) :
    (holding g next).replaceSnapshot g expectedRevision (serializeDesiredState g.platform next) =
      (holding g next).refuse g "InvalidSnapshot" (qstr "The candidate must embed the current expected revision") := by
  have hne : next.revision ≠ expectedRevision := by
    rw [hpreceding]
    grind
  have hanswer : (holding g next).replaceSnapshot g expectedRevision (serializeDesiredState g.platform next) = _ :=
    replaceSnapshot_preceding rfl hwritable hrevision hpreceding
  rw [readCandidate_elsewhere hnext hne] at hanswer
  exact hanswer

end Dependable

section Sample
open ConfigurationTransaction

/-- What a client asks for at revision 7. -/
def sampleEdited : DesiredState := { sampleNext with revision := 7 }

theorem sampleEdited_spelled : Spells sampleSetting (serializeDesiredState displayPlatform sampleEdited) sampleEdited :=
  sample_spelled sampleEdit_checks

theorem sampleNext_spelled : Spells sampleSetting (serializeDesiredState displayPlatform sampleNext) sampleNext :=
  sample_spelled sampleNext_checks

/-- Different states are spelled differently. -/
theorem spelled_ne {state other : DesiredState} (h : Spells sampleSetting (serializeDesiredState displayPlatform state) state)
    (h' : Spells sampleSetting (serializeDesiredState displayPlatform other) other) (hne : state ≠ other) :
    serializeDesiredState displayPlatform state ≠ serializeDesiredState displayPlatform other := by
  intro heq
  rw [← heq] at h'
  exact hne (h'.unique h)

def sampleWorld : World := { process := .holding sampleSetting sampleBaseline, disk := sampleDisk }

/-- The memory and the disk once the edit was written. -/
def sampleReplaced : World where
  process := .holding sampleSetting sampleNext
  disk := .ofDesired (serializeDesiredState displayPlatform sampleNext)

def answerOf (w : World) : AuthorityResult := { success := true, snapshot := w.process.snapshot sampleSetting }

theorem sampleNext_safe : validateManagedActivationSafety sampleNext sampleCatalog = [] := by decide +kernel

theorem sample_edits : Answer sampleSetting sampleWorld
    (.replaceSnapshot 7 (serializeDesiredState displayPlatform sampleEdited)) (answerOf sampleReplaced) sampleReplaced :=
  edits_served sampleSetting sampleBaseline sampleEdited sampleNext sampleEdited_spelled sampleNext_spelled rfl rfl rfl
    (by decide) rfl (spelled_ne sampleEdited_spelled sampleBaseline_spelled (by decide)) sampleNext_safe sampleNext_checks.size

/-- The token is spent, and the candidate that is sent with it embeds the next revision. -/
theorem sample_refuses : Answer sampleSetting sampleReplaced (.replaceSnapshot 7 (serializeDesiredState displayPlatform sampleNext))
    (sampleReplaced.process.fail sampleSetting "InvalidSnapshot" (qstr "The candidate must embed the current expected revision"))
    sampleReplaced := by
  have hrefused : sampleReplaced.process.replaceSnapshot sampleSetting 7 (serializeDesiredState displayPlatform sampleNext) = _ :=
    moved_refused sampleSetting sampleNext 7 sampleNext_spelled rfl (by decide) rfl
  unfold Answer Operation.run
  dsimp only
  rw [hrefused]
  exact .done _ _

/-- The memory is what the files say after an edit, and after a call that was refused. -/
theorem memory_never_drifts_sample : sampleReplaced.process.Mirrored sampleSetting sampleReplaced.disk ∧
    ∃ result w', Answer sampleSetting sampleReplaced (.replaceSnapshot 7 (serializeDesiredState displayPlatform sampleNext)) result w' ∧
      result.success = false ∧ w'.process = sampleReplaced.process ∧ w'.disk = sampleReplaced.disk := by
  have h := memory_never_drifts sampleSetting rfl sample_starts rfl (.single ⟨_, _, sample_edits⟩)
  exact ⟨h.1 rfl, _, _, sample_refuses, rfl, h.2 _ _ _ sample_refuses rfl rfl⟩

theorem sample_keeps : Answer sampleSetting sampleWorld
    (.replaceSnapshot 7 (serializeDesiredState displayPlatform sampleBaseline)) (answerOf sampleWorld) sampleWorld :=
  keeps_served sampleSetting sampleBaseline sampleDisk sampleBaseline_spelled rfl

theorem sample_restarts : Answer sampleSetting { disk := sampleReplaced.disk } .initializeAuthority
    (answerOf sampleReplaced) sampleReplaced :=
  answer_served (fun _ => .error []) _ (start_served sampleNext_spelled rfl sampleNext_checks.size)

/-- A replacement that found its candidate in place does not spend its token: another candidate is accepted
at it. Where the token was spent, a candidate that embeds another revision is no stale write but invalid. -/
theorem replaceSnapshot_retries_counterexample :
    Answer sampleSetting { disk := sampleDisk } .initializeAuthority (answerOf sampleWorld) sampleWorld ∧
      Answer sampleSetting sampleWorld (.replaceSnapshot 7 (serializeDesiredState displayPlatform sampleBaseline))
        (answerOf sampleWorld) sampleWorld ∧
      (parseDesiredState displayPlatform (serializeDesiredState displayPlatform sampleEdited) sampleCatalog
        sampleActionCatalog).value = some sampleEdited ∧ sampleEdited ≠ sampleBaseline ∧
      Answer sampleSetting sampleWorld (.replaceSnapshot 7 (serializeDesiredState displayPlatform sampleEdited))
        (answerOf sampleReplaced) sampleReplaced ∧
      (answerOf sampleReplaced).success = true ∧ sampleReplaced.disk.files .desired ≠ sampleWorld.disk.files .desired ∧
      sampleReplaced.process.replaceSnapshot sampleSetting 7 (serializeDesiredState displayPlatform sampleNext) =
        sampleReplaced.process.refuse sampleSetting "InvalidSnapshot"
          (qstr "The candidate must embed the current expected revision") :=
  ⟨sample_starts, sample_keeps, congrArg ValidationResult.value sampleEdited_spelled.parsed, by decide, sample_edits, rfl,
    fun h => spelled_ne sampleNext_spelled sampleBaseline_spelled (by decide) (Option.some.inj h),
    moved_refused sampleSetting sampleNext 7 sampleNext_spelled rfl (by decide) rfl⟩

/-- The edit is repeated by the process that starts after a crash. -/
theorem replaceSnapshot_retries_sample :
    Repeats sampleSetting sampleReplaced.process 7 (serializeDesiredState displayPlatform sampleEdited)
      (answerOf sampleReplaced) := by
  have hstarted : Relation.ReflTransGen (Step sampleSetting) { disk := sampleDisk } sampleWorld :=
    .single (.operates ⟨.initializeAuthority, _, sample_starts⟩)
  have hcrashed : Step sampleSetting sampleReplaced { disk := sampleReplaced.disk } :=
    .crashes ⟨.initializeAuthority, .cut _ _, rfl⟩
  have hrestarted : Step sampleSetting { disk := sampleReplaced.disk } sampleReplaced :=
    .operates ⟨.initializeAuthority, _, sample_restarts⟩
  have hlater : Relation.ReflTransGen (Step sampleSetting) sampleReplaced sampleReplaced :=
    .head hcrashed (.single hrestarted)
  obtain ⟨state, -, h⟩ := replaceSnapshot_retries sampleSetting rfl hstarted sample_edits rfl hlater rfl rfl
  rcases h with ⟨-, -, h, -⟩ | ⟨h, -⟩
  · exact h
  · have hspelled : Spells sampleSetting (holding sampleSetting sampleNext).desiredBytes (holding sampleSetting sampleNext).desired :=
      sampleNext_spelled
    have hrevision : (answerOf sampleReplaced).snapshot.revision = sampleNext.revision := (snapshot_of_available rfl hspelled).2
    rw [hrevision] at h
    exact absurd h (by decide)

end Sample
end HyprShelld.Compositor
