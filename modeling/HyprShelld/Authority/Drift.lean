import HyprShelld.Authority.Mirrors

/-! In-memory state never drifts from the disk: every operation keeps the mirrors, and an error that does not
give up the authority changes nothing. -/
namespace HyprShelld.Compositor
open Hyprland Program

namespace ConfigurationTransaction
variable {g : Setting} {t : ConfigurationTransaction} {disk : Disk}

theorem persistenceFailed_answers (hgood : t.Good g disk) {message : QString} :
    Answers g t disk (t.persistenceFailed g (.failure message)) disk := refuse_answers hgood

theorem persistenceFailed_failed {m : Disk} {message : QString} :
    Answers g t disk (t.persistenceFailed g (.committedButNotDurable message)) m := refuse_failed rfl

section Replacing

theorem readCandidate_ok {expectedRevision : UInt64} {candidateBytes : QByteArray} {state : DesiredState}
    (h : readCandidate g expectedRevision candidateBytes = .ok state) :
    parseDesiredState g.platform candidateBytes g.catalog g.actions = ⟨some state, []⟩ ∧ state.readOnly = false ∧
      state.revision = expectedRevision := by
  unfold readCandidate at h
  dsimp only at h
  split at h
  · cases h
  · rename_i parsed hparsed
    split_ifs at h with hedit
    cases h
    simp only [Bool.and_eq_true, Bool.not_eq_true', decide_eq_true_eq] at hedit
    refine ⟨?_, hedit⟩
    revert hparsed
    generalize parseDesiredState g.platform candidateBytes g.catalog g.actions = result
    obtain ⟨value, errors⟩ := result
    intro hparsed
    split_ifs at hparsed with hok
    have hvalue : value = some state := hparsed
    subst hvalue
    simp only [ValidationResult.ok, Option.isSome_some, Bool.true_and, List.isEmpty_iff] at hok
    rw [hok]

theorem publishDesired_answers (hgood : t.Good g disk) (havailable : t.unavailable = false) (hpending : t.pending = none)
    (next : DesiredState) : Answers g t disk (t.publishDesired g next) disk := by
  unfold publishDesired
  dsimp only
  split
  · exact refuse_answers hgood
  · rename_i hvalid
    split
    · exact refuse_answers hgood
    · refine wp_bind.mpr (writeStore_wp trivial ?_ ?_ ?_)
      · refine fun _ => ⟨trivial, Mirrored.succeed_answers ?_ (initialized_of havailable)⟩
        have hm := hgood.mirrored havailable
        simp only [Bool.not_eq_true', Bool.not_eq_false, Bool.and_eq_true, decide_eq_true_eq] at hvalid
        exact {
          desired := by simp [files_put]
          digest := rfl
          spelled := spells_of_parse hvalid.1 hvalid.2
          applied := hm.applied.frame rfl rfl rfl (by simp [files_put]) (by simp [files_put])
          pending := by simpa [files_put] using hm.pending
          journal := fun record hrecord => absurd (hpending.symm.trans hrecord) (by simp) }
      · exact fun _ => persistenceFailed_answers hgood
      · exact fun _ _ => ⟨trivial, persistenceFailed_failed⟩

theorem replaceSnapshot_answers (hgood : t.Good g disk) (expectedRevision : UInt64) (candidateBytes : QByteArray) :
    Answers g t disk (t.replaceSnapshot g expectedRevision candidateBytes) disk := by
  unfold replaceSnapshot
  split
  · exact refuse_answers hgood
  · rename_i havailable
    split
    · exact refuse_answers hgood
    · dsimp only
      split
      · exact refuse_answers hgood
      · split
        · exact refuse_answers hgood
        · split
          · unfold retryReplace
            split
            · exact succeed_answers hgood (initialized_of (by simpa using havailable))
            · exact refuse_answers hgood
          · split
            · exact refuse_answers hgood
            · rename_i hpending
              split
              · exact succeed_answers hgood (initialized_of (by simpa using havailable))
              · split
                · exact refuse_answers hgood
                · exact publishDesired_answers hgood (by simpa using havailable) (by simpa using hpending) _

end Replacing

section Preparing

theorem writeJournal_answers (hgood : t.Good g disk) (havailable : t.unavailable = false) {transaction : PendingRecord}
    (hjournal : Journal g transaction) (published : VerifiedGeneration) :
    Answers g t disk (t.writeJournal g transaction published) disk := by
  refine wp_bind.mpr (wpExcept.run (crossCheckGeneration_wp trivial (fun _ => refuse_answers hgood) ?_))
  refine wp_bind.mpr (writeStore_wp trivial ?_ ?_ ?_)
  · refine fun _ => ⟨trivial, trivial, Mirrored.good ?_ (initialized_of havailable), fun h => absurd h (by simp),
      fun _ => initialized_of havailable⟩
    have hm := hgood.mirrored havailable
    exact {
      desired := by simpa [files_put] using hm.desired
      digest := hm.digest
      spelled := hm.spelled
      applied := hm.applied.frame rfl rfl rfl (by simp [files_put]) (by simp [files_put])
      pending := by simp [files_put]
      journal := fun record hrecord => by
        cases hrecord
        exact hjournal }
  · exact fun _ => persistenceFailed_answers hgood
  · exact fun _ _ => ⟨trivial, persistenceFailed_failed⟩

/-- A state that renders is spelled by the bytes written for it. -/
theorem spells_of_rendered {candidate : DesiredState} {root custom nonce : QString} {createdAt : QDateTime}
    {generation : RenderedGeneration}
    (h : (renderGeneration g.platform candidate g.catalog g.actions root custom nonce createdAt).value = some generation) :
    Spells g (serializeDesiredState g.platform candidate) candidate ∧ candidate.readOnly = false := by
  unfold renderGeneration at h
  dsimp only at h
  split_ifs at h with hchecked
  rw [not_not] at hchecked
  simp only [Checked.bind_errors, List.append_eq_nil_iff, checkState, Checked.rejectIf_errors,
    Bool.or_eq_false_iff] at hchecked
  obtain ⟨-, -, hstate, hwritable, -⟩ := hchecked
  have hok : (parseDesiredState g.platform (serializeDesiredState g.platform candidate) g.catalog g.actions).ok = true := by
    by_contra hbad
    rw [if_pos (by simpa using hbad), Checked.reportAll_errors] at hstate
    have hsome : (parseDesiredState g.platform (serializeDesiredState g.platform candidate) g.catalog
        g.actions).value ≠ none := fun hnone => parseDesiredState_errors hnone hstate
    simp [ValidationResult.ok, hstate, Option.isSome_iff_ne_none.mpr hsome] at hbad
  rw [if_neg (by simp [hok]), Checked.rejectIf_errors, decide_eq_false_iff_not, not_not] at hstate
  exact ⟨spells_of_parse hok hstate, hwritable⟩

theorem stageCandidate_answers (hgood : t.Good g disk) (havailable : t.unavailable = false) {expectedRevision : UInt64}
    {nonce : QString} {createdAt : QDateTime} {kind : PendingKind} {candidate : DesiredState} {candidateBytes : QByteArray}
    (hbytes : candidateBytes = serializeDesiredState g.platform candidate) :
    Answers g t disk (t.stageCandidate g expectedRevision nonce createdAt kind candidate candidateBytes) disk := by
  subst hbytes
  unfold stageCandidate
  dsimp only
  split
  · exact refuse_answers hgood
  · split
    · exact refuse_answers hgood
    · rename_i generation hrendered
      refine wp_bind.mpr (publishGeneration_wp trivial fun answer => ?_)
      cases answer with
      | error message => exact refuse_answers hgood
      | ok published =>
        split_ifs at hrendered
        exact writeJournal_answers hgood havailable ⟨(spells_of_rendered hrendered).1, rfl⟩ published

theorem prepare_answers (hgood : t.Good g disk) (expectedRevision : UInt64) (nonce : QString) (createdAt : QDateTime)
    (recovery : Bool) : Answers g t disk (t.prepare g expectedRevision nonce createdAt recovery) disk := by
  unfold prepare
  split
  · exact refuse_answers hgood
  · rename_i havailable
    have havailable : t.unavailable = false := by simpa using havailable
    split
    · exact refuse_answers hgood
    · split
      · exact refuse_answers hgood
      · split
        · exact refuse_answers hgood
        · split
          · exact stageCandidate_answers hgood havailable rfl
          · split
            · exact refuse_answers hgood
            · split
              · exact refuse_answers hgood
              · exact stageCandidate_answers hgood havailable rfl

theorem prepareDisplayApply_answers (hgood : t.Good g disk) (expectedRevision : UInt64) {profile : DisplayProfile}
    (hprofile : ∃ bytes, (parseDisplayProfile g.platform bytes).value = some profile) (topology : ConnectedDisplayTopology)
    (nonce : QString) (createdAt : QDateTime) :
    Answers g t disk (t.prepareDisplayApply g expectedRevision profile topology nonce createdAt) disk := by
  unfold prepareDisplayApply
  split
  · exact refuse_answers hgood
  · rename_i havailable
    have havailable : t.unavailable = false := by simpa using havailable
    split
    · exact refuse_answers hgood
    · split
      · exact refuse_answers hgood
      · split
        · exact refuse_answers hgood
        · split
          · exact refuse_answers hgood
          · dsimp only
            split
            · exact refuse_answers hgood
            · rename_i value hvalue
              split_ifs at hvalue
              have hbaseline : (parseDesiredState g.platform t.desiredBytes g.catalog g.actions).value = some t.desired := by
                rw [(hgood.mirrored havailable).spelled.parsed]
              exact stageCandidate_answers hgood havailable
                (displayCandidate_exact g.platform g.hexDigests g.catalog g.actions t.desired profile topology value
                  ⟨_, hbaseline⟩ hprofile hvalue).2.1

end Preparing
section Committing

/-- The files once a committing transaction went through. -/
structure CommittedFiles (g : Setting) (record : PendingRecord) (before after : Disk) : Prop where
  desired : after.files .desired = if record.kind.publishesDesired then some record.candidateBytes else before.files .desired
  lastGood : after.files .lastGood = some record.candidateBytes
  activation : after.files .activation = some (appliedBytes g.platform record.after)
  pending : after.files .pending = none

theorem publishCommitted_wp {record : PendingRecord} {stopped : QString → Disk → Prop} {post : Unit → Disk → Prop}
    (hstop : ∀ e m, stopped e m) (h : ∀ m, CommittedFiles g record disk m → post () m) :
    Holds anywhere stopped post (publishCommitted g record) disk := by
  refine wpExcept_bind.mpr (persistentStateMatchesBefore_wp trivial (fun _ => hstop _ _) fun _ => ?_)
  have hdesired : Holds anywhere stopped (fun _ m =>
      m.files .desired = if record.kind.publishesDesired then some record.candidateBytes else disk.files .desired)
      (if record.kind.publishesDesired then writeFile .desired record.candidateBytes else pure ()) disk := by
    split
    · exact writeFile_wp trivial (fun _ => ⟨trivial, by simp [files_put]⟩) (fun _ => hstop _ _) fun _ _ => ⟨trivial, hstop _ _⟩
    · exact ⟨trivial, rfl⟩
  refine wpExcept_bind.mpr (wp.mono hdesired fun r m hr => ?_)
  cases r with
  | error e => exact hstop e m
  | ok _ =>
    refine wpExcept_bind.mpr (writeFile_wp trivial (fun _ => ⟨trivial, ?_⟩) (fun _ => hstop _ _) fun _ _ => ⟨trivial, hstop _ _⟩)
    refine wpExcept_bind.mpr (writeFile_wp trivial (fun _ => ⟨trivial, ?_⟩) (fun _ => hstop _ _) fun _ _ => ⟨trivial, hstop _ _⟩)
    refine removeFile_wp trivial (fun habsent => h _ ?_) (fun _ => ⟨trivial, h _ ?_⟩) (fun _ => hstop _ _)
      fun _ _ => ⟨trivial, hstop _ _⟩
    · exact ⟨by simpa [files_put] using hr, by simp [files_put], by simp [files_put], habsent⟩
    · exact ⟨by simpa [files_put] using hr, by simp [files_put], by simp [files_put], by simp [files_put]⟩

/-- The memory after a commit is what the files say. -/
theorem committed_mirrored {record : PendingRecord} {before m : Disk} (hm : t.Mirrored g before) (hjournal : Journal g record)
    (hfiles : CommittedFiles g record before m) : (t.committed record).Mirrored g m := by
  have happlied : (t.committed record).AppliedMirrored g m := by
    have hfields : (t.committed record).applied = some record.after ∧
        (t.committed record).lastGoodBytes = record.candidateBytes ∧
        (t.committed record).appliedState = some record.candidate := by
      unfold committed
      dsimp only
      split <;> exact ⟨rfl, rfl, rfl⟩
    unfold AppliedMirrored
    rw [hfields.1, hfields.2.1, hfields.2.2]
    exact ⟨hfiles.activation, hfiles.lastGood, _, _, hjournal.candidate.compatible, current_of_fresh _, rfl⟩
  have hdesired := hfiles.desired
  cases hkind : record.kind.publishesDesired with
  | true =>
    rw [if_pos hkind] at hdesired
    have heq : t.committed record = { t.committed record with
        desired := record.candidate, desiredBytes := record.candidateBytes, desiredDigest := record.snapshotDigest } := by
      unfold committed
      dsimp only
      rw [if_pos hkind]
    rw [heq] at happlied ⊢
    exact {
      desired := hdesired
      digest := hjournal.digest
      spelled := hjournal.candidate
      applied := happlied
      pending := by simpa [committed, hkind] using hfiles.pending
      journal := fun _ h => absurd h (by simp [committed, hkind]) }
  | false =>
    rw [if_neg (by simp [hkind])] at hdesired
    exact {
      desired := by simpa [committed, hkind] using hdesired.trans hm.desired
      digest := by simpa [committed, hkind] using hm.digest
      spelled := by simpa [committed, hkind] using hm.spelled
      applied := happlied
      pending := by simpa [committed, hkind] using hfiles.pending
      journal := fun _ h => absurd h (by simp [committed, hkind]) }

theorem committed_initialized {record : PendingRecord} (h : t.initialized = true) : (t.committed record).initialized = true := by
  unfold committed
  dsimp only
  split <;> exact h

theorem decided_failed {t' : ConfigurationTransaction} {durable : Bool} {message : QString} {m : Disk} :
    Answers g t disk (t'.decided g durable message) m :=
  ⟨trivial, good_failed rfl, fun _ hfailed => absurd hfailed (by simp), fun h => absurd h (by simp [fail])⟩

theorem commitApply_answers (hgood : t.Good g disk) (generation : QString) :
    Answers g t disk (t.commitApply g generation) disk := by
  unfold commitApply
  split
  · exact refuse_answers hgood
  · rename_i pending hpending
    split_ifs at hpending with havailable
    have havailable : t.unavailable = false := by simpa using havailable
    have hm := hgood.mirrored havailable
    split
    · exact refuse_answers hgood
    · split
      · exact refuse_answers hgood
      · refine wp_bind.mpr (wpExcept.run (crossCheckGeneration_wp trivial (fun _ => refuse_answers hgood) ?_))
        refine wp_bind.mpr (writeStore_wp trivial ?_ ?_ ?_)
        · refine fun _ => ⟨trivial, wp_bind.mpr (wpExcept.run (publishCommitted_wp (fun _ _ => decided_failed) fun m hfiles => ?_))⟩
          refine ⟨trivial, Mirrored.good ?_ (committed_initialized (initialized_of havailable)), fun h => absurd h (by simp),
            fun _ => committed_initialized (initialized_of havailable)⟩
          have hjournal := hm.journal pending hpending
          refine committed_mirrored hm ⟨hjournal.candidate, hjournal.digest⟩ ?_
          exact ⟨by simpa [files_put] using hfiles.desired, hfiles.lastGood, hfiles.activation, hfiles.pending⟩
        · exact fun _ => refuse_answers hgood
        · exact fun _ _ => ⟨trivial, decided_failed⟩

theorem abortApply_answers (hgood : t.Good g disk) (generation : QString) :
    Answers g t disk (t.abortApply g generation) disk := by
  unfold abortApply
  split
  · exact refuse_answers hgood
  · rename_i pending hpending
    split_ifs at hpending with havailable
    have havailable : t.unavailable = false := by simpa using havailable
    have hm := hgood.mirrored havailable
    split
    · exact refuse_answers hgood
    · split
      · exact refuse_failed rfl
      · refine wp_bind.mpr (wpExcept.run (persistentStateMatchesBefore_wp trivial (fun _ => refuse_failed rfl) fun _ => ?_))
        have hcleared : ∀ m : Disk, m.files .pending = none → (∀ file, file ≠ .pending → m.files file = disk.files file) →
            Answers g t disk (succeed g { t with pending := none }) m := by
          refine fun m hnone hsame => Mirrored.succeed_answers ?_ (initialized_of havailable)
          exact {
            desired := (hsame .desired (by simp)).trans hm.desired
            digest := hm.digest
            spelled := hm.spelled
            applied := hm.applied.frame rfl rfl rfl (hsame .activation (by simp)) (hsame .lastGood (by simp))
            pending := hnone
            journal := fun _ h => absurd h (by simp) }
        refine wp_bind.mpr (wpExcept.run (removeFile_wp trivial ?_ ?_ ?_ ?_))
        · exact fun habsent => hcleared disk habsent fun _ _ => rfl
        · exact fun _ => ⟨trivial, hcleared _ (by simp [files_put]) fun file hfile => by simp [files_put, hfile]⟩
        · exact fun _ => refuse_failed rfl
        · exact fun _ _ => ⟨trivial, refuse_failed rfl⟩

end Committing
section Starting

/-- Nothing but the end of a check matters to its caller. -/
theorem skip_wp {α : Type} {x : Checks α} {stopped : QString → Disk → Prop} {post : α → Disk → Prop}
    (hstop : ∀ e m, stopped e m) (h : ∀ a m, post a m) : Holds anywhere stopped post x disk :=
  wp_trivial (fun _ => trivial) fun r m => match r with
    | .ok a => h a m
    | .error e => hstop e m

theorem removePending_wp {stopped : QString → Disk → Prop} {post : Unit → Disk → Prop} (hstop : ∀ e m, stopped e m)
    (h : ∀ m, m.files .pending = none → post () m) : Holds anywhere stopped post (removeFile .pending) disk :=
  removeFile_wp trivial (fun habsent => h _ habsent) (fun _ => ⟨trivial, h _ (by simp [files_put])⟩) (fun _ => hstop _ _)
    fun _ _ => ⟨trivial, hstop _ _⟩

/-- A settled transaction has left the disk. -/
theorem settlePending_wp {record : PendingRecord} {stopped : QString → Disk → Prop} {post : Unit → Disk → Prop}
    (hstop : ∀ e m, stopped e m) (h : ∀ m, m.files .pending = none → post () m) :
    Holds anywhere stopped post (settlePending g record) disk := by
  unfold settlePending
  refine wpExcept_bind.mpr (skip_wp hstop fun _ _ => ?_)
  refine wpExcept_bind.mpr (skip_wp hstop fun desired _ => ?_)
  refine wpExcept_bind.mpr (skip_wp hstop fun _ _ => ?_)
  refine wpExcept_bind.mpr (skip_wp hstop fun _ _ => ?_)
  refine wpExcept_bind.mpr (skip_wp hstop fun _ _ => ?_)
  refine wpExcept_bind.mpr (skip_wp hstop fun lastGood _ => ?_)
  refine wpExcept_bind.mpr (skip_wp hstop fun _ _ => ?_)
  split
  · exact wpExcept_bind.mpr (skip_wp hstop fun _ _ => removePending_wp hstop h)
  · refine wpExcept_bind.mpr (skip_wp hstop fun _ _ => ?_)
    refine wpExcept_bind.mpr (skip_wp hstop fun _ _ => ?_)
    refine wpExcept_bind.mpr (skip_wp hstop fun _ _ => ?_)
    refine wpExcept_bind.mpr (skip_wp hstop fun _ _ => ?_)
    exact removePending_wp hstop h

theorem reconcilePending_wp (hpending : t.failed = false → t.pending = none)
    {post : ConfigurationTransaction × Except QString Unit → Disk → Prop}
    (hstop : ∀ t' e m, t'.initialized = t.initialized → post (t', .error e) m)
    (h : ∀ t' m, t'.initialized = t.initialized → t'.failed = t.failed → (t.failed = false → t'.pending = none) →
      m.files .pending = none → post (t', .ok ()) m) :
    (reconcilePending g t).wp Effect anywhere post disk := by
  refine wp_bind.mpr (readStore_wp trivial (fun hmissing => ?_) (fun bytes _ => ?_) fun _ => ⟨trivial, hstop _ _ _ rfl⟩)
  · exact ⟨trivial, h _ _ rfl rfl hpending hmissing⟩
  · dsimp only
    split
    · exact ⟨trivial, hstop _ _ _ rfl⟩
    · refine wp_bind.mpr (wpExcept.run (settlePending_wp (fun _ _ => ⟨trivial, hstop _ _ _ rfl⟩) fun m hm => ?_))
      exact ⟨trivial, h _ _ rfl rfl (fun _ => rfl) hm⟩

/-- A load from this disk. -/
abbrev Loaded {α : Type} (stopped : ConfigurationTransaction × QString → Disk → Prop) (post : α → Disk → Prop)
    (x : Loads α) (m : Disk) : Prop := wpExcept Effect anywhere stopped post x m

variable {stopped : ConfigurationTransaction × QString → Disk → Prop}

theorem loadRead_wp {file : StoreFile} {post : StoreReadResult → Disk → Prop}
    (hmissing : disk.files file = none → post .missing disk)
    (hpresent : ∀ bytes, disk.files file = some bytes → post (.present bytes) disk)
    (hunavailable : ∀ message, post (.unavailable message) disk) : Loaded stopped post (loadRead file) disk :=
  wpExcept_lift.mpr (readStore_wp trivial hmissing hpresent hunavailable)

theorem loadUnless_wp {condition : Bool} {message : String} {post : Unit → Disk → Prop} (hstop : ∀ e, stopped e disk)
    (h : condition = true → post () disk) : Loaded stopped post (loadUnless condition t message) disk := by
  unfold loadUnless
  split
  · exact ⟨trivial, h (by assumption)⟩
  · exact ⟨trivial, hstop _⟩

theorem loadWrite_wp {file : StoreFile} {bytes : QByteArray} {post : Unit → Disk → Prop} (hstop : ∀ e m, stopped e m)
    (h : post () (disk.put file (some bytes)).sync) : Loaded stopped post (loadWrite t file bytes) disk :=
  wpExcept_bind.mpr (wpExcept_lift.mpr (writeStore_wp trivial (fun _ => ⟨trivial, trivial, h⟩)
    (fun _ => ⟨trivial, hstop _ _⟩) fun _ _ => ⟨trivial, trivial, hstop _ _⟩))

/-- What a read says about the disk. -/
def Seen (disk : Disk) (file : StoreFile) : StoreReadResult → Prop
  | .missing => disk.files file = none
  | .present bytes => disk.files file = some bytes
  | .unavailable _ => False

theorem seen_of_readable {file : StoreFile} {result : StoreReadResult} {reads : List StoreReadResult}
    (h : unreadable reads = none) (hmem : result ∈ reads)
    (hseen : result = .missing ∧ disk.files file = none ∨ (∃ bytes, result = .present bytes ∧ disk.files file = some bytes) ∨
      ∃ message, result = .unavailable message) : Seen disk file result := by
  rcases hseen with ⟨rfl, h⟩ | ⟨bytes, rfl, h⟩ | ⟨message, rfl⟩
  · exact h
  · exact h
  · exact absurd (List.findSome?_eq_none_iff.mp h _ hmem) (by simp)

/-- What loading leaves alone. -/
structure SameProcess (t t' : ConfigurationTransaction) : Prop where
  initialized : t'.initialized = t.initialized
  failed : t'.failed = t.failed
  pending : t'.pending = t.pending

theorem SameProcess.refl (t : ConfigurationTransaction) : SameProcess t t := ⟨rfl, rfl, rfl⟩

theorem SameProcess.trans {t t' t'' : ConfigurationTransaction} (h : SameProcess t t') (h' : SameProcess t' t'') :
    SameProcess t t'' :=
  ⟨h'.initialized.trans h.initialized, h'.failed.trans h.failed, h'.pending.trans h.pending⟩

theorem loadDesiredBytes_wp {desiredRead lastGoodRead activationRead : StoreReadResult}
    (hdesired : Seen disk .desired desiredRead)
    {post : ConfigurationTransaction × QByteArray → Disk → Prop} (hstop : ∀ e m, stopped e m)
    (h : ∀ t' bytes m, SameProcess t t' → m.files .desired = some bytes →
      (∀ file, file ≠ .desired → m.files file = disk.files file) → post (t', bytes) m) :
    Loaded stopped post (loadDesiredBytes g t desiredRead lastGoodRead activationRead) disk := by
  unfold loadDesiredBytes
  split
  · exact ⟨trivial, h _ _ _ (.refl t) hdesired fun _ _ => rfl⟩
  · split
    · refine wpExcept_bind.mpr (loadUnless_wp (fun _ => hstop _ _) fun _ => ?_)
      refine wpExcept_bind.mpr (loadWrite_wp hstop ⟨trivial, h _ _ _ ⟨rfl, rfl, rfl⟩ (by simp [files_put]) ?_⟩)
      exact fun file hfile => by simp [files_put, hfile]
    · exact ⟨trivial, hstop _ _⟩

theorem loadDesired_wp {bytes : QByteArray} {post : ConfigurationTransaction × Bool → Disk → Prop}
    (hstop : ∀ e m, stopped e m)
    (h : ∀ t' migrates, SameProcess t t' → Spells g t'.desiredBytes t'.desired →
      t'.desiredDigest = g.platform.sha256 t'.desiredBytes → (migrates = false → t'.desiredBytes = bytes) →
      post (t', migrates) disk) : Loaded stopped post (loadDesired g t bytes) disk := by
  unfold loadDesired
  split
  · exact ⟨trivial, hstop _ _⟩
  · rename_i parsed hparsed
    split
    · exact ⟨trivial, hstop _ _⟩
    · rename_i desired hdesired
      obtain ⟨hspells, hsame⟩ := spells_current hparsed hdesired
      refine wpExcept_bind.mpr (loadUnless_wp (fun _ => hstop _ _) fun _ => ?_)
      exact ⟨trivial, h _ _ ⟨rfl, rfl, rfl⟩ hspells rfl hsame⟩

/-- The applied tuple is loaded from its two files. -/
structure LoadedMirrors (g : Setting) (t t' : ConfigurationTransaction) (disk : Disk) : Prop where
  same : SameProcess t t'
  desired : t'.desired = t.desired
  desiredBytes : t'.desiredBytes = t.desiredBytes
  desiredDigest : t'.desiredDigest = t.desiredDigest
  applied : t'.AppliedMirrored g disk

theorem parseAppliedBytes_spelled {bytes : QByteArray} {record : AppliedRecord}
    (h : parseAppliedBytes g.platform bytes = some record) : appliedBytes g.platform record = bytes := by
  simp only [parseAppliedBytes, Option.bind_eq_bind, Option.bind_eq_some_iff] at h
  obtain ⟨_, -, other, -, _, hguard, h⟩ := h
  cases h
  simpa [guard] using hguard

theorem crossCheckApplied_wp {record : PendingRecord} {post : Unit → Disk → Prop} (hstop : ∀ e m, stopped e m)
    (h : post () disk) : Loaded stopped post (crossCheckApplied g t record) disk :=
  wpExcept_bind.mpr (wpExcept_lift.mpr (wpExcept.run (crossCheckGeneration_wp trivial
    (fun _ => ⟨trivial, hstop _ _⟩) ⟨trivial, h⟩)))

theorem loadMirrors_wp {lastGoodRead activationRead : StoreReadResult} (hlastGood : Seen disk .lastGood lastGoodRead)
    (hactivation : Seen disk .activation activationRead) {post : ConfigurationTransaction → Disk → Prop}
    (hstop : ∀ e m, stopped e m) (h : ∀ t', LoadedMirrors g t t' disk → post t' disk) :
    Loaded stopped post (loadMirrors g t lastGoodRead activationRead) disk := by
  unfold loadMirrors
  split
  · unfold loadApplied
    split
    · rename_i parsed record hparsed hrecord
      refine wpExcept_bind.mpr (loadUnless_wp (fun _ => hstop _ _) fun _ => ?_)
      refine wpExcept_bind.mpr (crossCheckApplied_wp hstop ?_)
      split
      · exact ⟨trivial, hstop _ _⟩
      · rename_i state hstate
        refine ⟨trivial, h _ ⟨⟨rfl, rfl, rfl⟩, rfl, rfl, rfl, ?_⟩⟩
        refine ⟨?_, hlastGood, parsed, state, (Option.filter_eq_some_iff.mp hparsed).1, hstate, rfl⟩
        rw [parseAppliedBytes_spelled hrecord]
        exact hactivation
    · exact ⟨trivial, hstop _ _⟩
  · exact ⟨trivial, hstop _ _⟩
  · exact ⟨trivial, hstop _ _⟩
  · rename_i hnoLast hnoActivation _
    refine ⟨trivial, h _ ⟨⟨rfl, rfl, rfl⟩, rfl, rfl, rfl, ?_⟩⟩
    cases lastGoodRead with
    | present bytes => exact (hnoLast bytes rfl).elim
    | unavailable message => exact hlastGood.elim
    | missing =>
      cases activationRead with
      | present bytes => exact (hnoActivation bytes rfl).elim
      | unavailable message => exact hactivation.elim
      | missing => exact ⟨hactivation, hlastGood, rfl, rfl⟩

theorem migrateDesired_wp {migrates : Bool} {post : ConfigurationTransaction → Disk → Prop} (hstop : ∀ e m, stopped e m)
    (hkept : migrates = false → post t disk) (hwritten : migrates = true → post t (disk.put .desired (some t.desiredBytes)).sync) :
    Loaded stopped post (migrateDesired t migrates) disk := by
  unfold migrateDesired
  cases migrates with
  | false => exact wpExcept_bind.mpr ⟨trivial, trivial, hkept rfl⟩
  | true => exact wpExcept_bind.mpr (loadWrite_wp hstop ⟨trivial, hwritten rfl⟩)

theorem loadSnapshots_wp (hpending : t.failed = false → t.pending = none) (hnone : disk.files .pending = none)
    {post : ConfigurationTransaction → Disk → Prop} (hstop : ∀ e m, stopped e m)
    (h : ∀ t' m, t'.initialized = t.initialized → t'.failed = t.failed → (t.failed = false → t'.Mirrored g m) → post t' m) :
    Loaded stopped post (loadSnapshots g t) disk := by
  unfold loadSnapshots
  dsimp only
  have hreads : ∀ file, Loaded stopped (fun result m => m = disk ∧ ((result = .missing ∧ disk.files file = none) ∨
      (∃ bytes, result = .present bytes ∧ disk.files file = some bytes) ∨ ∃ message, result = .unavailable message))
      (loadRead file) disk := fun file =>
    loadRead_wp (fun h => ⟨rfl, .inl ⟨rfl, h⟩⟩) (fun bytes h => ⟨rfl, .inr (.inl ⟨bytes, rfl, h⟩)⟩)
      fun message => ⟨rfl, .inr (.inr ⟨message, rfl⟩)⟩
  refine wpExcept_bind.mpr (wpExcept.mono (hreads .desired) (fun _ _ _ => hstop _ _) ?_)
  rintro desiredRead _ ⟨rfl, hdesired⟩
  refine wpExcept_bind.mpr (wpExcept.mono (hreads .lastGood) (fun _ _ _ => hstop _ _) ?_)
  rintro lastGoodRead _ ⟨rfl, hlastGood⟩
  refine wpExcept_bind.mpr (wpExcept.mono (hreads .activation) (fun _ _ _ => hstop _ _) ?_)
  rintro activationRead m ⟨rfl, hactivation⟩
  split
  · exact ⟨trivial, hstop _ _⟩
  · rename_i hreadable
    have hdesired := seen_of_readable hreadable (by simp) hdesired
    have hlastGood := seen_of_readable hreadable (by simp) hlastGood
    have hactivation := seen_of_readable hreadable (by simp) hactivation
    refine wpExcept_bind.mpr (loadDesiredBytes_wp hdesired hstop fun t1 bytes m1 hsame1 hbytes hothers => ?_)
    refine wpExcept_bind.mpr (loadDesired_wp hstop fun t2 migrates hsame2 hspells hdigest hfresh => ?_)
    have hlast1 : Seen m1 .lastGood lastGoodRead := by
      cases lastGoodRead with
      | missing | present _ => simpa [Seen, hothers .lastGood (by simp)] using hlastGood
      | unavailable _ => exact hlastGood
    have hactivation1 : Seen m1 .activation activationRead := by
      cases activationRead with
      | missing | present _ => simpa [Seen, hothers .activation (by simp)] using hactivation
      | unavailable _ => exact hactivation
    refine wpExcept_bind.mpr (loadMirrors_wp hlast1 hactivation1 hstop fun t3 hloaded => ?_)
    have hsame : SameProcess _ t3 := hsame1.trans (hsame2.trans hloaded.same)
    have hmirrored : ∀ m', m'.files .desired = some t3.desiredBytes → (∀ file, file ≠ .desired → m'.files file = m1.files file) →
        t.failed = false → t3.Mirrored g m' := by
      intro m' hdesired' hothers' hfailed
      have hnopending : t3.pending = none := hsame.pending.trans (hpending hfailed)
      exact {
        desired := hdesired'
        digest := by rw [hloaded.desiredDigest, hloaded.desiredBytes, hdigest]
        spelled := by rw [hloaded.desiredBytes, hloaded.desired]; exact hspells
        applied := hloaded.applied.frame rfl rfl rfl (hothers' .activation (by simp)) (hothers' .lastGood (by simp))
        pending := by rw [hothers' .pending (by simp), hothers .pending (by simp), hnone, hnopending]; rfl
        journal := fun _ hrecord => absurd (hnopending.symm.trans hrecord) (by simp) }
    refine migrateDesired_wp hstop (fun hmigrates => ?_) fun _ => ?_
    · refine h t3 m1 hsame.initialized hsame.failed (hmirrored m1 ?_ fun _ _ => rfl)
      rw [hloaded.desiredBytes, hfresh hmigrates]
      exact hbytes
    · refine h t3 _ hsame.initialized hsame.failed (hmirrored _ (by simp [files_put]) ?_)
      exact fun file hfile => by simp [files_put, hfile]

theorem startFailure_answers {t' : ConfigurationTransaction} {message : QString} {m : Disk} :
    Answers g t disk (t'.startFailure g message) m := refuse_failed rfl

theorem initializeAuthority_answers (hgood : t.Good g disk) : Answers g t disk (t.initializeAuthority g) disk := by
  unfold initializeAuthority
  split
  · exact refuse_answers hgood
  · rename_i hfresh
    have hfresh : t.initialized = false := by simpa using hfresh
    refine wp_bind.mpr (openStore_wp trivial fun opened => ?_)
    cases opened with
    | error message => exact startFailure_answers
    | ok _ =>
      refine wp_bind.mpr (openGenerations_wp trivial fun generations => ?_)
      cases generations with
      | error message => exact refuse_failed rfl
      | ok _ =>
        refine wp_bind.mpr (reconcilePending_wp ?_ ?_ ?_)
        · exact hgood.untouched hfresh
        · exact fun _ _ _ _ => startFailure_answers
        · intro t' m hinitialized hfailed hpending hnone
          dsimp only at hinitialized hfailed hpending ⊢
          refine wp_bind.mpr (wpExcept.run (loadSnapshots_wp (fun h => hpending (hfailed.symm.trans h)) hnone
            (fun _ _ => startFailure_answers) ?_))
          intro t'' m' hinitialized' hfailed' hmirrored
          refine succeed_answers ⟨fun havailable => hmirrored ?_, fun h => ?_⟩ (hinitialized'.trans hinitialized)
          · simp only [unavailable, Bool.or_eq_false_iff] at havailable
            exact hfailed'.symm.trans havailable.2
          · exact absurd ((hinitialized'.trans hinitialized).symm.trans h) (by simp)

end Starting
end ConfigurationTransaction
end HyprShelld.Compositor
