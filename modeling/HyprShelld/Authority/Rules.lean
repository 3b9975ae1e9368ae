import HyprShelld.Authority.Operations

/-! Rules for the calls and the checks of the authority: what each of them lets its caller assume. -/
namespace HyprShelld.Compositor
open Hyprland Program

variable {crash : Disk → Prop} {disk : Disk}

section Calls

theorem readStore_wp {file : StoreFile} {post : StoreReadResult → Disk → Prop} (hc : crash disk)
    (hmissing : disk.files file = none → post .missing disk)
    (hpresent : ∀ bytes, disk.files file = some bytes → post (.present bytes) disk)
    (hunavailable : ∀ message, post (.unavailable message) disk) : (readStore file).wp Effect crash post disk := by
  refine wp_ask.mpr ⟨hc, fun answer m he => ?_⟩
  cases he with
  | present h _ => exact ⟨hc, hpresent _ h⟩
  | missing h => exact ⟨hc, hmissing h⟩
  | unavailable => exact ⟨hc, hunavailable _⟩

theorem openStore_wp {post : Except QString Unit → Disk → Prop} (hc : crash disk) (h : ∀ answer, post answer disk) :
    openStore.wp Effect crash post disk := by
  refine wp_ask.mpr ⟨hc, fun answer m he => ?_⟩
  cases he
  exact ⟨hc, h _⟩

theorem openGenerations_wp {post : Except QString Unit → Disk → Prop} (hc : crash disk) (h : ∀ answer, post answer disk) :
    openGenerations.wp Effect crash post disk := by
  refine wp_ask.mpr ⟨hc, fun answer m he => ?_⟩
  cases he
  exact ⟨hc, h _⟩

theorem publishGeneration_wp {rendered : RenderedGeneration} {post : Except QString VerifiedGeneration → Disk → Prop}
    (hc : crash disk) (h : ∀ answer, post answer disk) : (publishGeneration rendered).wp Effect crash post disk := by
  refine wp_ask.mpr ⟨hc, fun answer m he => ?_⟩
  cases he
  exact ⟨hc, h _⟩

theorem verifyGeneration_wp {nonce : QString} {post : Except QString VerifiedGeneration → Disk → Prop}
    (hc : crash disk) (h : ∀ answer, post answer disk) : (verifyGeneration nonce).wp Effect crash post disk := by
  refine wp_ask.mpr ⟨hc, fun answer m he => ?_⟩
  cases he
  exact ⟨hc, h _⟩

theorem writeStore_wp {file : StoreFile} {bytes : QByteArray} {post : StoreOperationResult → Disk → Prop}
    (hc : crash disk)
    (hwritten : accepted file bytes → crash (disk.put file (some bytes)).sync ∧ post .success (disk.put file (some bytes)).sync)
    (hkept : ∀ message, post (.failure message) disk)
    (hunsynced : ∀ message, accepted file bytes → crash (disk.put file (some bytes)) ∧
      post (.committedButNotDurable message) (disk.put file (some bytes))) :
    (writeStore file bytes).wp Effect crash post disk := by
  refine wp_ask.mpr ⟨hc, fun answer m he => ?_⟩
  cases he with
  | written h => exact hwritten h
  | notWritten => exact ⟨hc, hkept _⟩
  | writtenUnsynced _ h => exact hunsynced _ h

theorem removeStored_wp {file : StoreFile} {post : StoreOperationResult → Disk → Prop} (hc : crash disk)
    (habsent : disk.files file = none → post .success disk)
    (hremoved : disk.files file ≠ none → crash (disk.put file none).sync ∧ post .success (disk.put file none).sync)
    (hkept : ∀ message, post (.failure message) disk)
    (hunsynced : ∀ message, disk.files file ≠ none → crash (disk.put file none) ∧
      post (.committedButNotDurable message) (disk.put file none)) :
    (removeStored file).wp Effect crash post disk := by
  refine wp_ask.mpr ⟨hc, fun answer m he => ?_⟩
  cases he with
  | absent h => exact ⟨hc, habsent h⟩
  | removed h => exact hremoved h
  | notRemoved => exact ⟨hc, hkept _⟩
  | removedUnsynced _ h => exact hunsynced _ h

end Calls

/-- A check from this disk, which it leaves as it is. -/
abbrev Holds {α : Type} (crash : Disk → Prop) (stopped : QString → Disk → Prop) (post : α → Disk → Prop)
    (x : Checks α) (disk : Disk) : Prop := wpExcept Effect crash stopped post x disk

section Checks
variable {stopped : QString → Disk → Prop}

theorem refuseUnless_wp {condition : Bool} {message : String} {post : Unit → Disk → Prop} (hc : crash disk)
    (hstop : ∀ e, stopped e disk) (h : condition = true → post () disk) :
    Holds crash stopped post (refuseUnless condition message) disk := by
  unfold refuseUnless
  split
  · exact ⟨hc, h (by assumption)⟩
  · exact ⟨hc, hstop _⟩

theorem read_wp {file : StoreFile} {post : StoreReadResult → Disk → Prop} (hc : crash disk)
    (hmissing : disk.files file = none → post .missing disk)
    (hpresent : ∀ bytes, disk.files file = some bytes → post (.present bytes) disk)
    (hunavailable : ∀ message, post (.unavailable message) disk) : Holds crash stopped post (read file) disk :=
  wpExcept_lift.mpr (readStore_wp hc hmissing hpresent hunavailable)

theorem writeFile_wp {file : StoreFile} {bytes : QByteArray} {post : Unit → Disk → Prop} (hc : crash disk)
    (hwritten : accepted file bytes → crash (disk.put file (some bytes)).sync ∧ post () (disk.put file (some bytes)).sync)
    (hstop : ∀ e, stopped e disk)
    (hunsynced : ∀ e, accepted file bytes → crash (disk.put file (some bytes)) ∧ stopped e (disk.put file (some bytes))) :
    Holds crash stopped post (writeFile file bytes) disk := by
  refine wpExcept_bind.mpr (wpExcept_lift.mpr (writeStore_wp hc ?_ ?_ ?_))
  · exact fun h => ⟨(hwritten h).1, hwritten h⟩
  · exact fun e => ⟨hc, hstop e⟩
  · exact fun e h => ⟨(hunsynced e h).1, hunsynced e h⟩

theorem removeFile_wp {file : StoreFile} {post : Unit → Disk → Prop} (hc : crash disk)
    (habsent : disk.files file = none → post () disk)
    (hremoved : disk.files file ≠ none → crash (disk.put file none).sync ∧ post () (disk.put file none).sync)
    (hstop : ∀ e, stopped e disk)
    (hunsynced : ∀ e, disk.files file ≠ none → crash (disk.put file none) ∧ stopped e (disk.put file none)) :
    Holds crash stopped post (removeFile file) disk := by
  refine wpExcept_bind.mpr (wpExcept_lift.mpr (removeStored_wp hc ?_ ?_ ?_ ?_))
  · exact fun h => ⟨hc, habsent h⟩
  · exact fun h => ⟨(hremoved h).1, hremoved h⟩
  · exact fun e => ⟨hc, hstop e⟩
  · exact fun e h => ⟨(hunsynced e h).1, hunsynced e h⟩

theorem verify_wp {nonce : QString} {post : VerifiedGeneration → Disk → Prop} (hc : crash disk)
    (hstop : ∀ e, stopped e disk) (h : ∀ generation, post generation disk) :
    Holds crash stopped post (verify nonce) disk := by
  refine wpExcept_bind.mpr (wpExcept_lift.mpr (verifyGeneration_wp hc fun answer => ?_))
  cases answer with
  | ok generation => exact ⟨hc, h generation⟩
  | error e => exact ⟨hc, hstop e⟩

end Checks

namespace ConfigurationTransaction
variable {g : Setting} {stopped : QString → Disk → Prop}

section Checking

theorem readCanonicalSnapshot_wp {file : StoreFile} {post : QByteArray × DesiredState → Disk → Prop} (hc : crash disk)
    (hstop : ∀ e, stopped e disk)
    (h : ∀ bytes parsed, disk.files file = some bytes →
      parseCompatibleDesiredState g.platform g.catalog g.actions bytes = some parsed → post (bytes, parsed.state) disk) :
    Holds crash stopped post (readCanonicalSnapshot g file) disk := by
  refine wpExcept_bind.mpr (read_wp hc (fun _ => ⟨hc, hstop _⟩) (fun bytes hbytes => ?_) fun _ => ⟨hc, hstop _⟩)
  dsimp only
  split
  · exact ⟨hc, hstop _⟩
  · exact ⟨hc, h bytes _ hbytes (by assumption)⟩

/-- The digest and the generation of a journal agree with what the generation store holds. -/
theorem crossCheckGeneration_wp {record : PendingRecord} {post : Unit → Disk → Prop} (hc : crash disk)
    (hstop : ∀ e, stopped e disk) (h : post () disk) : Holds crash stopped post (crossCheckGeneration g record) disk := by
  refine wpExcept_bind.mpr (verify_wp hc hstop fun generation => ?_)
  refine wpExcept_bind.mpr (refuseUnless_wp hc hstop fun _ => ?_)
  exact refuseUnless_wp hc hstop fun _ => h

/-- The three mirrors are the ones a transaction was prepared on. -/
structure BeforeFiles (g : Setting) (record : PendingRecord) (disk : Disk) : Prop where
  desired : ∃ bytes parsed, disk.files .desired = some bytes ∧
    parseCompatibleDesiredState g.platform g.catalog g.actions bytes = some parsed ∧
    parsed.state.revision = record.expectedRevision ∧ g.platform.sha256 bytes = record.beforeDesiredDigest
  activation : disk.files .activation = record.before.map (appliedBytes g.platform)
  lastGood : ∀ before, record.before = some before → ∃ bytes parsed, disk.files .lastGood = some bytes ∧
    parseCompatibleDesiredState g.platform g.catalog g.actions bytes = some parsed ∧
    parsed.state.revision = before.revision ∧ g.platform.sha256 bytes = before.snapshotDigest
  noLastGood : record.before = none → disk.files .lastGood = none

theorem activationMatchesBefore_wp {record : PendingRecord} {post : Unit → Disk → Prop} (hc : crash disk)
    (hstop : ∀ e, stopped e disk)
    (h : disk.files .activation = record.before.map (appliedBytes g.platform) → post () disk) :
    Holds crash stopped post (activationMatchesBefore g record) disk := by
  unfold activationMatchesBefore
  cases hbefore : record.before with
  | none =>
    rw [hbefore] at h
    exact wpExcept_bind.mpr (read_wp hc (fun hmissing => ⟨hc, h hmissing⟩) (fun _ _ => ⟨hc, hstop _⟩) fun _ => ⟨hc, hstop _⟩)
  | some before =>
    rw [hbefore] at h
    refine wpExcept_bind.mpr (read_wp hc (fun _ => ⟨hc, hstop _⟩) (fun bytes hbytes => ?_) fun _ => ⟨hc, hstop _⟩)
    refine refuseUnless_wp hc hstop fun heq => h ?_
    rw [hbytes, of_decide_eq_true heq]
    rfl

theorem lastGoodMatchesBefore_wp {record : PendingRecord} {post : Unit → Disk → Prop} (hc : crash disk)
    (hstop : ∀ e, stopped e disk)
    (hnone : record.before = none → disk.files .lastGood = none → post () disk)
    (hsome : ∀ before bytes parsed, record.before = some before → disk.files .lastGood = some bytes →
      parseCompatibleDesiredState g.platform g.catalog g.actions bytes = some parsed →
      parsed.state.revision = before.revision → g.platform.sha256 bytes = before.snapshotDigest → post () disk) :
    Holds crash stopped post (lastGoodMatchesBefore g record) disk := by
  unfold lastGoodMatchesBefore
  cases hbefore : record.before with
  | none =>
    exact wpExcept_bind.mpr (read_wp hc (fun hmissing => ⟨hc, hnone hbefore hmissing⟩) (fun _ _ => ⟨hc, hstop _⟩)
      fun _ => ⟨hc, hstop _⟩)
  | some before =>
    refine wpExcept_bind.mpr (read_wp hc (fun _ => ⟨hc, hstop _⟩) (fun bytes hbytes => ?_) fun _ => ⟨hc, hstop _⟩)
    refine refuseUnless_wp hc hstop fun hany => ?_
    obtain ⟨parsed, hparsed, hmatch⟩ := (Option.any_eq_true _ _).mp hany
    simp only [Bool.and_eq_true, decide_eq_true_eq] at hmatch
    exact hsome before bytes parsed hbefore hbytes hparsed hmatch.1.2 hmatch.2

theorem persistentStateMatchesBefore_wp {record : PendingRecord} {post : Unit → Disk → Prop} (hc : crash disk)
    (hstop : ∀ e, stopped e disk) (h : BeforeFiles g record disk → post () disk) :
    Holds crash stopped post (persistentStateMatchesBefore g record) disk := by
  refine wpExcept_bind.mpr (readCanonicalSnapshot_wp hc hstop fun bytes parsed hbytes hparsed => ?_)
  refine wpExcept_bind.mpr (refuseUnless_wp hc hstop fun hsame => ?_)
  simp only [Bool.and_eq_true, decide_eq_true_eq] at hsame
  have hdesired : ∃ bytes parsed, disk.files .desired = some bytes ∧
      parseCompatibleDesiredState g.platform g.catalog g.actions bytes = some parsed ∧
      parsed.state.revision = record.expectedRevision ∧ g.platform.sha256 bytes = record.beforeDesiredDigest :=
    ⟨bytes, parsed, hbytes, hparsed, hsame⟩
  refine wpExcept_bind.mpr (activationMatchesBefore_wp hc hstop fun hactivation => ?_)
  apply lastGoodMatchesBefore_wp hc hstop
  · intro hbefore hmissing
    exact h ⟨hdesired, hactivation, fun before hsome => absurd (hbefore.symm.trans hsome) (by simp), fun _ => hmissing⟩
  · intro before lastGood last hbefore hlast hparsedLast hrevision hdigest
    refine h ⟨hdesired, hactivation, fun before' hsome => ?_, fun hnone => absurd (hbefore.symm.trans hnone) (by simp)⟩
    cases hbefore.symm.trans hsome
    exact ⟨lastGood, last, hlast, hparsedLast, hrevision, hdigest⟩

end Checking
end ConfigurationTransaction
end HyprShelld.Compositor
