import HyprShelld.Inspection.Sessions

/-! What every call and every arrival keeps of the sessions: each one is known to the log, and an entry of
the log follows those before it as it may. -/
namespace HyprShelld.Inspection
open Components

def doneText : QString := qstr "done"

/-- A session of a token was made. -/
def Entry.begins (token : QString) : Entry → Bool
  | .begun _ t _ _ _ => t = token
  | _ => false

def Entry.starts (token : QString) : Entry → Bool
  | .startTransientUnit _ request => request.token = token
  | _ => false

/-- The session of a token is gone from here on. -/
def Entry.closes (token : QString) : Entry → Bool
  | .taken _ _ _ _ artifact => artifact.token = token
  | .cancelled _ t => t = token
  | .cancelledForSender _ t => t = token
  | .inspectionFinished _ t _ _ _ errorName _ => t = token && errorName = managerError (qstr "InspectionExpired")
  | _ => false

def Entry.fails (token : QString) : Entry → Bool
  | .inspectionFinished _ t _ _ _ errorName _ => t = token && errorName ≠ []
  | _ => false

def StagedFile.identity : StagedFile → Option FileIdentity
  | .unreadable _ => none
  | .present _ identity => some identity

def StagedFile.bytes : StagedFile → QByteArray
  | .unreadable _ => []
  | .present bytes _ => bytes

/-- The files that a report was accepted with. -/
structure Inspected (setting : Setting) (token archiveDigest : QString) (archiveSize : UInt64) (reportBytes : QByteArray)
    (report : PackageInspectionReport) (files : Files) : Prop where
  spool : setting.sha256 files.spool.bytes = archiveDigest ∧ files.spool.bytes.length = archiveSize.toNat
  parsed : files.report.bytes = reportBytes ∧ setting.parsePackageInspectionReport reportBytes = some report
  bound : report.inspectionToken = token ∧ report.archiveSha256 = archiveDigest ∧ report.archiveSize = archiveSize

/-- No file was replaced or written since. -/
structure SameFiles (accepted files : Files) : Prop where
  spool : files.spool.identity.isSome = true ∧ files.spool.identity = accepted.spool.identity
  report : files.report.identity.isSome = true ∧ files.report.identity = accepted.report.identity
  materialized : files.materialized.identity.isSome = true ∧ files.materialized.identity = accepted.materialized.identity

/-- What a released package has been through. -/
structure Released (setting : Setting) (before : List Entry) (sender expected : QString) (now : Int) (files : Files)
    (artifact : Artifact) : Prop where
  begun : ∃ expiresAtMs, now < expiresAtMs ∧
    .begun sender artifact.token artifact.archiveDigest artifact.archiveSize expiresAtMs ∈ before
  expected : expected = artifact.archiveDigest
  succeeded : .jobRemoved (unitNameForToken artifact.token) doneText ∈ before
  accepted : ∃ accepted, .accepted artifact.token accepted ∈ before ∧ SameFiles accepted files ∧
    Inspected setting artifact.token artifact.archiveDigest artifact.archiveSize artifact.reportBytes artifact.report accepted ∧
    Inspected setting artifact.token artifact.archiveDigest artifact.archiveSize artifact.reportBytes artifact.report files
  once : ∀ e ∈ before, e.closes artifact.token = false ∧ e.fails artifact.token = false

/-- What a session shows to its sender. -/
structure Shown (before : List Entry) (sender token : QString) (result : LookupResult) : Prop where
  begun : .begun sender token result.archiveDigest result.archiveSize result.expiresAtMs ∈ before
  opened : ∀ e ∈ before, e.closes token = false
  succeeded : result.state = .complete → .jobRemoved (unitNameForToken token) doneText ∈ before ∧
    ∀ e ∈ before, e.fails token = false

/-- Why an entry may follow those before it. -/
def Justified (setting : Setting) (before : List Entry) : Entry → Prop
  | .taken sender expected now files artifact => Released setting before sender expected now files artifact
  | .found sender token result => Shown before sender token result
  | .begun _ token _ _ _ => ∀ e ∈ before, e.begins token = false
  | .startTransientUnit unitName request => unitName = unitNameForToken request.token ∧ ∀ e ∈ before, e.starts request.token = false
  | _ => True

/-- Every entry follows those before it as it may. -/
def Sound (setting : Setting) (log : List Entry) : Prop :=
  ∀ before e after, log = before ++ e :: after → Justified setting before e

theorem sound_nil {setting : Setting} : Sound setting [] := by
  intro before e after h
  simp at h

theorem Sound.append {setting : Setting} {log : List Entry} {e : Entry} (h : Sound setting log) (he : Justified setting log e) :
    Sound setting (log ++ [e]) := by
  intro before f after hsplit
  rcases List.eq_nil_or_concat after with rfl | ⟨rest, last, rfl⟩
  · obtain ⟨rfl, hf⟩ := List.append_inj' hsplit rfl
    rw [← List.singleton_inj.mp hf]
    exact he
  · rw [List.concat_eq_append, ← List.cons_append, ← List.append_assoc] at hsplit
    exact h before f rest (List.append_inj' hsplit rfl).1

/-- A session as the log knows it. -/
structure Live (setting : Setting) (log : List Entry) (token : QString) (session : Session) : Prop where
  begun : .begun session.owner token session.archiveDigest session.archiveSize session.expiresAtMs ∈ log
  opened : ∀ e ∈ log, e.closes token = false
  unfailed : session.state ≠ .failed → ∀ e ∈ log, e.fails token = false
  complete : session.state = .complete → .jobRemoved (unitNameForToken token) doneText ∈ log ∧
    ∃ report accepted, session.report = some report ∧ .accepted token accepted ∈ log ∧
      Inspected setting token session.archiveDigest session.archiveSize session.reportBytes report accepted ∧
      session.spoolIdentity = accepted.spool.identity ∧ session.reportIdentity = accepted.report.identity ∧
      session.materializedIdentity = accepted.materialized.identity

/-- An inspector that a session waits for. -/
structure Awaited (s : State) (token : QString) (pending : PendingLaunch) : Prop where
  unitName : pending.unitName = unitNameForToken token
  request : pending.request.token = token
  session : ∃ session, s.sessions.lookup token = some session ∧ session.state = .pending
  fresh : pending.startSubmitted = false → ∀ e ∈ s.log, e.starts token = false

structure Invariant (setting : Setting) (unitOf : QString → QString) (s : State) : Prop where
  log : Sound setting s.log
  sorted : s.sessions.Sorted
  sessions : ∀ token session, s.sessions.lookup token = some session → Live setting s.log token session
  pending : ∀ token pending, s.pendingByToken.lookup token = some pending → Awaited s token pending
  jobs : ∀ jobPath token, s.tokenByJobPath.lookup jobPath = some token → unitOf jobPath = unitNameForToken token
  known : ∀ token, (∀ e ∈ s.log, e.begins token = false) →
    ∀ e ∈ s.log, e.starts token = false ∧ e.closes token = false ∧ e.fails token = false

section Saying
variable {setting : Setting} {unitOf : QString → QString} {s : State} {e : Entry} {token : QString} {session : Session}

theorem Live.mono {log : List Entry} (h : Live setting log token session) (hcloses : e.closes token = false)
    (hfails : session.state ≠ .failed → e.fails token = false) : Live setting (log ++ [e]) token session := by
  refine ⟨List.mem_append_left _ h.begun, ?_, fun hstate => ?_, fun hstate => ?_⟩
  · simpa [or_imp, forall_and] using ⟨h.opened, hcloses⟩
  · simpa [or_imp, forall_and] using ⟨h.unfailed hstate, hfails hstate⟩
  · obtain ⟨hdone, report, accepted, hreport, haccepted, hrest⟩ := h.complete hstate
    exact ⟨List.mem_append_left _ hdone, report, accepted, hreport, List.mem_append_left _ haccepted, hrest⟩

theorem Invariant.say (h : Invariant setting unitOf s) (he : Justified setting s.log e)
    (hlive : ∀ t session, s.sessions.lookup t = some session →
      e.closes t = false ∧ (session.state ≠ .failed → e.fails t = false))
    (hstarts : ∀ t pending, s.pendingByToken.lookup t = some pending → pending.startSubmitted = false → e.starts t = false)
    (hknown : ∀ t, (e.starts t || e.closes t || e.fails t) = true → ∃ f ∈ s.log, f.begins t = true) :
    Invariant setting unitOf (s.say e) := by
  refine ⟨h.log.append he, h.sorted, fun t session ht => ?_, fun t pending ht => ?_, h.jobs, fun t ht => ?_⟩
  · exact (h.sessions t session ht).mono (hlive t session ht).1 (hlive t session ht).2
  · have hpending := h.pending t pending ht
    refine ⟨hpending.unitName, hpending.request, hpending.session, fun hsubmitted => ?_⟩
    simpa [State.say, or_imp, forall_and] using ⟨hpending.fresh hsubmitted, hstarts t pending ht hsubmitted⟩
  · have hbefore : ∀ f ∈ s.log, f.begins t = false := fun f hf => ht f (List.mem_append_left _ hf)
    have hlast : (e.starts t || e.closes t || e.fails t) = false := by
      by_contra hne
      obtain ⟨f, hf, hbegins⟩ := hknown t ((Bool.not_eq_false _).mp hne)
      simp [hbefore f hf] at hbegins
    simp only [Bool.or_eq_false_iff] at hlast
    simpa [State.say, or_imp, forall_and, and_assoc, hlast.1.1, hlast.1.2, hlast.2] using h.known t hbefore

/-- An entry that neither starts, ends nor fails anything. -/
def Entry.Quiet (e : Entry) : Prop := ∀ t, e.starts t = false ∧ e.closes t = false ∧ e.fails t = false

theorem Invariant.sayQuiet (h : Invariant setting unitOf s) (he : Justified setting s.log e) (hquiet : e.Quiet) :
    Invariant setting unitOf (s.say e) := by
  refine h.say he (fun t _ _ => ⟨(hquiet t).2.1, fun _ => (hquiet t).2.2⟩) (fun t _ _ _ => (hquiet t).1) fun t ht => ?_
  obtain ⟨hstarts, hcloses, hfails⟩ := hquiet t
  simp [hstarts, hcloses, hfails] at ht

theorem quiet_refused (sender t : QString) (error : OperationError) : (Entry.refused sender t error).Quiet := fun _ => ⟨rfl, rfl, rfl⟩

theorem Invariant.refuse (h : Invariant setting unitOf s) (sender t : QString) (error : OperationError) :
    Invariant setting unitOf (s.say (.refused sender t error)) := h.sayQuiet trivial (quiet_refused sender t error)

/-- An entry that ends or fails a session that is already out of the table. -/
theorem Invariant.sayClosed (h : Invariant setting unitOf s) (he : Justified setting s.log e)
    (hother : ∀ t, t ≠ token → e.closes t = false ∧ e.fails t = false) (hstarts : ∀ t, e.starts t = false)
    (hnone : s.sessions.lookup token = none) (hbegun : ∃ f ∈ s.log, f.begins token = true) : Invariant setting unitOf (s.say e) := by
  refine h.say he (fun t session ht => ?_) (fun t _ _ _ => hstarts t) fun t ht => ?_
  · have hne : t ≠ token := by
      rintro rfl
      simp [hnone] at ht
    exact ⟨(hother t hne).1, fun _ => (hother t hne).2⟩
  · by_cases hne : t = token
    · exact hne ▸ hbegun
    · simp [hstarts, hother t hne] at ht

theorem Live.begins {log : List Entry} (h : Live setting log token session) : ∃ f ∈ log, f.begins token = true :=
  ⟨_, h.begun, by simp [Entry.begins]⟩

theorem Invariant.erase (h : Invariant setting unitOf s) (hpending : s.pendingByToken.lookup token = none) :
    Invariant setting unitOf (eraseSession token s) := by
  refine ⟨h.log, QMap.sorted_remove h.sorted token, fun t session ht => ?_, fun t pending ht => ?_, h.jobs, h.known⟩
  · rw [eraseSession, QMap.lookup_remove] at ht
    split_ifs at ht
    exact h.sessions t session ht
  · obtain ⟨hunit, hrequest, ⟨session, hsession, hstate⟩, hfresh⟩ := h.pending t pending ht
    refine ⟨hunit, hrequest, ⟨session, ?_, hstate⟩, hfresh⟩
    have hne : t ≠ token := by
      rintro rfl
      simp [eraseSession, hpending] at ht
    rw [eraseSession, QMap.lookup_remove, if_neg hne]
    exact hsession

theorem lookup_erase (t : QString) : (eraseSession token s).sessions.lookup t = if t = token then none else s.sessions.lookup t :=
  QMap.lookup_remove _ _ _

theorem lookup_forgetJob {pending : PendingLaunch} {jobs : QMap QString} {jobPath t : QString}
    (h : (forgetJob pending jobs).lookup jobPath = some t) : jobs.lookup jobPath = some t := by
  unfold forgetJob at h
  split_ifs at h
  · rw [QMap.lookup_remove] at h
    split_ifs at h
    exact h
  · exact h

/-- Without the inspector of a token. -/
theorem Invariant.forget (h : Invariant setting unitOf s) (pending : PendingLaunch) : Invariant setting unitOf { s with
    tokenByJobPath := forgetJob pending s.tokenByJobPath
    pendingByToken := QMap.remove token s.pendingByToken } := by
  refine ⟨h.log, h.sorted, h.sessions, fun t pending ht => ?_, fun jobPath t ht => h.jobs jobPath t (lookup_forgetJob ht), h.known⟩
  rw [QMap.lookup_remove] at ht
  split_ifs at ht
  obtain ⟨hunit, hrequest, hsession, hfresh⟩ := h.pending t pending ht
  exact ⟨hunit, hrequest, hsession, hfresh⟩

/-- What canceling an inspector leaves. -/
theorem Invariant.cancel (h : Invariant setting unitOf s) : Invariant setting unitOf (launcherCancel token s) ∧
    (launcherCancel token s).sessions = s.sessions ∧ (launcherCancel token s).pendingByToken.lookup token = none ∧
    ∀ f ∈ s.log, f ∈ (launcherCancel token s).log := by
  unfold launcherCancel
  cases hpending : s.pendingByToken.lookup token with
  | none => exact ⟨h, rfl, hpending, fun _ => id⟩
  | some pending =>
    have hforget := @Invariant.forget setting unitOf s token h pending
    have hnone : (QMap.remove token s.pendingByToken).lookup token = none := by rw [QMap.lookup_remove, if_pos rfl]
    dsimp only
    split_ifs
    · exact ⟨hforget.sayQuiet trivial fun _ => ⟨rfl, rfl, rfl⟩, rfl, hnone, fun _ => List.mem_append_left _⟩
    · exact ⟨hforget, rfl, hnone, fun _ => id⟩

/-- A session leaves the table with its inspector, which is said. -/
theorem Invariant.drop (h : Invariant setting unitOf s) (hsession : s.sessions.lookup token = some session) {e : Entry}
    (he : Justified setting (launcherCancel token s).log e) (hstarts : ∀ t, e.starts t = false)
    (hother : ∀ t, t ≠ token → e.closes t = false ∧ e.fails t = false) {expired : QMap Tombstone} :
    Invariant setting unitOf ((eraseSession token { launcherCancel token s with expired }).say e) := by
  obtain ⟨hcancel, -, hpending, hlog⟩ := @Invariant.cancel setting unitOf s token h
  obtain ⟨f, hf, hbegins⟩ := (h.sessions token session hsession).begins
  have hwith : Invariant setting unitOf { launcherCancel token s with expired } :=
    ⟨hcancel.log, hcancel.sorted, hcancel.sessions,
      fun t pending ht => ⟨(hcancel.pending t pending ht).unitName, (hcancel.pending t pending ht).request,
        (hcancel.pending t pending ht).session, (hcancel.pending t pending ht).fresh⟩, hcancel.jobs, hcancel.known⟩
  exact (hwith.erase hpending).sayClosed he hother hstarts (by rw [lookup_erase, if_pos rfl]) ⟨f, hlog f hf, hbegins⟩

end Saying

section Expiry
variable {setting : Setting} {unitOf : QString → QString} {s : State} {now : Int}

theorem managerError_ne_nil (suffix : QString) : managerError suffix ≠ [] := by
  have hmanager : qstr "org.hyprshelld.ComponentManager1.Error." ≠ [] := by decide +kernel
  exact List.append_ne_nil_of_left_ne_nil hmanager _

theorem other_finished {owner token errorName errorMessage : QString} {reportBytes : QByteArray} {t : QString} (h : t ≠ token) :
    (finishedWithError owner token errorName errorMessage reportBytes).closes t = false ∧
      (finishedWithError owner token errorName errorMessage reportBytes).fails t = false := by
  simp [finishedWithError, Entry.closes, Entry.fails, Ne.symm h]

theorem starts_finished {owner token errorName errorMessage t : QString} {reportBytes : QByteArray} :
    (finishedWithError owner token errorName errorMessage reportBytes).starts t = false := rfl

/-- What expiring does to the table: sessions only leave it, and those that stay are not due. -/
structure Expired (s s' : State) : Prop where
  fewer : ∀ t session, s'.sessions.lookup t = some session → s.sessions.lookup t = some session
  begun : ∀ e ∈ s'.log, ∀ t, e.begins t = true → e ∈ s.log

theorem Expired.refl : Expired s s := ⟨fun _ _ => id, fun _ he _ _ => he⟩

theorem Expired.trans {a b c : State} (h : Expired a b) (h' : Expired b c) : Expired a c :=
  ⟨fun t session ht => h.fewer t session (h'.fewer t session ht), fun e he t ht => h.begun e (h'.begun e he t ht) t ht⟩

theorem begun_launcherCancel {token t : QString} {e : Entry} (he : e ∈ (launcherCancel token s).log) (ht : e.begins t = true) : e ∈ s.log := by
  unfold launcherCancel at he
  cases hpending : s.pendingByToken.lookup token with
  | none => rwa [hpending] at he
  | some pending =>
    rw [hpending] at he
    dsimp only at he
    split_ifs at he
    · rcases List.mem_append.mp he with he | he
      · exact he
      · rw [List.mem_singleton.mp he] at ht
        cases ht
    · exact he

theorem expireOne_invariant (h : Invariant setting unitOf s) (token : QString) :
    Invariant setting unitOf (expireOne setting now s token) ∧ Expired s (expireOne setting now s token) ∧
      ∀ session, (expireOne setting now s token).sessions.lookup token = some session → now < session.expiresAtMs := by
  unfold expireOne
  cases hsession : s.sessions.lookup token with
  | none => exact ⟨h, .refl, fun session ht => by simp [hsession] at ht⟩
  | some session =>
    dsimp only
    split_ifs with hdue
    · refine ⟨h, .refl, fun other ht => ?_⟩
      rw [hsession, Option.some_inj] at ht
      exact ht ▸ hdue
    · refine ⟨h.drop hsession (by exact trivial) (fun _ => rfl) fun t ht => other_finished ht, ⟨fun t other ht => ?_, fun e he => ?_⟩,
        fun other ht => ?_⟩
      · replace ht : (eraseSession token (launcherCancel token s)).sessions.lookup t = some other := ht
        rw [lookup_erase, h.cancel.2.1] at ht
        split_ifs at ht
        exact ht
      · intro t ht
        rcases List.mem_append.mp he with he | he
        · exact begun_launcherCancel he ht
        · rw [List.mem_singleton.mp he] at ht
          cases ht
      · replace ht : (eraseSession token (launcherCancel token s)).sessions.lookup token = some other := ht
        rw [lookup_erase, if_pos rfl] at ht
        cases ht

theorem expireNow_invariant (h : Invariant setting unitOf s) : Invariant setting unitOf (expireNow setting now s) ∧
    Expired s (expireNow setting now s) ∧ (setting.ownsSpool = true →
      ∀ t session, (expireNow setting now s).sessions.lookup t = some session → now < session.expiresAtMs) := by
  have hfold (tokens : List QString) (s : State) (h : Invariant setting unitOf s) :
      Invariant setting unitOf (tokens.foldl (expireOne setting now) s) ∧ Expired s (tokens.foldl (expireOne setting now) s) ∧
      ∀ t ∈ tokens, ∀ session, (tokens.foldl (expireOne setting now) s).sessions.lookup t = some session →
        now < session.expiresAtMs := by
    induction tokens generalizing s with
    | nil => exact ⟨h, .refl, by simp⟩
    | cons token rest ih =>
      obtain ⟨hone, hexpired, hdue⟩ := @expireOne_invariant setting unitOf s now h token
      obtain ⟨hrest, hexpired', hdue'⟩ := ih _ hone
      refine ⟨hrest, hexpired.trans hexpired', List.forall_mem_cons.mpr ⟨fun session ht => ?_, hdue'⟩⟩
      exact hdue session (hexpired'.fewer token session ht)
  unfold expireNow
  split_ifs with howns
  · exact ⟨h, .refl, fun howns' => by simp [howns'] at howns⟩
  · have hpruned : Invariant setting unitOf { s with expired := pruneExpired now s.expired } :=
      ⟨h.log, h.sorted, h.sessions, fun t pending ht => ⟨(h.pending t pending ht).unitName, (h.pending t pending ht).request,
        (h.pending t pending ht).session, (h.pending t pending ht).fresh⟩, h.jobs, h.known⟩
    obtain ⟨hinv, hexpired, hdue⟩ := hfold (setting.hashOrder s.sessions.keys) _ hpruned
    refine ⟨hinv, ⟨hexpired.fewer, hexpired.begun⟩, fun _ t session ht => ?_⟩
    refine hdue t ?_ session ht
    rw [(setting.hashOrder_perm _).mem_iff, ← QMap.contains_iff, QMap.contains, hexpired.fewer t session ht]
    rfl

end Expiry

section Reading
variable {setting : Setting} {file : StagedFile} {files : Files} {session complete : Session} {token : QString}

theorem hashPrivateFile_ok {expectedSize : UInt64} {r : QString × FileIdentity} (h : hashPrivateFile setting expectedSize file = .ok r) :
    file.identity = some r.2 ∧ setting.sha256 file.bytes = r.1 ∧ file.bytes.length = expectedSize.toNat := by
  cases file with
  | unreadable error => cases h
  | present bytes identity =>
    rw [hashPrivateFile] at h
    split_ifs at h with hsize
    cases h
    exact ⟨rfl, rfl, not_not.mp hsize⟩

theorem readPrivateFile_ok {least most : Nat} {r : QByteArray × FileIdentity} (h : readPrivateFile least most file = .ok r) :
    file.identity = some r.2 ∧ file.bytes = r.1 := by
  cases file with
  | unreadable error => cases h
  | present bytes identity =>
    rw [readPrivateFile] at h
    split_ifs at h
    cases h
    exact ⟨rfl, rfl⟩

theorem statPrivateFile_ok {least most : Nat} {identity : FileIdentity} (h : statPrivateFile least most file = .ok identity) :
    file.identity = some identity := by
  cases file with
  | unreadable error => cases h
  | present bytes identity =>
    rw [statPrivateFile] at h
    split_ifs at h
    cases h
    rfl

theorem loadSuccessfulOutputs_ok (h : session.loadSuccessfulOutputs setting token files = .ok complete) :
    ∃ report, Inspected setting token session.archiveDigest session.archiveSize files.report.bytes report files ∧
      complete = { session with
        reportBytes := files.report.bytes
        report := some report
        spoolIdentity := files.spool.identity
        reportIdentity := files.report.identity
        materializedIdentity := files.materialized.identity } := by
  unfold Session.loadSuccessfulOutputs at h
  cases hfreeze : files.freezeError with
  | some error =>
    rw [hfreeze] at h
    cases h
  | none =>
    rw [hfreeze] at h
    obtain ⟨spool, hspool, h⟩ := bind_ok_iff.mp h
    obtain ⟨hidentity, hdigest, hsize⟩ := hashPrivateFile_ok hspool
    dsimp only at h
    split_ifs at h with hmatch
    · cases h
    obtain ⟨read, hread, h⟩ := bind_ok_iff.mp h
    obtain ⟨hreport, hbytes⟩ := readPrivateFile_ok hread
    obtain ⟨materialized, hmaterialized, h⟩ := bind_ok_iff.mp h
    have hstat := statPrivateFile_ok hmaterialized
    cases hparsed : setting.parsePackageInspectionReport read.1 with
    | none =>
      rw [hparsed] at h
      cases h
    | some report =>
      rw [hparsed] at h
      dsimp only at h
      split_ifs at h with hbound
      · cases h
      cases h
      simp only [Bool.or_eq_true, decide_eq_true_eq, not_or, not_not, ne_eq] at hbound hmatch
      refine ⟨report, ⟨⟨hdigest.trans hmatch, hsize⟩, ⟨rfl, hbytes ▸ hparsed⟩, hbound.1.1, hbound.1.2, hbound.2⟩, ?_⟩
      rw [hidentity, hreport, hstat, hbytes]

/-- What a complete session was accepted with is still there. -/
theorem revalidateComplete_ok {u : Unit} (h : session.revalidateComplete setting files = .ok u) : session.state = .complete ∧
    setting.sha256 files.spool.bytes = session.archiveDigest ∧ files.spool.bytes.length = session.archiveSize.toNat ∧
    files.report.bytes = session.reportBytes ∧ session.spoolIdentity = files.spool.identity ∧ files.spool.identity.isSome = true ∧
    session.reportIdentity = files.report.identity ∧ files.report.identity.isSome = true ∧
    session.materializedIdentity = files.materialized.identity ∧ files.materialized.identity.isSome = true := by
  unfold Session.revalidateComplete at h
  split_ifs at h with hstate
  · cases h
  obtain ⟨spool, hspool, h⟩ := bind_ok_iff.mp h
  obtain ⟨hidentity, hdigest, hsize⟩ := hashPrivateFile_ok hspool
  obtain ⟨read, hread, h⟩ := bind_ok_iff.mp h
  obtain ⟨hreport, hbytes⟩ := readPrivateFile_ok hread
  obtain ⟨materialized, hmaterialized, h⟩ := bind_ok_iff.mp h
  have hstat := statPrivateFile_ok hmaterialized
  split_ifs at h with hsame
  simp only [Bool.or_eq_true, decide_eq_true_eq, not_or, not_not, ne_eq] at hsame hstate
  rw [hidentity, hreport, hstat, hbytes, hdigest]
  exact ⟨hstate.1, hsame.1.2, hsize, hsame.2, hsame.1.1.1.1, rfl, hsame.1.1.1.2, rfl, hsame.1.1.2, rfl⟩

end Reading

section Finishing
variable {setting : Setting} {unitOf : QString → QString} {s : State} {token : QString} {session : Session} {finishing : Finishing}

theorem Invariant.put (h : Invariant setting unitOf s) (hlive : Live setting s.log token session)
    (hpending : s.pendingByToken.lookup token = none) :
    Invariant setting unitOf { s with sessions := QMap.insert token session s.sessions } := by
  refine ⟨h.log, QMap.sorted_insert h.sorted _ _, fun t other ht => ?_, fun t pending ht => ?_, h.jobs, h.known⟩
  · rw [QMap.lookup_insert] at ht
    split_ifs at ht with heq
    · rw [heq, ← Option.some_inj.mp ht]
      exact hlive
    · exact h.sessions t other ht
  · obtain ⟨hunit, hrequest, ⟨other, hother, hstate⟩, hfresh⟩ := h.pending t pending ht
    refine ⟨hunit, hrequest, ⟨other, ?_, hstate⟩, hfresh⟩
    have hne : t ≠ token := by
      rintro rfl
      simp [hpending] at ht
    rw [QMap.lookup_insert, if_neg hne]
    exact hother

theorem failSession_invariant (h : Invariant setting unitOf s) (hsession : s.sessions.lookup token = some session)
    (hpending : s.pendingByToken.lookup token = none) (name message : QString) :
    Invariant setting unitOf (failSession token session finishing name message s) :=
  (h.erase hpending).sayClosed trivial (fun t ht => other_finished ht) (fun _ => rfl) (by rw [lookup_erase, if_pos rfl])
    (h.sessions token session hsession).begins

theorem finished_quiet {owner spoolPath materializedPath : QString} {reportBytes : QByteArray} :
    (Entry.inspectionFinished owner token reportBytes spoolPath materializedPath [] []).Quiet := by
  intro t
  refine ⟨rfl, ?_, by simp [Entry.fails]⟩
  simp [Entry.closes, Ne.symm (managerError_ne_nil _)]

theorem launcherFinished_invariant {result : LaunchResult} (h : Invariant setting unitOf s)
    (hpending : s.pendingByToken.lookup token = none)
    (hdone : result.success = true → .jobRemoved (unitNameForToken token) doneText ∈ s.log) :
    Invariant setting unitOf (launcherFinished setting token result finishing s) := by
  unfold launcherFinished
  by_cases howns : (!setting.ownsSpool) = true
  · rw [if_pos howns]
    exact h
  rw [if_neg howns]
  cases hsession : s.sessions.lookup token with
  | none => exact h
  | some session =>
    have hlive := h.sessions token session hsession
    dsimp only
    by_cases hstate : session.state ≠ .pending
    · rw [if_pos hstate]
      exact h
    rw [if_neg hstate]
    by_cases hdue : session.expiresAtMs ≤ finishing.now
    · rw [if_pos hdue]
      exact (expireNow_invariant h).1
    rw [if_neg hdue]
    by_cases hsuccess : (!result.success) = true
    · rw [if_pos hsuccess]
      exact failSession_invariant h hsession hpending _ _
    · rw [if_neg hsuccess]
      rw [Bool.not_eq_true', Bool.not_eq_false] at hsuccess
      rw [not_not] at hstate
      cases hload : session.loadSuccessfulOutputs setting token finishing.files with
      | error outputError => exact failSession_invariant h hsession hpending _ _
      | ok complete =>
        obtain ⟨report, hinspected, rfl⟩ := loadSuccessfulOutputs_ok hload
        have hsaid := (h.sayQuiet (e := .accepted token finishing.files) trivial fun _ => ⟨rfl, rfl, rfl⟩).sayQuiet
          (e := .inspectionFinished session.owner token finishing.files.report.bytes (setting.filePath token .spool)
            (setting.filePath token .materialized) [] []) trivial finished_quiet
        refine hsaid.put ?_ hpending
        have hkept := (hlive.mono (e := .accepted token finishing.files) rfl fun _ => rfl).mono
          (e := .inspectionFinished session.owner token finishing.files.report.bytes (setting.filePath token .spool)
            (setting.filePath token .materialized) [] []) (finished_quiet token).2.1 fun _ => (finished_quiet token).2.2
        refine ⟨hkept.begun, hkept.opened, fun _ => hkept.unfailed (by simp [hstate]), fun _ => ⟨?_, report, finishing.files, rfl, ?_,
          hinspected, rfl, rfl, rfl⟩⟩
        · exact List.mem_append_left _ (List.mem_append_left _ (hdone hsuccess))
        · exact List.mem_append_left _ List.mem_concat_self

theorem launcherComplete_invariant {result : LaunchResult} (h : Invariant setting unitOf s)
    (hdone : result.success = true → .jobRemoved (unitNameForToken token) doneText ∈ s.log) :
    Invariant setting unitOf (launcherComplete setting token result finishing s) := by
  unfold launcherComplete
  cases hpending : s.pendingByToken.lookup token with
  | none => exact h
  | some pending =>
    refine launcherFinished_invariant (h.forget pending) ?_ hdone
    rw [QMap.lookup_remove, if_pos rfl]

end Finishing

section Arrivals
variable {setting : Setting} {unitOf : QString → QString} {s : State} {token : QString}

theorem submitStart_invariant (h : Invariant setting unitOf s) : Invariant setting unitOf (submitStart token s) := by
  unfold submitStart
  cases hlookup : s.pendingByToken.lookup token with
  | none => exact h
  | some pending =>
    dsimp only
    split_ifs with hsubmitted
    · exact h
    · obtain ⟨hunit, hrequest, ⟨session, hsession, hstate⟩, hfresh⟩ := h.pending token pending hlookup
      have hnone := hfresh (by simpa using hsubmitted)
      have hwith : Invariant setting unitOf
          { s with pendingByToken := QMap.insert token { pending with startSubmitted := true } s.pendingByToken } := by
        refine ⟨h.log, h.sorted, h.sessions, fun t other ht => ?_, h.jobs, h.known⟩
        rw [QMap.lookup_insert] at ht
        split_ifs at ht with heq
        · rw [← Option.some_inj.mp ht, heq]
          exact ⟨hunit, hrequest, ⟨session, hsession, hstate⟩, fun hfalse => by simp at hfalse⟩
        · obtain ⟨hunit, hrequest, hsession, hfresh⟩ := h.pending t other ht
          exact ⟨hunit, hrequest, hsession, hfresh⟩
      refine hwith.say ⟨by rw [hunit, hrequest], by rwa [hrequest]⟩ (fun _ _ _ => ⟨rfl, fun _ => rfl⟩)
        (fun t other ht hother => ?_) fun t ht => ?_
      · rw [Entry.starts, hrequest, decide_eq_false_iff_not]
        rintro rfl
        rw [QMap.lookup_insert, if_pos rfl] at ht
        rw [← Option.some_inj.mp ht] at hother
        simp at hother
      · obtain rfl : token = t := by simpa [Entry.starts, Entry.closes, Entry.fails, hrequest] using ht
        exact (h.sessions token session hsession).begins

/-- What every step preserves holds after any number of them. -/
theorem foldl_keeps {P : State → Prop} {f : State → QString → State} (hf : ∀ s token, P s → P (f s token)) {s : State}
    (tokens : List QString) (h : P s) : P (tokens.foldl f s) := by
  induction tokens generalizing s with
  | nil => exact h
  | cons token rest ih => exact ih (hf s token h)

theorem Invariant.withSubscription (h : Invariant setting unitOf s) (subscription : SubscriptionState) :
    Invariant setting unitOf { s with subscription } :=
  ⟨h.log, h.sorted, h.sessions, fun t pending ht => ⟨(h.pending t pending ht).unitName, (h.pending t pending ht).request,
    (h.pending t pending ht).session, (h.pending t pending ht).fresh⟩, h.jobs, h.known⟩

theorem subscribeFinished_invariant (h : Invariant setting unitOf s) (error : Option (QString × QString))
    (finishing : QString → Finishing) : Invariant setting unitOf (subscribeFinished setting error finishing s) := by
  unfold subscribeFinished
  cases error with
  | none => exact foldl_keeps (fun s t hs => submitStart_invariant hs) _ (h.withSubscription .ready)
  | some error =>
    exact foldl_keeps (fun s t hs => launcherComplete_invariant hs fun hfalse => by simp [launchError] at hfalse) _
      (h.withSubscription .failed)

theorem startFinished_invariant (h : Invariant setting unitOf s) {reply : Except (QString × QString) QString}
    (hreply : ∀ jobPath, reply = .ok jobPath → unitOf jobPath = unitNameForToken token) (finishing : Finishing) :
    Invariant setting unitOf (startFinished setting token reply finishing s) := by
  unfold startFinished
  cases hlookup : s.pendingByToken.lookup token with
  | none => exact h
  | some pending =>
    have hrefused : Invariant setting unitOf (s.say (.startRefused pending.unitName)) := h.sayQuiet trivial fun _ => ⟨rfl, rfl, rfl⟩
    cases reply with
    | error error => exact launcherComplete_invariant hrefused fun hfalse => by simp [launchError] at hfalse
    | ok jobPath =>
      dsimp only
      split_ifs with hempty
      · exact launcherComplete_invariant hrefused fun hfalse => by simp [launchError] at hfalse
      · refine ⟨h.log, h.sorted, h.sessions, fun t other ht => ?_, fun path t ht => ?_, h.known⟩
        · rw [QMap.lookup_insert] at ht
          split_ifs at ht with heq
          · obtain ⟨hunit, hrequest, hsession, hfresh⟩ := h.pending token pending hlookup
            rw [← Option.some_inj.mp ht, heq]
            exact ⟨hunit, hrequest, hsession, hfresh⟩
          · obtain ⟨hunit, hrequest, hsession, hfresh⟩ := h.pending t other ht
            exact ⟨hunit, hrequest, hsession, hfresh⟩
        · rw [QMap.lookup_insert] at ht
          split_ifs at ht with heq
          · rw [heq, ← Option.some_inj.mp ht]
            exact hreply jobPath rfl
          · exact h.jobs path t ht

/-- A job that is removed is said, and whose inspector it was is known by its path or by its unit. -/
theorem jobRemoved_known (h : Invariant setting unitOf s) {jobPath unitName : QString} (hunit : unitOf jobPath = unitName)
    (result : QString) : Invariant setting unitOf
        { s.say (.jobRemoved unitName result) with tokenByJobPath := QMap.remove jobPath s.tokenByJobPath } ∧
      ∀ t, (s.tokenByJobPath.lookup jobPath <|> (setting.hashOrder s.pendingByToken.keys).find? fun token =>
        (s.pendingByToken.lookup token).any (·.unitName = unitName)) = some t → unitNameForToken t = unitName := by
  have hsaid : Invariant setting unitOf (s.say (.jobRemoved unitName result)) := h.sayQuiet trivial fun _ => ⟨rfl, rfl, rfl⟩
  refine ⟨⟨hsaid.log, hsaid.sorted, hsaid.sessions, fun t other ht => ?_, fun path t ht => ?_, hsaid.known⟩, fun t ht => ?_⟩
  · obtain ⟨hunit, hrequest, hsession, hfresh⟩ := hsaid.pending t other ht
    exact ⟨hunit, hrequest, hsession, hfresh⟩
  · rw [QMap.lookup_remove] at ht
    split_ifs at ht
    exact h.jobs path t ht
  · cases hjob : s.tokenByJobPath.lookup jobPath with
    | some known =>
      rw [hjob] at ht
      obtain rfl : known = t := Option.some_inj.mp ht
      rw [← h.jobs jobPath known hjob, hunit]
    | none =>
      rw [hjob] at ht
      replace ht : List.find? _ _ = some t := ht
      have hany := List.find?_some ht
      obtain ⟨pending, hpending, hname⟩ := (Option.any_eq_true _ _).mp hany
      rw [← (h.pending t pending hpending).unitName]
      exact of_decide_eq_true hname

theorem jobRemoved_invariant (h : Invariant setting unitOf s) {jobPath unitName : QString} (hunit : unitOf jobPath = unitName)
    (result : QString) (finishing : QString → Finishing) :
    Invariant setting unitOf (jobRemoved setting jobPath unitName result finishing s) := by
  obtain ⟨hwith, htoken⟩ := jobRemoved_known h hunit result
  have hcomplete {t : QString} (ht : unitNameForToken t = unitName) (success : Bool) (name message : QString)
      (hsuccess : success = true → result = doneText) : Invariant setting unitOf (launcherComplete setting t ⟨success, name, message⟩
        (finishing t) { s.say (.jobRemoved unitName result) with tokenByJobPath := QMap.remove jobPath s.tokenByJobPath }) := by
    refine launcherComplete_invariant hwith fun htrue => ?_
    rw [ht, ← hsuccess htrue]
    exact List.mem_concat_self
  unfold jobRemoved
  dsimp only [State.say] at htoken hwith hcomplete ⊢
  generalize (s.tokenByJobPath.lookup jobPath <|> (setting.hashOrder s.pendingByToken.keys).find? fun token =>
    (s.pendingByToken.lookup token).any (·.unitName = unitName)) = found at htoken ⊢
  cases found with
  | none => exact hwith
  | some t =>
    dsimp only
    by_cases hdone : result = qstr "done"
    · rw [if_pos hdone]
      exact hcomplete (htoken t rfl) _ _ _ fun _ => hdone
    · rw [if_neg hdone]
      exact hcomplete (htoken t rfl) _ _ _ fun hfalse => by simp at hfalse

end Arrivals

section Calls
variable {setting : Setting} {unitOf : QString → QString} {s : State} {sender token : QString} {now : Int}

theorem Invariant.completed_unawaited {session : Session} (h : Invariant setting unitOf s)
    (hsession : s.sessions.lookup token = some session) (hstate : session.state ≠ .pending) :
    s.pendingByToken.lookup token = none := by
  cases hlookup : s.pendingByToken.lookup token with
  | none => rfl
  | some pending =>
    obtain ⟨other, hother, hpending⟩ := (h.pending token pending hlookup).session
    rw [hsession, Option.some_inj] at hother
    exact absurd (hother ▸ hpending) hstate

theorem unavailable_closes {owner message : QString} :
    (finishedWithError owner token (managerError (qstr "InspectionUnavailable")) message []).closes token = false := by
  have hne : qstr "InspectionUnavailable" ≠ qstr "InspectionExpired" := by decide +kernel
  simp [finishedWithError, Entry.closes, managerError, hne]

theorem lookup_invariant (h : Invariant setting unitOf s) (files : Files) :
    Invariant setting unitOf (lookup setting sender token now files s) := by
  unfold lookup
  by_cases howns : (!setting.ownsSpool) = true
  · rw [if_pos howns]
    exact h.refuse _ _ _
  rw [if_neg howns]
  have hexpired := (@expireNow_invariant setting unitOf s now h).1
  dsimp only
  generalize expireNow setting now s = s at hexpired
  cases hsession : s.sessions.lookup token with
  | none => exact hexpired.refuse _ _ _
  | some session =>
    have hlive := hexpired.sessions token session hsession
    have hshown (state : SessionState) (errorName errorMessage : QString) (hstate : state = session.state ∨ state = .failed) :
        Shown s.log session.owner token (lookupResult setting token { session with state, errorName, errorMessage }) := by
      refine ⟨hlive.begun, hlive.opened, fun hcomplete => ?_⟩
      replace hcomplete : state = .complete := hcomplete
      rcases hstate with rfl | rfl
      · exact ⟨(hlive.complete hcomplete).1, hlive.unfailed (by simp [hcomplete])⟩
      · cases hcomplete
    dsimp only
    by_cases howner : session.owner ≠ sender
    · rw [if_pos howner]
      exact hexpired.refuse _ _ _
    rw [if_neg howner]
    obtain rfl := not_not.mp howner
    by_cases hcomplete : session.state = .complete
    · rw [if_pos hcomplete]
      cases hfiles : session.revalidateComplete setting files with
      | ok u => exact hexpired.sayQuiet (hshown session.state _ _ (.inl rfl)) fun _ => ⟨rfl, rfl, rfl⟩
      | error validationError =>
        have hpending := hexpired.completed_unawaited hsession (by simp [hcomplete])
        have hput := @Invariant.put setting unitOf s token { session with
          state := .failed
          errorName := managerError (qstr "InspectionUnavailable")
          errorMessage := validationError } hexpired ⟨hlive.begun, hlive.opened, by simp, by simp⟩ hpending
        have hopen := @unavailable_closes token session.owner validationError
        refine Invariant.sayQuiet (Invariant.say hput trivial (fun t other ht => ?_) (fun _ _ _ _ => rfl) fun t ht => ?_) ?_
          fun _ => ⟨rfl, rfl, rfl⟩
        · by_cases hne : t = token
          · rw [hne, QMap.lookup_insert, if_pos rfl, Option.some_inj] at ht
            rw [hne]
            exact ⟨hopen, fun hfailed => absurd (ht ▸ rfl) hfailed⟩
          · exact ⟨(other_finished hne).1, fun _ => (other_finished hne).2⟩
        · by_cases hne : t = token
          · exact hne ▸ hlive.begins
          · rw [starts_finished, (other_finished hne).1, (other_finished hne).2] at ht
            cases ht
        · obtain ⟨hbegun, hopened, -⟩ := hshown .failed (managerError (qstr "InspectionUnavailable")) validationError (.inr rfl)
          refine ⟨List.mem_append_left _ hbegun, ?_, fun hfalse => by cases hfalse⟩
          simpa [State.say, or_imp, forall_and] using ⟨hopened, hopen⟩
    · rw [if_neg hcomplete]
      exact hexpired.sayQuiet (hshown session.state _ _ (.inl rfl)) fun _ => ⟨rfl, rfl, rfl⟩

/-- A session that is complete and whose files are as they were is released with all it has been through. -/
theorem Live.released {log : List Entry} {session : Session} {files : Files} {report : PackageInspectionReport} {expected : QString}
    {u : Unit} (h : Live setting log token session) (hdue : now < session.expiresAtMs) (hreport : session.report = some report)
    (hfiles : session.revalidateComplete setting files = .ok u) (hexpected : expected = session.archiveDigest) :
    Released setting log session.owner expected now files
      { token
        archiveDigest := session.archiveDigest
        archiveSize := session.archiveSize
        reportBytes := session.reportBytes
        report
        spoolPath := setting.filePath token .spool
        materializedPath := setting.filePath token .materialized } := by
  obtain ⟨hcomplete, hdigest, hsize, hbytes, hspool, hspoolSome, hread, hreadSome, hmaterialized, hmaterializedSome⟩ :=
    revalidateComplete_ok hfiles
  obtain ⟨hdone, other, accepted, hother, haccepted, hinspected, hspool', hread', hmaterialized'⟩ := h.complete hcomplete
  obtain rfl : other = report := Option.some_inj.mp (hother.symm.trans hreport)
  refine ⟨⟨session.expiresAtMs, hdue, h.begun⟩, hexpected, hdone, ⟨accepted, haccepted, ?_, hinspected, ?_⟩, fun e he => ?_⟩
  · exact ⟨⟨hspoolSome, hspool.symm.trans hspool'⟩, ⟨hreadSome, hread.symm.trans hread'⟩,
      ⟨hmaterializedSome, hmaterialized.symm.trans hmaterialized'⟩⟩
  · exact ⟨⟨hdigest, hsize⟩, ⟨hbytes, hinspected.parsed.2⟩, hinspected.bound⟩
  · exact ⟨h.opened e he, h.unfailed (by simp [hcomplete]) e he⟩

theorem takeForInstall_invariant (h : Invariant setting unitOf s) (expected : QString) (files : Files) (leaseError : Option QString) :
    Invariant setting unitOf (takeForInstall setting sender token expected now files leaseError s) := by
  unfold takeForInstall
  by_cases howns : (!setting.ownsSpool) = true
  · rw [if_pos howns]
    exact h.refuse _ _ _
  rw [if_neg howns]
  obtain ⟨hexpired, -, hdue⟩ := @expireNow_invariant setting unitOf s now h
  rw [Bool.not_eq_true', Bool.not_eq_false] at howns
  replace hdue := hdue howns token
  dsimp only
  generalize expireNow setting now s = s at hexpired hdue
  cases hsession : s.sessions.lookup token with
  | none => exact hexpired.refuse _ _ _
  | some session =>
    have hlive := hexpired.sessions token session hsession
    dsimp only
    by_cases howner : session.owner ≠ sender
    · rw [if_pos howner]
      exact hexpired.refuse _ _ _
    rw [if_neg howner]
    obtain rfl := not_not.mp howner
    by_cases hexpected : (!hasMatch digestPattern expected || expected ≠ session.archiveDigest) = true
    · rw [if_pos hexpected]
      exact hexpired.refuse _ _ _
    rw [if_neg hexpected]
    simp only [Bool.or_eq_true, decide_eq_true_eq, not_or, not_not, ne_eq] at hexpected
    cases hreport : session.report with
    | none => exact hexpired.refuse _ _ _
    | some report =>
      dsimp only
      by_cases hstate : session.state ≠ .complete
      · rw [if_pos hstate]
        exact hexpired.refuse _ _ _
      rw [if_neg hstate]
      rw [not_not] at hstate
      have herased := hexpired.erase (hexpired.completed_unawaited hsession (by simp [hstate]))
      cases hfiles : session.revalidateComplete setting files with
      | error validationError => exact herased.refuse _ _ _
      | ok u =>
        cases leaseError with
        | some error => exact hexpired.refuse _ _ _
        | none =>
          refine herased.sayClosed (hlive.released (hdue session hsession) hreport hfiles hexpected.2) (fun t ht => ?_) (fun _ => rfl)
            (by rw [lookup_erase, if_pos rfl]) hlive.begins
          exact ⟨by simpa [Entry.closes] using Ne.symm ht, rfl⟩

theorem dropped_other {t : QString} (ht : t ≠ token) : (Entry.cancelled sender token).closes t = false ∧
    (Entry.cancelledForSender sender token).closes t = false := by
  simp [Entry.closes, Ne.symm ht]

theorem cancel_invariant (h : Invariant setting unitOf s) : Invariant setting unitOf (cancel setting sender token now s) := by
  unfold cancel
  by_cases howns : (!setting.ownsSpool) = true
  · rw [if_pos howns]
    exact h.refuse _ _ _
  rw [if_neg howns]
  have hexpired := (@expireNow_invariant setting unitOf s now h).1
  dsimp only
  generalize expireNow setting now s = s at hexpired
  cases hsession : s.sessions.lookup token with
  | none => exact hexpired.refuse _ _ _
  | some session =>
    dsimp only
    split_ifs
    · exact hexpired.refuse _ _ _
    · exact hexpired.drop hsession (by exact trivial) (fun _ => rfl) fun t ht => ⟨(dropped_other ht).1, rfl⟩

theorem cancelOneForSender_invariant (h : Invariant setting unitOf s) : Invariant setting unitOf (cancelOneForSender sender s token) := by
  unfold cancelOneForSender
  cases hsession : s.sessions.lookup token with
  | none => exact h
  | some session =>
    dsimp only
    split_ifs
    · exact h
    · exact h.drop hsession (by exact trivial) (fun _ => rfl) fun t ht => ⟨(dropped_other ht).2, rfl⟩

theorem cancelAllForSender_invariant (h : Invariant setting unitOf s) :
    Invariant setting unitOf (cancelAllForSender setting sender s) := by
  unfold cancelAllForSender
  split_ifs
  · exact h
  · exact foldl_keeps (fun s t hs => cancelOneForSender_invariant hs) _ h

end Calls

section Beginning
variable {setting : Setting} {unitOf : QString → QString} {s s' : State} {token : QString} {connected : Bool} {request : LaunchRequest}

/-- What a launch says: nothing, that signals are wanted, or at once the start of the unit. -/
inductive LaunchSays (request : LaunchRequest) : Bool → List Entry → Prop
  | waits : LaunchSays request false []
  | subscribes : LaunchSays request false [.subscribe]
  | starts : LaunchSays request true [.startTransientUnit (unitNameForToken request.token) request]

theorem launcherStart_ok (h : launcherStart setting connected request s = .ok s') : ∃ submitted said, LaunchSays request submitted said ∧
    s'.log = s.log ++ said ∧ s'.sessions = s.sessions ∧ s'.tokenByJobPath = s.tokenByJobPath ∧
    ∀ t, s'.pendingByToken.lookup t = if t = request.token then
      some { request, unitName := unitNameForToken request.token, startSubmitted := submitted } else s.pendingByToken.lookup t := by
  unfold launcherStart at h
  split_ifs at h
  obtain rfl := Except.ok.inj h
  by_cases hready : s.subscription = .ready
  · have hlookup : (QMap.insert request.token
        ({ request, unitName := unitNameForToken request.token } : PendingLaunch) s.pendingByToken).lookup request.token =
        some { request, unitName := unitNameForToken request.token } := by rw [QMap.lookup_insert, if_pos rfl]
    rw [if_pos hready, submitStart, hlookup]
    refine ⟨true, _, .starts, rfl, rfl, rfl, fun t => ?_⟩
    simp only [State.say, Bool.false_eq_true, if_false, QMap.lookup_insert]
    split_ifs <;> rfl
  · rw [if_neg hready]
    unfold ensureSubscribed
    split_ifs
    · exact ⟨false, [], .waits, (List.append_nil _).symm, rfl, rfl, fun t => QMap.lookup_insert _ _ _ _⟩
    · exact ⟨false, _, .subscribes, rfl, rfl, rfl, fun t => QMap.lookup_insert _ _ _ _⟩

theorem LaunchSays.quiet {submitted : Bool} {said : List Entry} (h : LaunchSays request submitted said) :
    ∀ e ∈ said, (∀ t, e.closes t = false ∧ e.fails t = false ∧ e.begins t = false) ∧
      (∀ t, t ≠ request.token → e.starts t = false) ∧ (submitted = false → e.starts request.token = false) := by
  cases h with
  | waits => simp
  | subscribes => simp [Entry.closes, Entry.fails, Entry.begins, Entry.starts]
  | starts =>
    simp only [List.mem_singleton, forall_eq]
    exact ⟨fun t => ⟨rfl, rfl, rfl⟩, fun t ht => by simpa [Entry.starts] using Ne.symm ht, fun h => by cases h⟩

/-- A session that begins, once its inspector is launched. -/
theorem Invariant.begin {session : Session} (h : Invariant setting unitOf s)
    (hfresh : ∀ e ∈ s.log, e.begins request.token = false)
    (hstate : session.state = .pending)
    (hstart : launcherStart setting connected request { s with sessions := QMap.insert request.token session s.sessions } = .ok s') :
    Invariant setting unitOf (s'.say (.begun session.owner request.token session.archiveDigest session.archiveSize session.expiresAtMs)) := by
  obtain ⟨submitted, said, hlaunch, hlog, hsessions, hjobs, hpendings⟩ := launcherStart_ok hstart
  have hquiet := hlaunch.quiet
  have hunknown := h.known request.token hfresh
  have hsound : Sound setting s'.log := by
    rw [hlog]
    cases hlaunch with
    | waits => rw [List.append_nil]; exact h.log
    | subscribes => exact h.log.append trivial
    | starts => exact h.log.append ⟨rfl, fun e he => (hunknown e he).1⟩
  have hbegun : ∀ e ∈ s'.log, e.begins request.token = false := by
    rw [hlog]
    exact List.forall_mem_append.mpr ⟨hfresh, fun e he => ((hquiet e he).1 _).2.2⟩
  refine ⟨hsound.append hbegun, ?_, fun t other ht => ?_, fun t pending ht => ?_, fun path t ht => ?_, fun t ht => ?_⟩
  · rw [State.say, hsessions]
    exact QMap.sorted_insert h.sorted _ _
  · rw [State.say, hsessions, QMap.lookup_insert] at ht
    rw [State.say, hlog, List.append_assoc]
    split_ifs at ht with heq
    · obtain rfl := Option.some_inj.mp ht
      subst heq
      refine ⟨by simp, ?_, fun _ => ?_, fun hcomplete => by simp [hstate] at hcomplete⟩
      · exact List.forall_mem_append.mpr ⟨fun e he => (hunknown e he).2.1, List.forall_mem_append.mpr
          ⟨fun e he => ((hquiet e he).1 _).1, by simp [Entry.closes]⟩⟩
      · exact List.forall_mem_append.mpr ⟨fun e he => (hunknown e he).2.2, List.forall_mem_append.mpr
          ⟨fun e he => ((hquiet e he).1 _).2.1, by simp [Entry.fails]⟩⟩
    · obtain ⟨hbegun, hopened, hunfailed, hcomplete⟩ := h.sessions t other ht
      refine ⟨List.mem_append_left _ hbegun, ?_, fun hother => ?_, fun hother => ?_⟩
      · exact List.forall_mem_append.mpr ⟨hopened, List.forall_mem_append.mpr
          ⟨fun e he => ((hquiet e he).1 _).1, by simp [Entry.closes]⟩⟩
      · exact List.forall_mem_append.mpr ⟨hunfailed hother, List.forall_mem_append.mpr
          ⟨fun e he => ((hquiet e he).1 _).2.1, by simp [Entry.fails]⟩⟩
      · obtain ⟨hdone, report, accepted, hreport, haccepted, hrest⟩ := hcomplete hother
        exact ⟨List.mem_append_left _ hdone, report, accepted, hreport, List.mem_append_left _ haccepted, hrest⟩
  · replace ht := (hpendings t).symm.trans ht
    rw [State.say, hlog, List.append_assoc]
    split_ifs at ht with heq
    · obtain rfl := Option.some_inj.mp ht
      subst heq
      refine ⟨rfl, rfl, ⟨session, ?_, hstate⟩, fun hsubmitted => ?_⟩
      · rw [hsessions, QMap.lookup_insert, if_pos rfl]
      · exact List.forall_mem_append.mpr ⟨fun e he => (hunknown e he).1, List.forall_mem_append.mpr
          ⟨fun e he => (hquiet e he).2.2 hsubmitted, by simp [Entry.starts]⟩⟩
    · obtain ⟨hunit, hrequest, ⟨other, hother, hpending⟩, hnone⟩ := h.pending t pending ht
      refine ⟨hunit, hrequest, ⟨other, ?_, hpending⟩, fun hsubmitted => ?_⟩
      · rw [hsessions, QMap.lookup_insert, if_neg heq]
        exact hother
      · exact List.forall_mem_append.mpr ⟨hnone hsubmitted, List.forall_mem_append.mpr
          ⟨fun e he => (hquiet e he).2.1 t heq, by simp [Entry.starts]⟩⟩
  · rw [State.say, hjobs] at ht
    exact h.jobs path t ht
  · rw [State.say, hlog, List.append_assoc] at ht ⊢
    obtain ⟨hbefore, -, hlast⟩ := List.forall_mem_append.mp ht |>.imp_right List.forall_mem_append.mp
    have hne : t ≠ request.token := by
      rintro rfl
      simp [Entry.begins] at hlast
    refine List.forall_mem_append.mpr ⟨h.known t hbefore, List.forall_mem_append.mpr ⟨fun e he => ?_, ?_⟩⟩
    swap
    · simp [Entry.starts, Entry.closes, Entry.fails]
    exact ⟨(hquiet e he).2.1 t hne, ((hquiet e he).1 t).1, ((hquiet e he).1 t).2.1⟩

end Beginning

end HyprShelld.Inspection
