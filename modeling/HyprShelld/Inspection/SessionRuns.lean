import HyprShelld.Inspection.SessionInvariant

/-! Inspections over whole runs: what each released package has been through, and that inspectors and
sessions stay matched. -/
namespace HyprShelld.Inspection
open Components

section Runs
variable {setting : Setting} {unitOf : QString → QString} {s : State}

theorem beginInspection_invariant {sender : QString} {now later : Int} {staging : Staging} {connected : Bool}
    (h : Invariant setting unitOf s)
    (hfresh : ∀ token bytes, staging = .staged token bytes → ∀ e ∈ s.log, e.begins token = false) :
    Invariant setting unitOf (beginInspection setting sender now staging later connected s) := by
  unfold beginInspection
  split_ifs
  · exact h.refuse _ _ _
  obtain ⟨hexpired, hbegun, -⟩ := @expireNow_invariant setting unitOf s now h
  replace hfresh (token : QString) (bytes : QByteArray) (hstaging : staging = .staged token bytes) :
      ∀ e ∈ (expireNow setting now s).log, e.begins token = false := by
    intro e he
    by_contra hne
    rw [Bool.not_eq_false] at hne
    rw [hfresh token bytes hstaging e (hbegun.begun e he token hne)] at hne
    cases hne
  dsimp only
  generalize expireNow setting now s = s at hexpired hfresh
  split_ifs
  · exact hexpired.refuse _ _ _
  cases staging with
  | failed error => exact hexpired.refuse _ _ _
  | staged token bytes =>
    dsimp only
    split_ifs
    · exact hexpired.refuse _ _ _
    cases hstart : launcherStart setting connected (launchRequest setting token (setting.sha256 bytes)) { s with
        sessions := QMap.insert token
          { owner := sender
            archiveDigest := setting.sha256 bytes
            archiveSize := UInt64.ofNat bytes.length
            expiresAtMs := later + setting.timeToLiveMs } s.sessions } with
    | error launchError => exact hexpired.refuse _ _ _
    | ok s' => exact hexpired.begin (hfresh token bytes rfl) rfl hstart

/-- No token is made up twice, and every job path belongs to one unit. -/
def Genuine (unitOf : QString → QString) (s : State) : Event → Prop
  | .begin _ _ (.staged token _) _ _ => ∀ e ∈ s.log, e.begins token = false
  | .startFinished token (.ok jobPath) _ => unitOf jobPath = unitNameForToken token
  | .jobRemoved jobPath unitName _ _ => unitOf jobPath = unitName
  | _ => True

theorem step_invariant (event : Event) (hgenuine : Genuine unitOf s event) (h : Invariant setting unitOf s) :
    Invariant setting unitOf (step setting s event) := by
  cases event with
  | begin sender now staging later connected =>
    refine beginInspection_invariant h fun token bytes hstaging => ?_
    subst hstaging
    exact hgenuine
  | lookup sender token now files => exact lookup_invariant h files
  | takeForInstall sender token expected now files leaseError => exact takeForInstall_invariant h expected files leaseError
  | cancel sender token now => exact cancel_invariant h
  | cancelAllForSender sender => exact cancelAllForSender_invariant h
  | expireNow now => exact (expireNow_invariant h).1
  | subscribeFinished error finishing => exact subscribeFinished_invariant h error finishing
  | startFinished token reply finishing =>
    refine startFinished_invariant h (fun jobPath hreply => ?_) finishing
    subst hreply
    exact hgenuine
  | jobRemoved jobPath unitName result finishing => exact jobRemoved_invariant h hgenuine result finishing

theorem initial_invariant : Invariant setting unitOf {} :=
  ⟨sound_nil, QMap.sorted_nil, by simp, by simp, by simp, by simp⟩

/-- A session of the token is given to a sender. -/
def Entry.returns (token : QString) : Entry → Bool
  | .taken _ _ _ _ artifact => artifact.token = token
  | .found _ t _ => t = token
  | _ => false

/-- In any run, what is handed out was begun by the same sender, whose inspector has succeeded, is not due and has the files it
was accepted with; from then on nobody is given that session again. What is looked up belongs to the sender and is still there. -/
theorem package_released {events : List Event} (hrun : Permitted (step setting) (Genuine unitOf) {} events) :
    (∀ before sender expected now files artifact after,
      (run (step setting) {} events).log = before ++ .taken sender expected now files artifact :: after →
        Released setting before sender expected now files artifact ∧ ∀ e ∈ after, e.returns artifact.token = false) ∧
    ∀ before sender token result after, (run (step setting) {} events).log = before ++ .found sender token result :: after →
      Shown before sender token result := by
  have hsound := (run_permitted (fun s e => step_invariant e) (@initial_invariant setting unitOf) hrun).log
  refine ⟨fun before sender expected now files artifact after hlog => ⟨hsound _ _ _ hlog, fun e he => ?_⟩,
    fun before sender token result after hlog => hsound _ _ _ hlog⟩
  obtain ⟨between, rest, rfl⟩ := List.append_of_mem he
  have hlater := hsound (before ++ .taken sender expected now files artifact :: between) e rest (by simp [hlog])
  have hmem : .taken sender expected now files artifact ∈ before ++ .taken sender expected now files artifact :: between := by simp
  cases e with
  | taken sender' expected' now' files' artifact' =>
    have hopen := (hlater.once _ hmem).1
    simpa [Entry.closes, Entry.returns, eq_comm] using hopen
  | found sender' token' result =>
    have hopen := hlater.opened _ hmem
    simpa [Entry.closes, Entry.returns, eq_comm] using hopen
  | _ => rfl

end Runs

section Sample

def sampleToken : QString := List.replicate 32 (unit '0')
def sampleDigest : QString := List.replicate 64 (unit 'a')

def sampleSetting : Setting where
  timeToLiveMs := 300000
  executable := qstr "/usr/libexec/inspector"
  filePath token name := qstr "/run/" ++ token ++ match name with
    | .spool => qstr "/package"
    | .report => qstr "/report"
    | .materialized => qstr "/materialized"
  sha256 _ := sampleDigest
  parsePackageInspectionReport _ := some ⟨sampleToken, sampleDigest, 2⟩
  hashOrder keys := keys
  hashOrder_perm _ := .refl _

def sampleFiles : Files where
  spool := .present [1, 2] ⟨1, 1, 2, 0, 0, 0, 0⟩
  report := .present [3] ⟨1, 2, 1, 0, 0, 0, 0⟩
  materialized := .present [4] ⟨1, 3, 1, 0, 0, 0, 0⟩

def sampleEvents : List Event := [
  .begin (qstr ":1.42") 0 (.staged sampleToken [1, 2]) 0 true,
  .subscribeFinished none fun _ => ⟨0, 0, sampleFiles, []⟩,
  .startFinished sampleToken (.ok (qstr "/job/1")) ⟨0, 0, sampleFiles, []⟩,
  .jobRemoved (qstr "/job/1") (unitNameForToken sampleToken) doneText fun _ => ⟨500, 500, sampleFiles, []⟩,
  .takeForInstall (qstr ":1.42") sampleToken sampleDigest 1000 sampleFiles none]

def sampleArtifact : Artifact where
  token := sampleToken
  archiveDigest := sampleDigest
  archiveSize := 2
  reportBytes := [3]
  report := ⟨sampleToken, sampleDigest, 2⟩
  spoolPath := sampleSetting.filePath sampleToken .spool
  materializedPath := sampleSetting.filePath sampleToken .materialized

theorem sample_permitted : Permitted (step sampleSetting) (Genuine fun _ => unitNameForToken sampleToken) {} sampleEvents :=
  ⟨List.forall_mem_nil _, trivial, rfl, rfl, trivial, trivial⟩

theorem package_released_sample : ∃ before after,
    (run (step sampleSetting) {} sampleEvents).log =
      before ++ .taken (qstr ":1.42") sampleDigest 1000 sampleFiles sampleArtifact :: after ∧
    Released sampleSetting before (qstr ":1.42") sampleDigest 1000 sampleFiles sampleArtifact := by
  have hlog : (run (step sampleSetting) {} sampleEvents).log =
      (run (step sampleSetting) {} (sampleEvents.take 4)).log ++
        .taken (qstr ":1.42") sampleDigest 1000 sampleFiles sampleArtifact :: [] := by decide +kernel
  exact ⟨_, _, hlog, ((package_released sample_permitted).1 _ _ _ _ _ _ _ hlog).1⟩

end Sample

end HyprShelld.Inspection
