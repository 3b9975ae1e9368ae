import HyprShelld.Component.ConfigurationRuns
import HyprShelld.Support.Execution

/-! The configuration through failed writes, power cuts and restarts: one of the two files always holds
the last one. -/
namespace HyprShelld.Configuration
open Components Program

/-- The files, and whether the power has gone. -/
structure Disk where
  content : SnapshotFile → FileContent
  down : Bool := false

def Disk.put (disk : Disk) (file : SnapshotFile) (content : FileContent) : Disk :=
  { disk with content := Function.update disk.content file content }

section Durable
variable (number : NumberText) (unicode : UnicodeTables) (paths : ComponentPaths) (catalogs : ConfigurationCatalog → Prop)

/-- The file as it is written. -/
def saved (state : ComponentConfiguration) : FileContent := .present (serializeComponentConfiguration number state)

/-- What reads back under every catalog in use and is not migrated. -/
structure Steady (state : ComponentConfiguration) : Prop where
  size : (serializeComponentConfiguration number state).length ≤ maximumComponentConfigurationBytes
  reads : ∀ catalog, catalogs catalog →
    (parseComponentConfiguration number unicode catalog (serializeComponentConfiguration number state)).value = some state
  settled : ∀ catalog, catalogs catalog → migrationCandidate number unicode state catalog = none

/-- No catalog in use reads the content. -/
def Unread (content : FileContent) : Prop :=
  ∀ catalog, catalogs catalog → ∀ path, (snapshotResult number unicode catalog path content).status ≠ .valid

/-- Reading may fail for a time, and so may a write, which then leaves the file alone. A write during which the power goes
leaves no configuration in its file; nothing happens after it. What is written is steady. -/
inductive StoreEffect : Disk → (c : StoreCall) → StoreCall.Answer c → Disk → Prop
  | read (disk : Disk) (file : SnapshotFile) : StoreEffect disk (.read file) (disk.content file) disk
  | unread (disk : Disk) (file : SnapshotFile) (error : QString) : StoreEffect disk (.read file) (.unreadable error) disk
  | written {disk : Disk} (file : SnapshotFile) {state : ComponentConfiguration} :
    disk.down = false → Steady number unicode catalogs state →
    StoreEffect disk (.write file state) none (disk.put file (saved number state))
  | failed (disk : Disk) (file : SnapshotFile) (state : ComponentConfiguration) (error : QString) :
    StoreEffect disk (.write file state) (some error) disk
  | torn {disk : Disk} (file : SnapshotFile) (state : ComponentConfiguration) {content : FileContent} (answer : Option QString) :
    disk.down = false → Unread number unicode catalogs content →
    StoreEffect disk (.write file state) answer { disk.put file content with down := true }
  | off {disk : Disk} (c : StoreCall) (answer : StoreCall.Answer c) : disk.down = true → StoreEffect disk c answer disk

/-- What the next load makes of the files. -/
def Holds (disk : Disk) (state : ComponentConfiguration) : Prop :=
  Steady number unicode catalogs state ∧ (disk.content .active = saved number state ∨
    Unread number unicode catalogs (disk.content .active) ∧ disk.content .recovery = saved number state)

/-- Each of the two files holds a steady configuration or none. -/
def Whole (disk : Disk) : Prop := ∀ file, file ≠ .defaults → Unread number unicode catalogs (disk.content file) ∨
  ∃ state, Steady number unicode catalogs state ∧ disk.content file = saved number state

/-- The configuration on the disk stays or gives way to a later one. -/
structure Lasts (before after : Disk) : Prop where
  whole : Whole number unicode catalogs after
  held : ∀ state, Holds number unicode catalogs before state → ∃ next, Holds number unicode catalogs after next ∧ Later state next

inductive ServiceRequest where
  | replace (expectedRevision : UInt64) (expectedCatalogDigest : QString) (candidateSnapshot : QByteArray)
  | catalog (installed : ConfigurationCatalog)
  | catalogUnavailable

def ServiceRequest.program (service : ComponentConfigService) : ServiceRequest → StoreProgram ComponentConfigService
  | .replace expectedRevision expectedCatalogDigest candidateSnapshot => do
    let result ← service.ReplaceSnapshot number unicode expectedRevision expectedCatalogDigest candidateSnapshot
    return result.1
  | .catalog installed => service.applyCatalog number unicode paths installed
  | .catalogUnavailable => return service.setCatalogUnavailable

/-- A request is carried out, or the process ends somewhere in it and another one begins. -/
inductive MachineStep : ComponentConfigService × Disk → ComponentConfigService × Disk → Prop
  | answered {service after : ComponentConfigService} {disk disk' : Disk} {request : ServiceRequest} :
    (∀ catalog, request = ServiceRequest.catalog catalog → catalogs catalog) →
    Executes (StoreEffect number unicode catalogs) disk (request.program number unicode paths service) disk' (some after) →
    disk'.down = false → MachineStep (service, disk) (after, disk')
  | restarted {service : ComponentConfigService} {disk disk' : Disk} {request : ServiceRequest} {result : Option ComponentConfigService}
      (legacy : Option LegacyWorkspaceSettings) :
    (∀ catalog, request = ServiceRequest.catalog catalog → catalogs catalog) →
    Executes (StoreEffect number unicode catalogs) disk (request.program number unicode paths service) disk' result →
    MachineStep (service, disk) ({ legacyWorkspaceSettings := legacy }, { disk' with down := false })

def MachineRun : ComponentConfigService × Disk → ComponentConfigService × Disk → Prop :=
  Relation.ReflTransGen (MachineStep number unicode paths catalogs)

end Durable

section Held
variable {number : NumberText} {unicode : UnicodeTables} {paths : ComponentPaths} {catalogs : ConfigurationCatalog → Prop}
  {catalog : ConfigurationCatalog} {disk disk' disk'' : Disk} {state next : ComponentConfiguration}

@[simp] theorem put_same {file : SnapshotFile} {content : FileContent} : (disk.put file content).content file = content := by
  simp [Disk.put]

theorem put_other {file other : SnapshotFile} {content : FileContent} (h : other ≠ file) :
    (disk.put file content).content other = disk.content other := by
  simp [Disk.put, h]

theorem Steady.snapshot (h : Steady number unicode catalogs state) (hcatalog : catalogs catalog) (path : QString) :
    snapshotResult number unicode catalog path (saved number state) = { status := .valid, state } :=
  snapshotResult_present h.size (h.reads catalog hcatalog)

theorem Steady.not_unread (h : Steady number unicode catalogs state) (hcatalog : catalogs catalog) :
    ¬ Unread number unicode catalogs (saved number state) :=
  fun hunread => hunread catalog hcatalog [] (by rw [h.snapshot hcatalog])

theorem Steady.saved_inj (h : Steady number unicode catalogs state) (h' : Steady number unicode catalogs next)
    (hcatalog : catalogs catalog) (heq : saved number state = saved number next) : state = next := by
  have := h.snapshot hcatalog []
  rw [heq, h'.snapshot hcatalog] at this
  exact (congrArg ReadResult.state this).symm

/-- The disk holds one configuration at most. -/
theorem Holds.unique (hcatalog : catalogs catalog) (h : Holds number unicode catalogs disk state)
    (h' : Holds number unicode catalogs disk next) : state = next := by
  obtain ⟨hsteady, hactive | ⟨hunread, hrecovery⟩⟩ := h
  · obtain ⟨hsteady', hactive' | ⟨hunread, -⟩⟩ := h'
    · exact hsteady.saved_inj hsteady' hcatalog (hactive.symm.trans hactive')
    · exact absurd (hactive ▸ hunread) (hsteady.not_unread hcatalog)
  · obtain ⟨hsteady', hactive' | ⟨-, hrecovery'⟩⟩ := h'
    · exact absurd (hactive' ▸ hunread) (hsteady'.not_unread hcatalog)
    · exact hsteady.saved_inj hsteady' hcatalog (hrecovery.symm.trans hrecovery')

theorem Lasts.refl (h : Whole number unicode catalogs disk) : Lasts number unicode catalogs disk disk :=
  ⟨h, fun state hstate => ⟨state, hstate, .inl rfl⟩⟩

theorem Lasts.trans (h : Lasts number unicode catalogs disk disk') (h' : Lasts number unicode catalogs disk' disk'') :
    Lasts number unicode catalogs disk disk'' := by
  refine ⟨h'.whole, fun state hstate => ?_⟩
  obtain ⟨middle, hmiddle, hlater⟩ := h.held state hstate
  obtain ⟨next, hnext, hlater'⟩ := h'.held middle hmiddle
  exact ⟨next, hnext, hlater.trans hlater'⟩

theorem Whole.put (h : Whole number unicode catalogs disk) (file : SnapshotFile) {content : FileContent}
    (hcontent : Unread number unicode catalogs content ∨
      ∃ state, Steady number unicode catalogs state ∧ content = saved number state) :
    Whole number unicode catalogs (disk.put file content) := by
  intro other hother
  by_cases hsame : other = file
  · subst hsame
    rw [put_same]
    exact hcontent
  · rw [put_other hsame]
    exact h other hother

/-- Whether there is power makes no difference to what the files hold. -/
theorem Lasts.power (h : Lasts number unicode catalogs disk disk') (down : Bool) :
    Lasts number unicode catalogs disk { disk' with down } := ⟨h.whole, h.held⟩

/-- The last good file may be anything while the active one is whole. -/
theorem lasts_recovery (hcatalog : catalogs catalog) (hwhole : Whole number unicode catalogs disk)
    (hstate : Steady number unicode catalogs state) (hactive : disk.content .active = saved number state) {content : FileContent}
    (hcontent : Unread number unicode catalogs content ∨ ∃ state, Steady number unicode catalogs state ∧ content = saved number state) :
    Lasts number unicode catalogs disk (disk.put .recovery content) := by
  refine ⟨hwhole.put _ hcontent, fun other hother => ⟨state, ⟨hstate, .inl ?_⟩, .inl ?_⟩⟩
  · rw [put_other (by decide), hactive]
  · exact Holds.unique hcatalog ⟨hstate, .inl hactive⟩ hother

/-- The active file may lose what it holds while the last good one is whole. -/
theorem lasts_active_torn (hcatalog : catalogs catalog) (hwhole : Whole number unicode catalogs disk)
    (hstate : Holds number unicode catalogs disk state) (hrecovery : disk.content .recovery = saved number state)
    {content : FileContent} (hcontent : Unread number unicode catalogs content) :
    Lasts number unicode catalogs disk (disk.put .active content) := by
  refine ⟨hwhole.put _ (.inl hcontent), fun other hother => ⟨state, ⟨hstate.1, .inr ⟨?_, ?_⟩⟩, .inl ?_⟩⟩
  · rwa [put_same]
  · rw [put_other (by decide), hrecovery]
  · exact hstate.unique hcatalog hother

theorem holds_active (hnext : Steady number unicode catalogs next) :
    Holds number unicode catalogs (disk.put .active (saved number next)) next := ⟨hnext, .inl put_same⟩

theorem lasts_active (hwhole : Whole number unicode catalogs disk) (hnext : Steady number unicode catalogs next)
    (hlater : ∀ state, Holds number unicode catalogs disk state → Later state next) :
    Lasts number unicode catalogs disk (disk.put .active (saved number next)) :=
  ⟨hwhole.put _ (.inr ⟨next, hnext, rfl⟩), fun state hstate => ⟨next, holds_active hnext, hlater state hstate⟩⟩

end Held

section Calls
variable {number : NumberText} {unicode : UnicodeTables} {paths : ComponentPaths} {catalogs : ConfigurationCatalog → Prop}
  {catalog : ConfigurationCatalog} {disk disk' : Disk} {state next : ComponentConfiguration} {α : Type} {crash : Disk → Prop}
  {post : α → Disk → Prop} {file : SnapshotFile}

theorem StoreEffect.off_eq {c : StoreCall} {answer : StoreCall.Answer c} (h : StoreEffect number unicode catalogs disk c answer disk')
    (hdown : disk.down = true) : disk' = disk := by
  cases h with
  | written _ hup => rw [hdown] at hup; cases hup
  | torn _ _ _ hup => rw [hdown] at hup; cases hup
  | _ => rfl

/-- Without power nothing more happens. -/
theorem wp_off {x : StoreProgram α} (hdown : disk.down = true) (hcrash : crash disk) (hpost : ∀ a, post a disk) :
    x.wp (StoreEffect number unicode catalogs) crash post disk := by
  induction x with
  | done a => exact ⟨hcrash, hpost a⟩
  | call c next ih =>
    refine ⟨hcrash, fun answer m h => ?_⟩
    rw [h.off_eq hdown]
    exact ih answer

theorem wp_write {f : Option QString → StoreProgram α} (hcrash : crash disk) (hpost : ∀ a m, m.down = true → post a m)
    (hwritten : Steady number unicode catalogs state →
      (f none).wp (StoreEffect number unicode catalogs) crash post (disk.put file (saved number state)))
    (hfailed : ∀ error, (f (some error)).wp (StoreEffect number unicode catalogs) crash post disk)
    (htorn : ∀ content, Unread number unicode catalogs content → crash { disk.put file content with down := true }) :
    (ComponentStore.write file state >>= f).wp (StoreEffect number unicode catalogs) crash post disk := by
  refine ⟨hcrash, fun answer m h => ?_⟩
  cases h with
  | written _ _ hstate => exact hwritten hstate
  | failed _ _ error => exact hfailed error
  | torn _ _ _ _ hcontent => exact wp_off rfl (htorn _ hcontent) fun a => hpost a _ rfl
  | off _ _ hdown => exact wp_off hdown hcrash fun a => hpost a _ hdown

theorem wp_read {f : FileContent → StoreProgram α} (hup : disk.down = false) (hcrash : crash disk)
    (h : ∀ content, content = disk.content file ∨ (∃ error, content = .unreadable error) →
      (f content).wp (StoreEffect number unicode catalogs) crash post disk) :
    (Program.ask (StoreCall.read file) >>= f).wp (StoreEffect number unicode catalogs) crash post disk := by
  refine ⟨hcrash, fun answer m heffect => ?_⟩
  cases heffect with
  | read => exact h _ (.inl rfl)
  | unread _ error => exact h _ (.inr ⟨error, rfl⟩)
  | off _ _ hdown => rw [hup] at hdown; cases hdown

/-- What a read comes to for a file that holds a steady configuration or none. -/
inductive ReadAs (number : NumberText) (unicode : UnicodeTables) (catalogs : ConfigurationCatalog → Prop) (content : FileContent) :
    ReadResult → Prop
  | valid {state : ComponentConfiguration} : Steady number unicode catalogs state → content = saved number state →
    ReadAs number unicode catalogs content { status := .valid, state }
  | unread {result : ReadResult} : result.status ≠ .valid →
    (result.status = .missing ∨ result.status = .damaged → Unread number unicode catalogs content) →
    ReadAs number unicode catalogs content result

theorem wp_readSnapshot {f : ReadResult → StoreProgram α} (hcatalog : catalogs catalog) (hwhole : Whole number unicode catalogs disk)
    (hfile : file ≠ .defaults) (hup : disk.down = false) (hcrash : crash disk)
    (h : ∀ result, ReadAs number unicode catalogs (disk.content file) result →
      (f result).wp (StoreEffect number unicode catalogs) crash post disk) :
    (readSnapshot number unicode paths catalog file >>= f).wp (StoreEffect number unicode catalogs) crash post disk := by
  refine wp_read hup hcrash fun content hcontent => h _ ?_
  rcases hcontent with rfl | ⟨error, rfl⟩
  · rcases hwhole file hfile with hunread | ⟨state, hstate, hsaved⟩
    · exact .unread (hunread catalog hcatalog _) fun _ => hunread
    · rw [hsaved, hstate.snapshot hcatalog]
      exact .valid hstate rfl
  · exact .unread (by simp [snapshotResult]) (by simp [snapshotResult])

end Calls

section Store
variable {number : NumberText} {unicode : UnicodeTables} {paths : ComponentPaths} {catalogs : ConfigurationCatalog → Prop}
  {catalog : ConfigurationCatalog} {disk : Disk} {state next : ComponentConfiguration}

/-- The configuration that a load hands out is the one on the disk, and one that can be replaced is in the active file. -/
def LoadsTo (number : NumberText) (unicode : UnicodeTables) (catalogs : ConfigurationCatalog → Prop) (before : Disk)
    (result : ComponentLoadResult) (after : Disk) : Prop :=
  after.down = false → (∀ state, Holds number unicode catalogs before state → Holds number unicode catalogs after state) ∧
    (result.available = true → Holds number unicode catalogs after result.state ∧
      (∀ state, Holds number unicode catalogs before state → result.state = state) ∧
      (result.writable = true → after.content .active = saved number result.state))

theorem loadsTo_off {before after : Disk} {result : ComponentLoadResult} (h : after.down = true) :
    LoadsTo number unicode catalogs before result after := fun hup => by
  rw [h] at hup
  cases hup

theorem loadsTo_unavailable {before after : Disk} {result : ComponentLoadResult} (h : result.available = false)
    (hheld : ∀ state, Holds number unicode catalogs before state → Holds number unicode catalogs after state) :
    LoadsTo number unicode catalogs before result after :=
  fun _ => ⟨hheld, fun havailable => by
    rw [h] at havailable
    cases havailable⟩

theorem migrate_settled (hcatalog : catalogs catalog) (hstate : Steady number unicode catalogs state) :
    ComponentStore.migrate number unicode catalog state = .done { state } := by
  rw [ComponentStore.migrate, hstate.settled catalog hcatalog]
  rfl

theorem wp_loadActive {recovery : ReadResult} (hcatalog : catalogs catalog) (hwhole : Whole number unicode catalogs disk)
    (hstate : Steady number unicode catalogs state) (hactive : disk.content .active = saved number state) :
    (ComponentStore.loadActive number unicode catalog { status := .valid, state } recovery).wp (StoreEffect number unicode catalogs)
      (Lasts number unicode catalogs disk) (LoadsTo number unicode catalogs disk) disk := by
  have hheld : Holds number unicode catalogs disk state := ⟨hstate, .inl hactive⟩
  have hsame {after : Disk} (hcontent : after.content .active = saved number state) (writable : Bool)
      (loadState : ComponentLoadState) (error : QString) :
      LoadsTo number unicode catalogs disk { available := true, writable, state, loadState, error } after :=
    fun _ => ⟨fun other hother => hheld.unique hcatalog hother ▸ ⟨hstate, .inl hcontent⟩,
      fun _ => ⟨⟨hstate, .inl hcontent⟩, fun other hother => hheld.unique hcatalog hother, fun _ => hcontent⟩⟩
  have hlasts := Lasts.refl hwhole
  rw [ComponentStore.loadActive, migrate_settled hcatalog hstate, done_bind, if_neg (by simp)]
  split_ifs
  · refine wp_write hlasts (fun _ _ => loadsTo_off) (fun _ => ?_) (fun error => ⟨hlasts, hsame hactive _ _ _⟩) fun content hcontent => ?_
    · have hput := lasts_recovery hcatalog hwhole hstate hactive (.inr ⟨state, hstate, rfl⟩)
      exact ⟨hput, hsame (by rw [put_other (by decide), hactive]) _ _ _⟩
    · exact (lasts_recovery hcatalog hwhole hstate hactive (.inl hcontent)).power true
  · exact ⟨hlasts, hsame hactive _ _ _⟩

theorem wp_loadRecovery (hcatalog : catalogs catalog) (hwhole : Whole number unicode catalogs disk)
    (hstate : Steady number unicode catalogs state) (hactive : Unread number unicode catalogs (disk.content .active))
    (hrecovery : disk.content .recovery = saved number state) :
    (ComponentStore.loadRecovery number unicode catalog { status := .valid, state }).wp (StoreEffect number unicode catalogs)
      (Lasts number unicode catalogs disk) (LoadsTo number unicode catalogs disk) disk := by
  have hheld : Holds number unicode catalogs disk state := ⟨hstate, .inr ⟨hactive, hrecovery⟩⟩
  have hunique (other : ComponentConfiguration) (hother : Holds number unicode catalogs disk other) : state = other :=
    hheld.unique hcatalog hother
  have hlasts := Lasts.refl hwhole
  rw [ComponentStore.loadRecovery, migrate_settled hcatalog hstate, done_bind, if_neg (by simp)]
  refine wp_write hlasts (fun _ _ => loadsTo_off) (fun _ => ?_) (fun error => ⟨hlasts, fun _ => ⟨fun _ h => h, fun _ => ?_⟩⟩)
    fun content hcontent => ?_
  · have hput := lasts_active hwhole hstate fun other hother => .inl (hunique other hother)
    exact ⟨hput, fun _ => ⟨fun other hother => hunique other hother ▸ holds_active hstate,
      fun _ => ⟨holds_active hstate, hunique, fun _ => put_same⟩⟩⟩
  · exact ⟨hheld, hunique, by simp⟩
  · exact (lasts_active_torn hcatalog hwhole hheld hrecovery hcontent).power true

/-- The defaults are taken where neither file holds a configuration. -/
theorem wp_loadDefaults {firstRun : Bool} {legacy : Option LegacyWorkspaceSettings} (hcatalog : catalogs catalog) (hup : disk.down = false)
    (hactive : Unread number unicode catalogs (disk.content .active))
    (hrecovery : Unread number unicode catalogs (disk.content .recovery)) :
    (ComponentStore.loadDefaults number unicode paths catalog firstRun legacy).wp (StoreEffect number unicode catalogs)
      (Lasts number unicode catalogs disk) (LoadsTo number unicode catalogs disk) disk := by
  have hnone (other : ComponentConfiguration) : ¬ Holds number unicode catalogs disk other := by
    rintro ⟨hother, hcontent | ⟨-, hcontent⟩⟩
    · exact hother.not_unread hcatalog (hcontent ▸ hactive)
    · exact hother.not_unread hcatalog (hcontent ▸ hrecovery)
  have hwhole : Whole number unicode catalogs disk := fun file hfile => .inl (by cases file <;> trivial)
  have hlasts := Lasts.refl hwhole
  have hfree {after : Disk} (h : Whole number unicode catalogs after) : Lasts number unicode catalogs disk after :=
    ⟨h, fun other hother => absurd hother (hnone other)⟩
  rw [ComponentStore.loadDefaults, readSnapshot, Program.bind_assoc]
  refine wp_read hup hlasts fun content _ => ?_
  rw [pure_eq, done_bind]
  generalize snapshotResult number unicode catalog (paths.path .defaults) content = defaults
  by_cases hvalid : defaults.status ≠ .valid
  · rw [if_pos hvalid]
    exact ⟨hlasts, loadsTo_unavailable rfl fun _ h => h⟩
  · rw [if_neg hvalid]
    split
    · exact ⟨hlasts, loadsTo_unavailable rfl fun _ h => h⟩
    · refine wp_write hlasts (fun _ _ => loadsTo_off) (fun hinitial => ?_) (fun _ => ⟨hlasts, loadsTo_unavailable rfl fun _ h => h⟩)
        fun content hcontent => (hfree (hwhole.put _ (.inl hcontent))).power true
      have hput := hwhole.put .recovery (.inr ⟨_, hinitial, rfl⟩)
      refine wp_write (hfree hput) (fun _ _ => loadsTo_off) (fun _ => ?_)
        (fun _ => ⟨hfree hput, loadsTo_unavailable rfl fun other hother => absurd hother (hnone other)⟩) fun content hcontent => (hfree (hput.put _ (.inl hcontent))).power true
      have hboth := hfree (hput.put .active (.inr ⟨_, hinitial, rfl⟩))
      exact ⟨hboth, fun _ => ⟨fun other hother => absurd hother (hnone other), fun _ => ⟨holds_active hinitial, fun other hother => absurd hother (hnone other),
        fun _ => put_same⟩⟩⟩

/-- A load that ends, whatever reads and writes fail on the way, hands out what the disk held and holds. -/
theorem wp_load {legacy : Option LegacyWorkspaceSettings} (hcatalog : catalogs catalog) (hwhole : Whole number unicode catalogs disk)
    (hup : disk.down = false) :
    (ComponentStore.load number unicode paths catalog legacy).wp (StoreEffect number unicode catalogs)
      (Lasts number unicode catalogs disk) (LoadsTo number unicode catalogs disk) disk := by
  have hlasts := Lasts.refl hwhole
  refine wp_readSnapshot hcatalog hwhole (by decide) hup hlasts fun active hactive => ?_
  refine wp_readSnapshot hcatalog hwhole (by decide) hup hlasts fun recovery hrecovery => ?_
  have hkept {status : FileStatus} (h : recovery.status = status)
      (hbad : status = .missing ∨ status = .damaged) : Unread number unicode catalogs (disk.content .recovery) := by
    cases hrecovery with
    | valid => simp [← h] at hbad
    | unread _ hcontent => exact hcontent (h ▸ hbad)
  cases hactive with
  | @valid state hstate hcontent =>
    have hloaded (loadState : ComponentLoadState) (error : QString) : LoadsTo number unicode catalogs disk
        { available := true, state, loadState, error } disk :=
      fun _ => ⟨fun _ h => h, fun _ => ⟨⟨hstate, .inl hcontent⟩, fun other hother => Holds.unique hcatalog ⟨hstate, .inl hcontent⟩ hother,
        by simp⟩⟩
    dsimp only
    split
    · exact ⟨hlasts, hloaded _ _⟩
    · exact ⟨hlasts, hloaded _ _⟩
    · exact wp_loadActive hcatalog hwhole hstate hcontent
    · exact wp_loadActive hcatalog hwhole hstate hcontent
    · exact wp_loadActive hcatalog hwhole hstate hcontent
  | unread hvalid hcontent =>
    split
    · exact absurd ‹_› hvalid
    · exact ⟨hlasts, loadsTo_unavailable rfl fun _ h => h⟩
    · exact ⟨hlasts, loadsTo_unavailable rfl fun _ h => h⟩
    all_goals
      have hunread := hcontent (by simp [*])
      split
      · exact ⟨hlasts, loadsTo_unavailable rfl fun _ h => h⟩
      · exact ⟨hlasts, loadsTo_unavailable rfl fun _ h => h⟩
      · cases hrecovery with
        | valid hstate hrecovered => exact wp_loadRecovery hcatalog hwhole hstate hunread hrecovered
        | unread hnot => exact absurd ‹_› hnot
      · exact wp_loadDefaults hcatalog hup hunread (hkept ‹_› (by simp))
      · exact wp_loadDefaults hcatalog hup hunread (hkept ‹_› (by simp))

/-- A replacement that is cut short leaves the configuration before it or the one after. -/
theorem wp_persist (hwhole : Whole number unicode catalogs disk) (hcatalog : catalogs catalog)
    (hstate : Steady number unicode catalogs state) (hactive : disk.content .active = saved number state) (hlater : Later state next) :
    (ComponentStore.persist state next).wp (StoreEffect number unicode catalogs) (Lasts number unicode catalogs disk)
      (fun error after => after.down = false → Lasts number unicode catalogs disk after ∧
        after.content .active = saved number (if error = none then next else state) ∧
        (error = none → Steady number unicode catalogs next)) disk := by
  have hlasts := Lasts.refl hwhole
  have hoff {after : Disk} {p : Prop} (h : after.down = true) : after.down = false → p := fun hup => by
    rw [h] at hup
    cases hup
  have hfirst := lasts_recovery hcatalog hwhole hstate hactive (.inr ⟨state, hstate, rfl⟩)
  have hsecond : (disk.put .recovery (saved number state)).content .active = saved number state := by
    rw [put_other (by decide), hactive]
  have hheld : Holds number unicode catalogs (disk.put .recovery (saved number state)) state := ⟨hstate, .inl hsecond⟩
  refine wp_write hlasts (fun _ _ => hoff) (fun _ => ?_) (fun _ => ⟨hlasts, fun _ => ⟨hlasts, by simpa using hactive, by simp⟩⟩)
    fun content hcontent => (lasts_recovery hcatalog hwhole hstate hactive (.inl hcontent)).power true
  refine wp_write hfirst (fun _ _ => hoff) (fun hnext => ?_) (fun _ => ⟨hfirst, fun _ => ⟨hfirst, by simpa using hsecond, by simp⟩⟩)
    fun content hcontent => (hfirst.trans (lasts_active_torn hcatalog hfirst.whole hheld put_same hcontent)).power true
  have hthird := hfirst.trans (lasts_active hfirst.whole hnext fun other hother => hheld.unique hcatalog hother ▸ hlater)
  have hfourth {content : FileContent} := @lasts_recovery number unicode catalogs catalog _ next hcatalog hthird.whole hnext put_same content
  refine wp_write hthird (fun _ _ => hoff) (fun _ => ?_) (fun _ => ⟨hthird, fun _ => ⟨hthird, by simp, fun _ => hnext⟩⟩)
    fun content hcontent => (hthird.trans (hfourth (.inl hcontent))).power true
  have hlast := hthird.trans (hfourth (.inr ⟨next, hnext, rfl⟩))
  exact ⟨hlast, fun _ => ⟨hlast, by rw [put_other (by decide)]; simp, fun _ => hnext⟩⟩

end Store

section Machine
variable {number : NumberText} {unicode : UnicodeTables} {paths : ComponentPaths} {catalogs : ConfigurationCatalog → Prop}
  {catalog : ConfigurationCatalog} {disk disk' : Disk} {service after : ComponentConfigService}

/-- A service has what the disk holds, and has it in the active file if it can replace it. -/
structure Holding (number : NumberText) (unicode : UnicodeTables) (catalogs : ConfigurationCatalog → Prop)
    (service : ComponentConfigService) (disk : Disk) : Prop where
  whole : Whole number unicode catalogs disk
  once : service.loadedOnce = service.available
  state : service.available = true → Holds number unicode catalogs disk service.state
  active : service.available = true → service.writable = true → disk.content .active = saved number service.state

/-- What a request comes to unless the power goes. -/
def Carries (number : NumberText) (unicode : UnicodeTables) (catalogs : ConfigurationCatalog → Prop) (disk : Disk)
    (after : ComponentConfigService) (disk' : Disk) : Prop :=
  disk'.down = false → Lasts number unicode catalogs disk disk' ∧ Holding number unicode catalogs after disk'

theorem Holding.takeCatalog (h : Holding number unicode catalogs service disk) :
    Holding number unicode catalogs (service.takeCatalog number unicode catalog) disk :=
  ⟨h.whole, by simpa using h.once, by simpa using h.state, by simpa using h.active⟩

theorem Holding.setCatalogUnavailable (h : Holding number unicode catalogs service disk) :
    Holding number unicode catalogs service.setCatalogUnavailable disk := ⟨h.whole, h.once, h.state, h.active⟩

theorem wp_loadFirst (hcatalog : catalogs catalog) (hwhole : Whole number unicode catalogs disk) (hup : disk.down = false) :
    (service.loadFirst number unicode paths catalog).wp (StoreEffect number unicode catalogs) (Lasts number unicode catalogs disk)
      (Carries number unicode catalogs disk) disk := by
  refine wp_bind.mpr ((wp_load hcatalog hwhole hup).strengthen.mono fun loaded m hm => ⟨hm.1, fun hpower => ?_⟩)
  obtain ⟨hlasts, hloads⟩ := hm
  obtain ⟨-, hloaded⟩ := hloads hpower
  exact ⟨hlasts, hlasts.whole, rfl, fun h => (hloaded h).1, fun h => (hloaded h).2.2⟩

theorem wp_loadAgain (hcatalog : catalogs catalog) (h : Holding number unicode catalogs service disk)
    (havailable : service.available = true) (hwritable : service.writable = false) (hup : disk.down = false) :
    (service.loadAgain number unicode paths catalog).wp (StoreEffect number unicode catalogs) (Lasts number unicode catalogs disk)
      (Carries number unicode catalogs disk) disk := by
  refine wp_bind.mpr ((wp_load hcatalog h.whole hup).strengthen.mono fun retried m hm => ?_)
  obtain ⟨hlasts, hloads⟩ := hm
  split_ifs with hknown
  · refine ⟨hlasts, fun hpower => ⟨hlasts, hlasts.whole, h.once, fun _ => ?_, fun _ => ?_⟩⟩
    · exact ((hloads hpower).2 (Bool.and_eq_true_iff.mp hknown).1).1
    · exact ((hloads hpower).2 (Bool.and_eq_true_iff.mp hknown).1).2.2
  · refine ⟨hlasts, fun hpower => ⟨hlasts, hlasts.whole, h.once, fun _ => (hloads hpower).1 _ (h.state havailable), fun _ hwrites => ?_⟩⟩
    rw [hwritable] at hwrites
    cases hwrites

theorem migrateState_settled (hcatalog : catalogs catalog) (hstate : Steady number unicode catalogs service.state) :
    service.migrateState number unicode catalog = .done service := by
  rw [ComponentConfigService.migrateState, migrate_settled hcatalog hstate]
  rfl

theorem wp_applyCatalog (hcatalog : catalogs catalog) (h : Holding number unicode catalogs service disk) (hup : disk.down = false) :
    (service.applyCatalog number unicode paths catalog).wp (StoreEffect number unicode catalogs) (Lasts number unicode catalogs disk)
      (Carries number unicode catalogs disk) disk := by
  have hlasts := Lasts.refl h.whole
  have htaken {x : StoreProgram ComponentConfigService}
      (hx : x.wp (StoreEffect number unicode catalogs) (Lasts number unicode catalogs disk) (Carries number unicode catalogs disk) disk) :
      (do let service ← x; return service.takeCatalog number unicode catalog : StoreProgram ComponentConfigService).wp
        (StoreEffect number unicode catalogs) (Lasts number unicode catalogs disk) (Carries number unicode catalogs disk) disk :=
    wp_bind.mpr (hx.strengthen.mono fun service m hm => ⟨hm.1, fun hpower => ⟨(hm.2 hpower).1, (hm.2 hpower).2.takeCatalog⟩⟩)
  unfold ComponentConfigService.applyCatalog
  split_ifs with hdigest honce hwritable havailable
  · exact ⟨hlasts, fun _ => ⟨hlasts, h.setCatalogUnavailable⟩⟩
  · exact htaken (wp_loadFirst hcatalog h.whole hup)
  · simp only [Bool.and_eq_true, Bool.not_eq_true'] at hwritable
    exact htaken (wp_loadAgain hcatalog h hwritable.1 hwritable.2 hup)
  · rw [migrateState_settled hcatalog (h.state havailable).1]
    exact htaken ⟨hlasts, fun _ => ⟨hlasts, h⟩⟩
  · exact htaken ⟨hlasts, fun _ => ⟨hlasts, h⟩⟩

theorem wp_replaceSnapshot {expectedRevision : UInt64} {expectedCatalogDigest : QString} {candidateSnapshot : QByteArray}
    (hcatalog : catalogs catalog) (h : Holding number unicode catalogs service disk) :
    (service.ReplaceSnapshot number unicode expectedRevision expectedCatalogDigest candidateSnapshot).wp
      (StoreEffect number unicode catalogs) (Lasts number unicode catalogs disk)
      (fun result => Carries number unicode catalogs disk result.1) disk := by
  have hlasts := Lasts.refl h.whole
  unfold ComponentConfigService.ReplaceSnapshot
  cases hcheck : service.checkCandidate number unicode expectedRevision expectedCatalogDigest candidateSnapshot with
  | error refused => exact ⟨hlasts, fun _ => ⟨hlasts, h⟩⟩
  | ok candidate =>
    obtain ⟨⟨⟨havailable, hwritable⟩, -, -, -⟩, -⟩ := checkCandidate_current hcheck
    dsimp only
    split_ifs with hsame hexhausted
    · exact ⟨hlasts, fun _ => ⟨hlasts, h⟩⟩
    · exact ⟨hlasts, fun _ => ⟨hlasts, h⟩⟩
    · have hlater : Later service.state { candidate with revision := service.state.revision + 1 } := .inr (lt_next_revision hexhausted)
      refine wp_bind.mpr ((wp_persist h.whole hcatalog (h.state havailable).1 (h.active havailable hwritable) hlater).strengthen.mono
        fun error m hm => ?_)
      obtain ⟨hkept, hpersisted⟩ := hm
      cases error with
      | some message =>
        refine ⟨hkept, fun hpower => ?_⟩
        obtain ⟨hdone, hactive, -⟩ := hpersisted hpower
        exact ⟨hdone, hdone.whole, h.once, fun _ => ⟨(h.state havailable).1, .inl hactive⟩, fun _ _ => hactive⟩
      | none =>
        refine ⟨hkept, fun hpower => ?_⟩
        obtain ⟨hdone, hactive, hnext⟩ := hpersisted hpower
        exact ⟨hdone, hdone.whole, h.once, fun _ => ⟨hnext rfl, .inl hactive⟩, fun _ _ => hactive⟩

theorem wp_request {request : ServiceRequest} (hcatalog : catalogs catalog) (h : Holding number unicode catalogs service disk)
    (hup : disk.down = false) (hrequest : ∀ catalog, request = ServiceRequest.catalog catalog → catalogs catalog) :
    (request.program number unicode paths service).wp (StoreEffect number unicode catalogs) (Lasts number unicode catalogs disk)
      (Carries number unicode catalogs disk) disk := by
  have hlasts := Lasts.refl h.whole
  cases request with
  | replace => exact wp_bind.mpr ((wp_replaceSnapshot hcatalog h).strengthen.mono fun result m hm => hm)
  | catalog installed => exact wp_applyCatalog (hrequest installed rfl) h hup
  | catalogUnavailable => exact ⟨hlasts, fun _ => ⟨hlasts, h.setCatalogUnavailable⟩⟩

theorem machineStep_holding {p q : ComponentConfigService × Disk} (hcatalog : catalogs catalog)
    (h : MachineStep number unicode paths catalogs p q) (hp : Holding number unicode catalogs p.1 p.2) (hup : p.2.down = false) :
    Holding number unicode catalogs q.1 q.2 ∧ q.2.down = false ∧ Lasts number unicode catalogs p.2 q.2 := by
  cases h with
  | answered hrequest hrun hpower =>
    obtain ⟨hlasts, hcarries⟩ := (wp_request hcatalog hp hup hrequest).executes hrun
    exact ⟨(hcarries hpower).2, hpower, hlasts⟩
  | @restarted service disk disk' request result legacy hrequest hrun =>
    have hoff := (wp_request hcatalog hp hup hrequest).executes hrun
    have hlasts : Lasts number unicode catalogs disk disk' := by
      cases result with
      | some _ => exact hoff.1
      | none => exact hoff
    exact ⟨⟨hlasts.whole, rfl, by simp, by simp⟩, rfl, hlasts.power false⟩

theorem machineRun_holding {p q : ComponentConfigService × Disk} (hcatalog : catalogs catalog)
    (h : MachineRun number unicode paths catalogs p q) (hp : Holding number unicode catalogs p.1 p.2) (hup : p.2.down = false) :
    Holding number unicode catalogs q.1 q.2 ∧ q.2.down = false ∧ Lasts number unicode catalogs p.2 q.2 := by
  induction h with
  | refl => exact ⟨hp, hup, .refl hp.whole⟩
  | tail _ hstep ih =>
    obtain ⟨hmiddle, hpower, hlasts⟩ := ih
    obtain ⟨hafter, hpower', hlasts'⟩ := machineStep_holding hcatalog hstep hmiddle hpower
    exact ⟨hafter, hpower', hlasts.trans hlasts'⟩

/-- Whatever reads and writes fail, wherever the power goes and the process begins again: a configuration that was handed
out is on the disk, and it stays or gives way to one of a greater revision. -/
theorem configuration_durable {legacy : Option LegacyWorkspaceSettings} {read later : ComponentConfigService} {start : Disk}
    (hcatalog : catalogs catalog) (hstart : Whole number unicode catalogs start) (hup : start.down = false)
    (hread : MachineRun number unicode paths catalogs ({ legacyWorkspaceSettings := legacy }, start) (read, disk))
    (hlater : MachineRun number unicode paths catalogs (read, disk) (later, disk')) (havailable : read.available = true) :
    (∃ state, Holds number unicode catalogs disk' state ∧ Later read.state state) ∧
      (later.available = true → Holds number unicode catalogs disk' later.state ∧ Later read.state later.state) := by
  obtain ⟨hholding, hpower, -⟩ := machineRun_holding hcatalog hread ⟨hstart, rfl, by simp, by simp⟩ hup
  obtain ⟨hafter, -, hlasts⟩ := machineRun_holding hcatalog hlater hholding hpower
  obtain ⟨state, hstate, hmore⟩ := hlasts.held _ (hholding.state havailable)
  refine ⟨⟨state, hstate, hmore⟩, fun h => ⟨hafter.state h, ?_⟩⟩
  rwa [(hafter.state h).unique hcatalog hstate]

end Machine

section Sample
variable (paths : ComponentPaths)

def clockAlone (catalog : ConfigurationCatalog) : Prop := catalog = clockCatalog

/-- Both files hold the configuration of the clock. -/
def clockDisk : Disk where
  content
    | .active | .recovery => saved exactDecimal (sharedConfiguration clockId)
    | .defaults => .missing

theorem clock_steady : Steady exactDecimal qaTables clockAlone (sharedConfiguration clockId) := by
  obtain ⟨-, hmigrate, -, -, -, hsize, -⟩ := clock_evaluated
  refine ⟨hsize, ?_, ?_⟩
  · rintro _ rfl
    exact shared_accepted (List.mem_cons_self : clockId ∈ [clockId, levelId])
  · rintro _ rfl
    exact hmigrate

theorem clockDisk_whole : Whole exactDecimal qaTables clockAlone clockDisk := by
  intro file hfile
  cases file with
  | defaults => exact absurd rfl hfile
  | _ => exact .inr ⟨_, clock_steady, rfl⟩

theorem clock_loads : Executes (StoreEffect exactDecimal qaTables clockAlone) clockDisk
    (ComponentConfigService.applyCatalog exactDecimal qaTables paths { legacyWorkspaceSettings := none } clockCatalog) clockDisk
    (some (loadedClock clockId 0)) := by
  obtain ⟨hdigest, -⟩ := clock_evaluated
  have hread (file : SnapshotFile) (hfile : file ≠ .defaults) : Executes (StoreEffect exactDecimal qaTables clockAlone) clockDisk
      (readSnapshot exactDecimal qaTables paths clockCatalog file) clockDisk
      (some { status := .valid, state := sharedConfiguration clockId }) := by
    refine .call (.read clockDisk file) ?_
    have hcontent : clockDisk.content file = saved exactDecimal (sharedConfiguration clockId) := by cases file <;> trivial
    change Executes _ _ (Program.done (snapshotResult _ _ _ _ (clockDisk.content file))) _ _
    rw [hcontent, clock_steady.snapshot rfl]
    exact .done _ _
  have hload : Executes (StoreEffect exactDecimal qaTables clockAlone) clockDisk
      (ComponentStore.load exactDecimal qaTables paths clockCatalog none) clockDisk
      (some { available := true, writable := true, state := sharedConfiguration clockId, loadState := .normal }) := by
    refine (hread .active (by decide)).bind ((hread .recovery (by decide)).bind ?_)
    dsimp only
    have hinstalled : clockAlone clockCatalog := rfl
    rw [ComponentStore.loadActive, migrate_settled hinstalled clock_steady, done_bind, if_neg (by simp), if_neg (by simp)]
    exact .done _ _
  have hfirst : Executes (StoreEffect exactDecimal qaTables clockAlone) clockDisk
      (ComponentConfigService.loadFirst exactDecimal qaTables paths { legacyWorkspaceSettings := none } clockCatalog) clockDisk
      (some clockBefore) := hload.bind (.done _ _)
  unfold ComponentConfigService.applyCatalog
  rw [show clockCatalog.digest = levelDigest from rfl, hdigest]
  refine hfirst.bind ?_
  rw [clock_taken]
  exact .done _ _

def tornDisk : Disk := (clockDisk.put .recovery (saved exactDecimal (sharedConfiguration clockId))).put .active .missing

/-- The replacement is written. -/
theorem clock_replacing : (loadedClock clockId 0).ReplaceSnapshot exactDecimal qaTables 0 levelDigest (sharedBytes levelId) = do
    match ← ComponentStore.persist (loadedClock clockId 0).state (loadedClock levelId 1).state with
    | some error => return (loadedClock clockId 0, some ⟨errorPrefix ++ qstr "PersistenceFailed", error⟩)
    | none => return (loadedClock levelId 1, none) := by
  obtain ⟨-, -, -, -, hother, -⟩ := clock_evaluated
  have hdiffers : ¬ sharedConfiguration levelId = (loadedClock clockId 0).state := hother
  rw [ComponentConfigService.ReplaceSnapshot, clock_checked]
  dsimp only
  rw [if_neg hdiffers, if_neg (by decide)]
  rfl

/-- The power goes while the active file is written. -/
theorem clock_torn : Executes (StoreEffect exactDecimal qaTables clockAlone) clockDisk
    (ServiceRequest.program exactDecimal qaTables paths (loadedClock clockId 0) (.replace 0 levelDigest (sharedBytes levelId)))
    { tornDisk with down := true } none := by
  rw [ServiceRequest.program, clock_replacing]
  refine .call (.written .recovery rfl clock_steady) (.call (.torn .active _ none rfl ?_) (.cut _ _))
  exact fun _ _ _ => by simp [snapshotResult]

/-- The last good file keeps what was handed out. -/
theorem configuration_durable_torn :
    ∃ state, Holds exactDecimal qaTables clockAlone tornDisk state ∧ Later (loadedClock clockId 0).state state := by
  have hinstalled : clockAlone clockCatalog := rfl
  have hread : MachineRun exactDecimal qaTables ⟨[], [], []⟩ clockAlone ({ legacyWorkspaceSettings := none }, clockDisk)
      (loadedClock clockId 0, clockDisk) :=
    .single (@MachineStep.answered _ _ _ _ _ _ _ _ (.catalog clockCatalog) (fun _ h => (ServiceRequest.catalog.inj h).symm)
      (clock_loads _) rfl)
  have hlater : MachineRun exactDecimal qaTables ⟨[], [], []⟩ clockAlone (loadedClock clockId 0, clockDisk)
      ({ legacyWorkspaceSettings := none }, tornDisk) :=
    .single (@MachineStep.restarted _ _ _ _ _ _ _ (.replace 0 levelDigest (sharedBytes levelId)) _ none (by simp) (clock_torn _))
  exact (configuration_durable hinstalled clockDisk_whole rfl hread hlater rfl).1

end Sample

end HyprShelld.Configuration
