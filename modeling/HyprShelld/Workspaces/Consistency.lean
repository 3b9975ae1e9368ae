import HyprShelld.Support.Except
import HyprShelld.Workspaces.Covering
import Mathlib.Data.List.Perm.Basic
import Mathlib.Data.Option.Basic

/-! Which compositor states the workspace snapshot accepts. -/
namespace HyprShelld.Workspaces

section Records

/-- A value that describes a monitor, with what it says. -/
def IsMonitor (v : QJsonValue) (m : Monitor) : Prop :=
  ∃ monitor activeWorkspace specialWorkspace : QJsonObject, v = .object monitor ∧ integerAt monitor "id" = some m.id ∧
    stringAt monitor "name" = some m.name ∧ m.name ≠ [] ∧ booleanAt monitor "focused" = some m.focused ∧
    objectAt monitor "activeWorkspace" = some activeWorkspace ∧
    integerAt activeWorkspace "id" = some m.activeWorkspaceId ∧
    stringAt activeWorkspace "name" = some m.activeWorkspaceName ∧ m.activeWorkspaceName ≠ [] ∧
    objectAt monitor "specialWorkspace" = some specialWorkspace ∧
    integerAt specialWorkspace "id" = some m.specialWorkspaceId ∧
    stringAt specialWorkspace "name" = some m.specialWorkspaceName ∧
    if m.specialWorkspaceId = 0 then m.specialWorkspaceName = [] else startsWith m.specialWorkspaceName special = true

def IsWorkspace (v : QJsonValue) (w : Workspace) : Prop :=
  ∃ workspace : QJsonObject, v = .object workspace ∧ integerAt workspace "id" = some w.id ∧
    stringAt workspace "name" = some w.name ∧ w.name ≠ [] ∧ stringAt workspace "monitor" = some w.monitorName ∧
    w.monitorName ≠ [] ∧ integerAt workspace "monitorID" = some w.monitorId ∧
    integerAt workspace "windows" = some w.windowCount ∧ 0 ≤ w.windowCount ∧
    booleanAt workspace "hasfullscreen" = some w.hasFullscreen ∧ booleanAt workspace "ispersistent" = some w.persistent ∧
    w.lastWindowAddress = normalizeAddress ((stringAt workspace "lastwindow").getD []) ∧ w.urgent = false

def IsClient (v : QJsonValue) (c : Client) : Prop :=
  ∃ (client workspace : QJsonObject) (name : QString), v = .object client ∧
    c.address = normalizeAddress ((stringAt client "address").getD []) ∧ c.address ≠ [] ∧
    objectAt client "workspace" = some workspace ∧ integerAt workspace "id" = some c.workspaceId ∧
    stringAt workspace "name" = some c.workspaceName ∧ integerAt client "monitor" = some c.monitorId ∧
    booleanAt client "mapped" = some c.mapped ∧ booleanAt client "hidden" = some c.hidden ∧
    booleanAt client "visible" = some c.visible ∧ booleanAt client "floating" = some c.floating ∧
    integerAt client "fullscreen" = some c.fullscreenMode ∧ (0 ≤ c.fullscreenMode ∧ c.fullscreenMode ≤ 2) ∧
    stringAt client "fullscreenHandler" = some c.fullscreenHandler ∧ stringAt client "class" = some name ∧
    stringAt client "initialClass" = some c.initialApplicationId ∧
    integerAt client "focusHistoryID" = some c.focusHistoryId ∧ -1 ≤ c.focusHistoryId ∧
    c.applicationId = (if name.isEmpty then c.initialApplicationId else name) ∧
    c.title = (stringAt client "title").getD [] ∧ c.urgent = false

@[simp] theorem asObject_eq_some {v : QJsonValue} {o : QJsonObject} : asObject v = some o ↔ v = .object o := by
  cases v <;> simp [asObject]

@[simp] theorem nonEmpty_eq_some {t s : QString} : nonEmpty t = some s ↔ t = s ∧ s ≠ [] := by
  by_cases ht : t = []
  · subst ht
    simp [nonEmpty]
  · simp only [nonEmpty, List.isEmpty_iff, if_neg ht, Option.some.injEq]
    exact ⟨fun h => ⟨h, h ▸ ht⟩, fun h => h.1⟩

theorem readMonitor_eq_some (seen : List Monitor) (v : QJsonValue) (m : Monitor) :
    readMonitor seen v = some m ↔ IsMonitor v m ∧ m.name ∉ inheritedNames ∧ m.name ∉ seen.map (·.name) := by
  simp only [readMonitor, Option.bind_eq_bind, Option.bind_eq_some_iff, asObject_eq_some, Option.guard_eq_some',
    exists_and_left, exists_const, nonEmpty_eq_some, Bool.or_eq_true, List.contains_iff_mem, not_or]
  constructor
  · rintro ⟨monitor, rfl, id, hid, _, ⟨_, hname, rfl, hne⟩, ⟨hfree, hseen⟩, focused, hfocused, active, hactive,
      activeId, hactiveId, _, ⟨_, hactiveName, rfl, hactiveNe⟩, shown, hshown, shownId, hshownId, shownName, hshownName,
      hspecial, h⟩
    obtain rfl := Option.some.inj h
    refine ⟨⟨monitor, active, shown, rfl, hid, hname, hne, hfocused, hactive, hactiveId, hactiveName, hactiveNe, hshown,
      hshownId, hshownName, ?_⟩, hfree, hseen⟩
    by_cases hzero : shownId = 0
    · simpa [hzero] using hspecial
    · simpa [hzero] using hspecial
  · rintro ⟨⟨monitor, active, shown, rfl, hid, hname, hne, hfocused, hactive, hactiveId, hactiveName, hactiveNe, hshown,
      hshownId, hshownName, hspecial⟩, hfree, hseen⟩
    refine ⟨monitor, rfl, _, hid, _, ⟨_, hname, rfl, hne⟩, ⟨hfree, hseen⟩, _, hfocused, active, hactive, _, hactiveId, _,
      ⟨_, hactiveName, rfl, hactiveNe⟩, shown, hshown, _, hshownId, _, hshownName, ?_, rfl⟩
    by_cases hzero : m.specialWorkspaceId = 0
    · simpa [hzero] using hspecial
    · simpa [hzero] using hspecial

theorem readWorkspace_eq_some (seen : List Workspace) (v : QJsonValue) (w : Workspace) :
    readWorkspace seen v = some w ↔ IsWorkspace v w ∧ w.id ∉ seen.map (·.id) := by
  simp only [readWorkspace, Option.bind_eq_bind, Option.bind_eq_some_iff, asObject_eq_some, Option.guard_eq_some',
    exists_and_left, exists_const, nonEmpty_eq_some, List.contains_iff_mem]
  constructor
  · rintro ⟨workspace, rfl, id, hid, hseen, _, ⟨_, hname, rfl, hne⟩, _, ⟨_, hmonitor, rfl, hmonitorNe⟩, monitorId,
      hmonitorId, windows, hwindows, hcount, fullscreen, hfullscreen, persistent, hpersistent, h⟩
    obtain rfl := Option.some.inj h
    exact ⟨⟨workspace, rfl, hid, hname, hne, hmonitor, hmonitorNe, hmonitorId, hwindows, hcount, hfullscreen, hpersistent,
      rfl, rfl⟩, hseen⟩
  · rintro ⟨⟨workspace, rfl, hid, hname, hne, hmonitor, hmonitorNe, hmonitorId, hwindows, hcount, hfullscreen,
      hpersistent, hlast, hcalm⟩, hseen⟩
    refine ⟨workspace, rfl, _, hid, hseen, _, ⟨_, hname, rfl, hne⟩, _, ⟨_, hmonitor, rfl, hmonitorNe⟩, _, hmonitorId, _,
      hwindows, hcount, _, hfullscreen, _, hpersistent, ?_⟩
    rw [← hlast, ← hcalm]
    rfl

/-- One step of a reading: the value found, and what is read after it. -/
theorem bind_read {α β : Type} {o : Option α} {f : α → Option β} {a : α} {b : β} (ho : o = some a) (hf : f a = some b) :
    (o >>= f) = some b := Option.bind_eq_some_iff.2 ⟨a, ho, hf⟩

theorem bind_guard {β : Type} {p : Prop} [Decidable p] {f : Unit → Option β} {b : β} (hp : p) (hf : f () = some b) :
    (guard p >>= f) = some b := bind_read (Option.guard_eq_some' () |>.2 hp) hf

theorem readClient_sound {seen : List Client} {v : QJsonValue} {c : Client} (h : readClient seen v = some c) :
    IsClient v c ∧ c.address ∉ seen.map (·.address) := by
  unfold readClient at h
  obtain ⟨client, hclient, h⟩ := Option.bind_eq_some_iff.1 h
  obtain ⟨address, haddress, h⟩ := Option.bind_eq_some_iff.1 h
  obtain ⟨_, hseen, h⟩ := Option.bind_eq_some_iff.1 h
  obtain ⟨workspace, hworkspace, h⟩ := Option.bind_eq_some_iff.1 h
  obtain ⟨id, hid, h⟩ := Option.bind_eq_some_iff.1 h
  obtain ⟨workspaceName, hworkspaceName, h⟩ := Option.bind_eq_some_iff.1 h
  obtain ⟨monitor, hmonitor, h⟩ := Option.bind_eq_some_iff.1 h
  obtain ⟨mapped, hmapped, h⟩ := Option.bind_eq_some_iff.1 h
  obtain ⟨hidden, hhidden, h⟩ := Option.bind_eq_some_iff.1 h
  obtain ⟨visible, hvisible, h⟩ := Option.bind_eq_some_iff.1 h
  obtain ⟨floating, hfloating, h⟩ := Option.bind_eq_some_iff.1 h
  obtain ⟨mode, hmode, h⟩ := Option.bind_eq_some_iff.1 h
  obtain ⟨_, hrange, h⟩ := Option.bind_eq_some_iff.1 h
  obtain ⟨handler, hhandler, h⟩ := Option.bind_eq_some_iff.1 h
  obtain ⟨name, hname, h⟩ := Option.bind_eq_some_iff.1 h
  obtain ⟨initial, hinitial, h⟩ := Option.bind_eq_some_iff.1 h
  obtain ⟨focus, hfocus, h⟩ := Option.bind_eq_some_iff.1 h
  obtain ⟨_, hlow, h⟩ := Option.bind_eq_some_iff.1 h
  obtain rfl := asObject_eq_some.1 hclient
  obtain ⟨rfl, hne⟩ := nonEmpty_eq_some.1 haddress
  rw [Option.guard_eq_some'] at hseen hrange hlow
  obtain rfl := Option.some.inj h
  refine ⟨⟨client, workspace, name, rfl, rfl, hne, hworkspace, hid, hworkspaceName, hmonitor, hmapped, hhidden, hvisible,
    hfloating, hmode, hrange, hhandler, hname, hinitial, hfocus, hlow, rfl, rfl, rfl⟩, ?_⟩
  simpa using hseen

theorem readClient_complete {seen : List Client} {v : QJsonValue} {c : Client} (h : IsClient v c)
    (hseen : c.address ∉ seen.map (·.address)) : readClient seen v = some c := by
  obtain ⟨client, workspace, name, rfl, haddress, hne, hworkspace, hid, hworkspaceName, hmonitor, hmapped, hhidden,
    hvisible, hfloating, hmode, hrange, hhandler, hname, hinitial, hfocus, hlow, happlication, htitle, hcalm⟩ := h
  unfold readClient
  refine bind_read (asObject_eq_some.2 rfl) (bind_read (nonEmpty_eq_some.2 ⟨haddress.symm, hne⟩) ?_)
  refine bind_guard (by simpa using hseen) (bind_read hworkspace (bind_read hid (bind_read hworkspaceName ?_)))
  refine bind_read hmonitor (bind_read hmapped (bind_read hhidden (bind_read hvisible (bind_read hfloating ?_))))
  refine bind_read hmode (bind_guard hrange (bind_read hhandler (bind_read hname (bind_read hinitial ?_))))
  refine bind_read hfocus (bind_guard hlow ?_)
  dsimp only
  rw [← happlication, ← htitle, ← hcalm]
  rfl

theorem readClient_eq_some (seen : List Client) (v : QJsonValue) (c : Client) :
    readClient seen v = some c ↔ IsClient v c ∧ c.address ∉ seen.map (·.address) :=
  ⟨readClient_sound, fun h => readClient_complete h.1 h.2⟩

theorem forall₂_and_right {α β : Type} {R : α → β → Prop} {p : β → Prop} {l : List α} {u : List β} :
    List.Forall₂ (fun a b => R a b ∧ p b) l u ↔ List.Forall₂ R l u ∧ ∀ b ∈ u, p b := by
  induction l generalizing u with
  | nil =>
    rw [List.forall₂_nil_left_iff, List.forall₂_nil_left_iff]
    constructor
    · rintro rfl
      simp
    · exact fun h => h.1
  | cons a l ih =>
    rw [List.forall₂_cons_left_iff, List.forall₂_cons_left_iff]
    constructor
    · rintro ⟨b, u, hb, hu, rfl⟩
      exact ⟨⟨b, u, hb.1, (ih.1 hu).1, rfl⟩, List.forall_mem_cons.2 ⟨hb.2, (ih.1 hu).2⟩⟩
    · rintro ⟨⟨b, u, hb, hu, rfl⟩, hp⟩
      obtain ⟨hpb, hpu⟩ := List.forall_mem_cons.1 hp
      exact ⟨b, u, ⟨hb, hpb⟩, ih.2 ⟨hu, hpu⟩, rfl⟩

/-- The values are read when each is well formed and no two have the same key. -/
theorem normalizeAll_eq_some {α κ : Type} {read : List α → QJsonValue → Option α} {Is : QJsonValue → α → Prop} {key : α → κ}
    (hread : ∀ seen v a, read seen v = some a ↔ Is v a ∧ key a ∉ seen.map key) {items : List QJsonValue}
    {seen all : List α} :
    normalizeAll read seen items = some all ↔
      ∃ new, all = seen ++ new ∧ List.Forall₂ Is items new ∧ (new.map key).Nodup ∧ ∀ a ∈ new, key a ∉ seen.map key := by
  induction items generalizing seen with
  | nil =>
    simp only [normalizeAll, Option.some.injEq, List.forall₂_nil_left_iff]
    constructor
    · rintro rfl
      exact ⟨[], by simp⟩
    · rintro ⟨new, h, rfl, _⟩
      simpa using h.symm
  | cons v items ih =>
    simp only [normalizeAll, Option.bind_eq_some_iff, hread]
    constructor
    · rintro ⟨a, ⟨hv, hfresh⟩, h⟩
      obtain ⟨new, hall, hnew, hnodup, hseen⟩ := ih.1 h
      have ha : key a ∉ new.map key := by
        intro hmem
        obtain ⟨b, hb, hkey⟩ := List.mem_map.1 hmem
        exact hseen b hb (by simp [hkey])
      refine ⟨a :: new, by simp [hall], .cons hv hnew, by simpa using ⟨by simpa using ha, hnodup⟩, ?_⟩
      intro b hb
      rcases List.mem_cons.1 hb with rfl | hb
      · exact hfresh
      · exact fun hmem => hseen b hb (by simp [List.mem_map.1 hmem])
    · rintro ⟨new, hall, hnew, hnodup, hseen⟩
      obtain ⟨a, rest, hv, hrest, rfl⟩ := List.forall₂_cons_left_iff.1 hnew
      rw [List.map_cons, List.nodup_cons] at hnodup
      refine ⟨a, ⟨hv, hseen a (by simp)⟩, ih.2 ⟨rest, by simp [hall], hrest, hnodup.2, ?_⟩⟩
      intro b hb hmem
      rw [List.map_append, List.mem_append] at hmem
      rcases hmem with hmem | hmem
      · exact hseen b (by simp [hb]) hmem
      · exact hnodup.1 (List.mem_map.2 ⟨b, hb, by simpa using hmem⟩)

theorem normalizeAll_nil {α κ : Type} {read : List α → QJsonValue → Option α} {Is : QJsonValue → α → Prop} {key : α → κ}
    (hread : ∀ seen v a, read seen v = some a ↔ Is v a ∧ key a ∉ seen.map key) {items : List QJsonValue} {all : List α} :
    normalizeAll read [] items = some all ↔ List.Forall₂ Is items all ∧ (all.map key).Nodup := by
  rw [normalizeAll_eq_some hread]
  constructor
  · rintro ⟨new, rfl, hnew, hnodup, _⟩
    exact ⟨hnew, hnodup⟩
  · exact fun h => ⟨all, rfl, h.1, h.2, by simp⟩

theorem IsWorkspace.converts {v : QJsonValue} {w : Workspace} (h : IsWorkspace v w) : idConverts v = true := by
  obtain ⟨workspace, rfl, hid, -⟩ := h
  unfold integerAt at hid
  unfold idConverts asObject
  dsimp only
  cases hvalue : workspace.value (qstr "id") with
  | double d => rfl
  | undefined | null | bool | string | array | object =>
    rw [hvalue] at hid
    cases hid

/-- No exception comes from records that are all well formed. -/
theorem normalizeWorkspaces_eq_some {items : List QJsonValue} {workspaces : List Workspace} :
    normalizeWorkspaces items = .ok (some workspaces) ↔
      List.Forall₂ IsWorkspace items workspaces ∧ (workspaces.map (·.id)).Nodup := by
  rw [← normalizeAll_nil readWorkspace_eq_some, normalizeWorkspaces]
  constructor
  · intro h
    split_ifs at h
    exact Except.ok.inj h
  · intro h
    have hconvert : items.all idConverts = true := by
      have hboth := ((normalizeAll_nil readWorkspace_eq_some).1 h).1.imp fun v w hw => And.intro hw hw.converts
      clear h
      induction hboth with
      | nil => rfl
      | cons hv _ ih => rw [List.all_cons, hv.2, ih, Bool.and_self]
    rw [if_pos hconvert, h]

/-- A monitor is skipped when an object inherits its name. -/
theorem normalizeMonitors_eq_some {items : List QJsonValue} {monitors : List Monitor} :
    normalizeAll readMonitor [] items = some monitors ↔ List.Forall₂ IsMonitor items monitors ∧
      (∀ m ∈ monitors, m.name ∉ inheritedNames) ∧ (monitors.map (·.name)).Nodup := by
  rw [normalizeAll_nil fun seen v m => (readMonitor_eq_some seen v m).trans and_assoc.symm, forall₂_and_right, and_assoc]

end Records

section States

structure Records where
  monitors : List Monitor
  workspaces : List Workspace
  clients : List Client

/-- Every value is a well-formed record, and these are the records, once each and in order. -/
structure Describes (rawWorkspaces rawMonitors rawClients : List QJsonValue) (r : Records) : Prop where
  monitors : List.Forall₂ IsMonitor rawMonitors r.monitors
  workspaces : List.Forall₂ IsWorkspace rawWorkspaces r.workspaces
  clients : List.Forall₂ IsClient rawClients r.clients

/-- The workspace is listed on the monitor under its name. -/
def Records.Listed (r : Records) (m : Monitor) (id : Int) (name : QString) : Prop :=
  ∃ w ∈ r.workspaces, w.id = id ∧ w.monitorName = m.name ∧ w.name = name

structure Records.Consistent (r : Records) : Prop where
  monitorNames : (r.monitors.map (·.name)).Nodup
  workspaceIds : (r.workspaces.map (·.id)).Nodup
  clientAddresses : (r.clients.map (·.address)).Nodup
  someMonitor : r.monitors ≠ []
  workspaceMonitor : ∀ w ∈ r.workspaces, ∃ m ∈ r.monitors, m.name = w.monitorName ∧ m.id = w.monitorId
  active : ∀ m ∈ r.monitors, r.Listed m m.activeWorkspaceId m.activeWorkspaceName
  special : ∀ m ∈ r.monitors, m.specialWorkspaceId ≠ 0 → r.Listed m m.specialWorkspaceId m.specialWorkspaceName
  clientWorkspace : ∀ c ∈ r.clients, ∃ w ∈ r.workspaces, w.id = c.workspaceId ∧
    (c.mapped = true → c.workspaceName = w.name ∧ c.monitorId = w.monitorId)
  handlers : ∀ c ∈ r.clients, c.fullscreenMode ≠ 0 →
    c.fullscreenHandler = qstr "default" ∨ (c.fullscreenHandler = qstr "scrolling" ∧ c.floating = false)

/-- What the three lists say when they are read without a skip. -/
def outcome (r : Records) (urgentAddresses : UrgentAddresses) (revision : Int) : Snapshot × UrgentAddresses :=
  let reconciled := reconcileUrgency urgentAddresses r.monitors r.clients
  (applyUrgency { revision, monitors := r.monitors, workspaces := r.workspaces, clients := r.clients } reconciled,
    reconciled)

theorem requireAll_ok {α : Type} {items : List α} {ok : α → Bool} {message : String} :
    requireAll items ok message = .ok () ↔ ∀ a ∈ items, ok a = true := by
  rw [← List.all_eq_true]
  unfold requireAll
  cases items.all ok <;> simp

theorem findById_any {workspaces : List Workspace} (hids : (workspaces.map (·.id)).Nodup) {id : Int} {p : Workspace → Bool} :
    (findById workspaces id).any p = true ↔ ∃ w ∈ workspaces, w.id = id ∧ p w = true := by
  rw [Option.any_eq_true]
  constructor
  · rintro ⟨w, hw, hp⟩
    exact ⟨w, List.mem_of_find?_eq_some hw, by simpa using List.find?_some hw, hp⟩
  · rintro ⟨w, hw, rfl, hp⟩
    obtain ⟨found, hfound⟩ : ∃ found, findById workspaces w.id = some found := by
      rw [← Option.isSome_iff_exists, findById, List.find?_isSome]
      exact ⟨w, hw, by simp⟩
    have hsame : found = w := List.inj_on_of_nodup_map hids (List.mem_of_find?_eq_some hfound) hw
      (by simpa using List.find?_some hfound)
    exact ⟨w, hsame ▸ hfound, hp⟩

theorem checkMonitors_ok {workspaces : List Workspace} {monitors : List Monitor} :
    checkMonitors workspaces monitors = .ok () ↔ ∀ m ∈ monitors,
      showsWorkspace workspaces m m.activeWorkspaceId m.activeWorkspaceName = true ∧
      (m.specialWorkspaceId ≠ 0 → showsWorkspace workspaces m m.specialWorkspaceId m.specialWorkspaceName = true) := by
  induction monitors with
  | nil => simp [checkMonitors]
  | cons m rest ih =>
    rw [checkMonitors, List.forall_mem_cons, ← ih]
    cases showsWorkspace workspaces m m.activeWorkspaceId m.activeWorkspaceName <;>
      cases showsWorkspace workspaces m m.specialWorkspaceId m.specialWorkspaceName <;>
      by_cases hspecial : m.specialWorkspaceId = 0 <;> simp [hspecial]

theorem checkClients_ok {workspaces : List Workspace} {clients : List Client} :
    checkClients workspaces clients = .ok () ↔
      ∀ c ∈ clients, clientPlaced workspaces c = true ∧ handlerKnown c = true ∧ handlerConsistent c = true := by
  induction clients with
  | nil => simp [checkClients]
  | cons c rest ih =>
    rw [checkClients, List.forall_mem_cons, ← ih]
    cases clientPlaced workspaces c <;> cases handlerKnown c <;> cases handlerConsistent c <;> simp

theorem handlers_ok {c : Client} : handlerKnown c = true ∧ handlerConsistent c = true ↔ (c.fullscreenMode ≠ 0 →
    c.fullscreenHandler = qstr "default" ∨ (c.fullscreenHandler = qstr "scrolling" ∧ c.floating = false)) := by
  unfold handlerKnown handlerConsistent
  generalize qstr "default" = default'
  generalize qstr "scrolling" = scrolling
  by_cases hmode : c.fullscreenMode = 0
  · simp [hmode]
  · by_cases hdefault : c.fullscreenHandler = default'
    · simp [hdefault]
    · simp [hmode, hdefault]

variable {engine : Engine} {workspacePayload monitorPayload clientPayload : Option QString}
variable {rawWorkspaces rawMonitors rawClients : List QJsonValue} {urgentAddresses : UrgentAddresses} {revision : Int}

/-- The checks that follow the three readings. -/
theorem Records.consistent_iff {r : Records} (hnames : (r.monitors.map (·.name)).Nodup)
    (hids : (r.workspaces.map (·.id)).Nodup) (haddresses : (r.clients.map (·.address)).Nodup) :
    r.Consistent ↔ r.monitors ≠ [] ∧
      (∀ w ∈ r.workspaces, (r.monitors.any fun m => m.name = w.monitorName && m.id = w.monitorId) = true) ∧
      checkMonitors r.workspaces r.monitors = .ok () ∧ checkClients r.workspaces r.clients = .ok () := by
  have hlisted (m : Monitor) (id : Int) (name : QString) :
      showsWorkspace r.workspaces m id name = true ↔ r.Listed m id name := by
    simp [showsWorkspace, findById_any hids, Records.Listed]
  have hplaced (c : Client) : clientPlaced r.workspaces c = true ↔ ∃ w ∈ r.workspaces, w.id = c.workspaceId ∧
      (c.mapped = true → c.workspaceName = w.name ∧ c.monitorId = w.monitorId) := by
    rw [clientPlaced, findById_any hids]
    cases c.mapped <;> simp
  simp only [checkMonitors_ok, checkClients_ok, hlisted, hplaced, handlers_ok, List.any_eq_true, Bool.and_eq_true,
    decide_eq_true_eq]
  constructor
  · intro h
    exact ⟨h.someMonitor, h.workspaceMonitor, fun m hm => ⟨h.active m hm, h.special m hm⟩,
      fun c hc => ⟨h.clientWorkspace c hc, h.handlers c hc⟩⟩
  · rintro ⟨hsome, hmonitor, hshown, hclients⟩
    exact ⟨hnames, hids, haddresses, hsome, hmonitor, fun m hm => (hshown m hm).1, fun m hm => (hshown m hm).2,
      fun c hc => (hclients c hc).1, fun c hc => (hclients c hc).2⟩

/-- Exactly what the snapshot is built from. -/
theorem buildSnapshot_ok (hworkspaces : parseArray engine workspacePayload "workspace" = .ok rawWorkspaces)
    (hmonitors : parseArray engine monitorPayload "monitor" = .ok rawMonitors)
    (hclients : parseArray engine clientPayload "client" = .ok rawClients) {result : Snapshot × UrgentAddresses} :
    buildSnapshot engine workspacePayload monitorPayload clientPayload urgentAddresses revision = .ok result ↔
      ∃ r, Describes rawWorkspaces rawMonitors rawClients r ∧ r.Consistent ∧ (∀ m ∈ r.monitors, m.name ∉ inheritedNames) ∧
        outcome r urgentAddresses revision = result := by
  constructor
  · intro h
    unfold buildSnapshot at h
    rw [hworkspaces, hmonitors, hclients] at h
    obtain ⟨_, hread, h⟩ := bind_ok_iff.1 h
    obtain rfl := Except.ok.inj hread
    obtain ⟨_, hread, h⟩ := bind_ok_iff.1 h
    obtain rfl := Except.ok.inj hread
    obtain ⟨_, hread, h⟩ := bind_ok_iff.1 h
    obtain rfl := Except.ok.inj hread
    obtain ⟨normalized, hnormalized, h⟩ := bind_ok_iff.1 h
    split at h
    · rename_i monitors workspaces clients hreadMonitors hreadClients
      obtain ⟨hisMonitors, hfree, hnames⟩ := normalizeMonitors_eq_some.1 hreadMonitors
      obtain ⟨hisWorkspaces, hids⟩ := normalizeWorkspaces_eq_some.1 hnormalized
      obtain ⟨hisClients, haddresses⟩ := (normalizeAll_nil readClient_eq_some).1 hreadClients
      obtain ⟨_, hsome, h⟩ := bind_ok_iff.1 h
      obtain ⟨_, hlisted, h⟩ := bind_ok_iff.1 h
      obtain ⟨_, hshown, h⟩ := bind_ok_iff.1 h
      obtain ⟨_, hplaced, h⟩ := bind_ok_iff.1 h
      rw [returning_ok_iff] at hsome hlisted hshown hplaced
      have hsome : monitors ≠ [] := by simpa using requireAll_ok.1 hsome
      exact ⟨⟨monitors, workspaces, clients⟩, ⟨hisMonitors, hisWorkspaces, hisClients⟩,
        (Records.consistent_iff hnames hids haddresses).2 ⟨hsome, requireAll_ok.1 hlisted, hshown, hplaced⟩, hfree,
        Except.ok.inj h⟩
    · cases h
  · rintro ⟨r, hr, hconsistent, hfree, rfl⟩
    have hreadMonitors := normalizeMonitors_eq_some.2 ⟨hr.monitors, hfree, hconsistent.monitorNames⟩
    have hreadWorkspaces := normalizeWorkspaces_eq_some.2 ⟨hr.workspaces, hconsistent.workspaceIds⟩
    have hreadClients := (normalizeAll_nil readClient_eq_some).2 ⟨hr.clients, hconsistent.clientAddresses⟩
    obtain ⟨hsome, hlisted, hshown, hplaced⟩ := (Records.consistent_iff hconsistent.monitorNames
      hconsistent.workspaceIds hconsistent.clientAddresses).1 hconsistent
    unfold buildSnapshot
    rw [hworkspaces, hmonitors, hclients]
    refine bind_ok_iff.2 ⟨_, rfl, bind_ok_iff.2 ⟨_, rfl, bind_ok_iff.2 ⟨_, rfl, bind_ok_iff.2 ⟨_, hreadWorkspaces, ?_⟩⟩⟩⟩
    rw [hreadMonitors, hreadClients]
    refine bind_ok_iff.2 ⟨(), returning_ok_iff.2 (requireAll_ok.2 (by simpa using hsome)), ?_⟩
    refine bind_ok_iff.2 ⟨(), returning_ok_iff.2 (requireAll_ok.2 hlisted), ?_⟩
    exact bind_ok_iff.2 ⟨(), returning_ok_iff.2 hshown, bind_ok_iff.2 ⟨(), returning_ok_iff.2 hplaced, rfl⟩⟩

/-- A record list without the marks that urgency leaves. -/
def Snapshot.records (snapshot : Snapshot) : Records where
  monitors := snapshot.monitors
  workspaces := snapshot.workspaces.map fun w => { w with urgent := false }
  clients := snapshot.clients.map fun c => { c with urgent := false }

theorem IsWorkspace.calm {v : QJsonValue} {w : Workspace} (h : IsWorkspace v w) : w.urgent = false := by
  obtain ⟨_, _, _, _, _, _, _, _, _, _, _, _, _, hcalm⟩ := h
  exact hcalm

theorem IsClient.calm {v : QJsonValue} {c : Client} (h : IsClient v c) : c.urgent = false := by
  obtain ⟨_, _, _, _, _, _, _, _, _, _, _, _, _, _, _, _, _, _, _, _, _, _, _, hcalm⟩ := h
  exact hcalm

theorem outcome_records {r : Records} (hr : Describes rawWorkspaces rawMonitors rawClients r) :
    (outcome r urgentAddresses revision).1.records = r := by
  have hworkspaces : ∀ w ∈ r.workspaces, w.urgent = false :=
    (forall₂_and_right.1 (hr.workspaces.imp fun _ _ hw => ⟨hw, hw.calm⟩)).2
  have hclients : ∀ c ∈ r.clients, c.urgent = false :=
    (forall₂_and_right.1 (hr.clients.imp fun _ _ hc => ⟨hc, hc.calm⟩)).2
  unfold outcome applyUrgency Snapshot.records
  dsimp only
  rw [List.map_map, List.map_map]
  congr 1
  · refine (List.map_congr_left fun w hw => ?_).trans (List.map_id _)
    rw [Function.comp_apply, ← hworkspaces w hw]
    rfl
  · refine (List.map_congr_left fun c hc => ?_).trans (List.map_id _)
    rw [Function.comp_apply, ← hclients c hc]
    rfl

theorem reconcileUrgency_perm {monitors : List Monitor} {clients clients' : List Client} (hperm : clients.Perm clients') :
    reconcileUrgency urgentAddresses monitors clients = reconcileUrgency urgentAddresses monitors clients' := by
  unfold reconcileUrgency ageMissing
  simp only [(hperm.map _).contains_eq, ((hperm.filter _).map _).contains_eq]

/-- The same windows in another order give the same snapshot, but for that order. -/
theorem outcome_perm {r : Records} {clients : List Client} (hperm : clients.Perm r.clients) :
    let snapshot := (outcome r urgentAddresses revision).1
    ∃ clients', clients'.Perm snapshot.clients ∧ outcome { r with clients } urgentAddresses revision =
      ({ snapshot with clients := clients' }, (outcome r urgentAddresses revision).2) := by
  intro snapshot
  refine ⟨(outcome { r with clients } urgentAddresses revision).1.clients, ?_, ?_⟩
  · unfold snapshot outcome applyUrgency
    dsimp only
    rw [reconcileUrgency_perm hperm]
    exact hperm.map _
  · unfold snapshot outcome applyUrgency
    dsimp only
    rw [reconcileUrgency_perm hperm]
    simp only [((hperm.filter _).map _).contains_eq]

theorem Records.Consistent.perm {r : Records} (h : r.Consistent) {clients : List Client} (hperm : clients.Perm r.clients) :
    Records.Consistent { r with clients } :=
  { h with
    clientAddresses := (hperm.map _).nodup_iff.2 h.clientAddresses
    clientWorkspace := fun c hc => h.clientWorkspace c (hperm.mem_iff.1 hc)
    handlers := fun c hc => h.handlers c (hperm.mem_iff.1 hc) }

section Claim
variable (engine workspacePayload monitorPayload rawWorkspaces rawMonitors rawClients urgentAddresses revision)

/-- Three replies are accepted exactly when they describe a consistent state; the snapshot then holds their records,
and no order of the clients changes what covers an output. -/
structure AcceptsConsistent (clientPayload : Option QString) : Prop where
  accepts : (∃ result, buildSnapshot engine workspacePayload monitorPayload clientPayload urgentAddresses revision = .ok result) ↔
    ∃ r, Describes rawWorkspaces rawMonitors rawClients r ∧ r.Consistent
  holds : ∀ {snapshot addresses},
    buildSnapshot engine workspacePayload monitorPayload clientPayload urgentAddresses revision = .ok (snapshot, addresses) →
      Describes rawWorkspaces rawMonitors rawClients snapshot.records
  covering : ∀ {snapshot addresses},
    buildSnapshot engine workspacePayload monitorPayload clientPayload urgentAddresses revision = .ok (snapshot, addresses) →
      (∀ {clients outputName}, clients.Perm snapshot.clients →
        visibleWorkspaceCoveringMode { snapshot with clients } outputName = visibleWorkspaceCoveringMode snapshot outputName) ∧
      ∀ {reordered rawReordered}, parseArray engine reordered "client" = .ok rawReordered → rawReordered.Perm rawClients →
        ∃ snapshot', buildSnapshot engine workspacePayload monitorPayload reordered urgentAddresses revision =
            .ok (snapshot', addresses) ∧
          ∀ outputName, visibleWorkspaceCoveringMode snapshot' outputName = visibleWorkspaceCoveringMode snapshot outputName

end Claim

/-- No monitor is called like something that every object inherits. -/
def OwnNames (rawMonitors : List QJsonValue) : Prop := ∀ v ∈ rawMonitors, ∀ m, IsMonitor v m → m.name ∉ inheritedNames

theorem IsMonitor.name_unique {v : QJsonValue} {m m' : Monitor} (h : IsMonitor v m) (h' : IsMonitor v m') :
    m.name = m'.name := by
  obtain ⟨monitor, _, _, hv, _, hname, _⟩ := h
  obtain ⟨monitor', _, _, hv', _, hname', _⟩ := h'
  obtain rfl := QJsonValue.object.inj (hv.symm.trans hv')
  exact Option.some.inj (hname.symm.trans hname')

theorem ownNames_iff {monitors : List Monitor} (h : List.Forall₂ IsMonitor rawMonitors monitors) :
    OwnNames rawMonitors ↔ ∀ m ∈ monitors, m.name ∉ inheritedNames := by
  unfold OwnNames
  induction h with
  | nil => simp
  | @cons v m _ _ hv _ ih =>
    rw [List.forall_mem_cons, List.forall_mem_cons, ih]
    refine and_congr_left fun _ => ⟨fun hfree => hfree m hv, fun hfree m' hm' => ?_⟩
    rw [hm'.name_unique hv]
    exact hfree

theorem acceptsConsistent_iff (hworkspaces : parseArray engine workspacePayload "workspace" = .ok rawWorkspaces)
    (hmonitors : parseArray engine monitorPayload "monitor" = .ok rawMonitors)
    (hclients : parseArray engine clientPayload "client" = .ok rawClients) :
    AcceptsConsistent engine workspacePayload monitorPayload rawWorkspaces rawMonitors rawClients urgentAddresses revision
        clientPayload ↔
      OwnNames rawMonitors ∨ ¬ ∃ r, Describes rawWorkspaces rawMonitors rawClients r ∧ r.Consistent := by
  constructor
  · intro h
    by_contra hnot
    obtain ⟨hinherited, hconsistent⟩ := not_or.1 hnot
    obtain ⟨result, hresult⟩ := h.accepts.2 (not_not.1 hconsistent)
    obtain ⟨r, hr, _, hfree, _⟩ := (buildSnapshot_ok hworkspaces hmonitors hclients).1 hresult
    exact hinherited ((ownNames_iff hr.monitors).2 hfree)
  · intro hcondition
    refine ⟨?_, ?_, ?_⟩
    · constructor
      · rintro ⟨result, hresult⟩
        obtain ⟨r, hr, hconsistent, _⟩ := (buildSnapshot_ok hworkspaces hmonitors hclients).1 hresult
        exact ⟨r, hr, hconsistent⟩
      · rintro ⟨r, hr, hconsistent⟩
        have hfree := (ownNames_iff hr.monitors).1 (hcondition.resolve_right fun hnone => hnone ⟨r, hr, hconsistent⟩)
        exact ⟨_, (buildSnapshot_ok hworkspaces hmonitors hclients).2 ⟨r, hr, hconsistent, hfree, rfl⟩⟩
    · intro snapshot addresses hresult
      obtain ⟨r, hr, _, _, houtcome⟩ := (buildSnapshot_ok hworkspaces hmonitors hclients).1 hresult
      obtain rfl : (outcome r urgentAddresses revision).1 = snapshot := congrArg Prod.fst houtcome
      rw [outcome_records hr]
      exact hr
    · intro snapshot addresses hresult
      refine ⟨fun hperm => visibleWorkspaceCoveringMode_perm hperm _, fun {reordered rawReordered} hreordered hperm => ?_⟩
      obtain ⟨r, hr, hconsistent, hfree, houtcome⟩ := (buildSnapshot_ok hworkspaces hmonitors hclients).1 hresult
      obtain ⟨rfl, rfl⟩ := Prod.ext_iff.1 houtcome
      obtain ⟨clients, hisClients, hclientsPerm⟩ := List.perm_comp_forall₂ hperm hr.clients
      obtain ⟨clients', hperm', hsame⟩ := @outcome_perm urgentAddresses revision r clients hclientsPerm
      refine ⟨_, (buildSnapshot_ok hworkspaces hmonitors hreordered).2
        ⟨{ r with clients }, ⟨hr.monitors, hr.workspaces, hisClients⟩, hconsistent.perm hclientsPerm, hfree, hsame⟩, ?_⟩
      exact fun outputName => visibleWorkspaceCoveringMode_perm hperm' outputName

section Sample

def sampleObject (members : List (String × QJsonValue)) : QJsonObject := QJsonObject.ofList (members.map fun m => (qstr m.1, m.2))

def sampleNumber (n : Int) : QJsonValue := .double (.finite n)

def sampleActive : QJsonObject := sampleObject [("id", sampleNumber 1), ("name", .string (qstr "1"))]

def sampleSpecial : QJsonObject := sampleObject [("id", sampleNumber 0), ("name", .string [])]

def sampleMonitor (name : QString) : QJsonObject :=
  sampleObject [("id", sampleNumber 0), ("name", .string name), ("focused", .bool true),
    ("activeWorkspace", .object sampleActive), ("specialWorkspace", .object sampleSpecial)]

def sampleWorkspace (name : QString) : QJsonObject :=
  sampleObject [("id", sampleNumber 1), ("name", .string (qstr "1")), ("monitor", .string name), ("monitorID", sampleNumber 0),
    ("windows", sampleNumber 2), ("hasfullscreen", .bool true), ("ispersistent", .bool false)]

def sampleMonitorText (name : QString) : QString :=
  qstr "[\x7b\"id\":0,\"name\":\"" ++ name ++
    qstr "\",\"focused\":true,\"activeWorkspace\":\x7b\"id\":1,\"name\":\"1\"\x7d,\"specialWorkspace\":\x7b\"id\":0,\"name\":\"\"\x7d\x7d]"

def sampleWorkspaceText (name : QString) : QString :=
  qstr "[\x7b\"id\":1,\"name\":\"1\",\"monitor\":\"" ++ name ++
    qstr "\",\"monitorID\":0,\"windows\":2,\"hasfullscreen\":true,\"ispersistent\":false\x7d]"

/-- A window on the one workspace. -/
def sampleClient (address : String) (fullscreen focusHistory : Int) : QJsonObject :=
  sampleObject [("address", .string (qstr address)), ("workspace", .object sampleActive), ("monitor", sampleNumber 0),
    ("mapped", .bool true), ("hidden", .bool false), ("visible", .bool true), ("floating", .bool false),
    ("fullscreen", sampleNumber fullscreen), ("fullscreenHandler", .string (qstr "default")), ("class", .string (qstr "editor")),
    ("initialClass", .string (qstr "editor")), ("focusHistoryID", sampleNumber focusHistory)]

def sampleClientFields : String := "\"workspace\":\x7b\"id\":1,\"name\":\"1\"\x7d,\"monitor\":0,\"mapped\":true,\"hidden\":false," ++
  "\"visible\":true,\"floating\":false,\"fullscreenHandler\":\"default\",\"class\":\"editor\",\"initialClass\":\"editor\","

def sampleClientText : QString :=
  qstr ("[\x7b\"address\":\"0xa\"," ++ sampleClientFields ++ "\"fullscreen\":2,\"focusHistoryID\":1\x7d,\x7b\"address\":\"0xb\"," ++
    sampleClientFields ++ "\"fullscreen\":1,\"focusHistoryID\":0\x7d]")

def sampleClients : List QJsonValue := [.object (sampleClient "0xa" 2 1), .object (sampleClient "0xb" 1 0)]

/-- JSON.parse on the three replies of a compositor with two windows on one monitor, of the given name. -/
def consistentEngine (name : QString) : Engine where
  parseJson text :=
    if text = sampleWorkspaceText name then some (.array [.object (sampleWorkspace name)])
    else if text = sampleMonitorText name then some (.array [.object (sampleMonitor name)])
    else if text = sampleClientText then some (.array sampleClients)
    else none
  integerOf _ := none

theorem consistentEngine_parses (name text : QString) : (consistentEngine name).parseJson text =
    if text = sampleWorkspaceText name then some (.array [.object (sampleWorkspace name)])
    else if text = sampleMonitorText name then some (.array [.object (sampleMonitor name)])
    else if text = sampleClientText then some (.array sampleClients) else none := rfl

/-- What the three replies say. -/
def sampleRecords (name : QString) : Records where
  monitors := [⟨0, name, true, 1, qstr "1", 0, []⟩]
  workspaces := [⟨1, qstr "1", name, 0, 2, true, false, [], false⟩]
  clients := [⟨qstr "0xa", 1, qstr "1", 0, qstr "editor", qstr "editor", [], true, false, true, false, 2, qstr "default", 1, false⟩,
    ⟨qstr "0xb", 1, qstr "1", 0, qstr "editor", qstr "editor", [], true, false, true, false, 1, qstr "default", 0, false⟩]

/-- The two names that the samples use. -/
def sampleNames : List QString := [qstr "DP-1", qstr "constructor"]

theorem sample_read : ∀ name ∈ sampleNames,
    (integerAt (sampleMonitor name) "id" = some 0 ∧ stringAt (sampleMonitor name) "name" = some name ∧ name ≠ [] ∧
      booleanAt (sampleMonitor name) "focused" = some true ∧
      objectAt (sampleMonitor name) "activeWorkspace" = some sampleActive ∧ integerAt sampleActive "id" = some 1 ∧
      stringAt sampleActive "name" = some (qstr "1") ∧ qstr "1" ≠ [] ∧
      objectAt (sampleMonitor name) "specialWorkspace" = some sampleSpecial ∧ integerAt sampleSpecial "id" = some 0 ∧
      stringAt sampleSpecial "name" = some []) ∧
    readWorkspace [] (.object (sampleWorkspace name)) = some ⟨1, qstr "1", name, 0, 2, true, false, [], false⟩ ∧
    normalizeAll readClient [] sampleClients = some (sampleRecords name).clients ∧
    sampleMonitorText name ≠ sampleWorkspaceText name ∧ (sampleWorkspaceText name).take 4 ≠ qstr "[\x7b\"a" ∧
    (sampleMonitorText name).take 4 ≠ qstr "[\x7b\"a" ∧ (name ∈ inheritedNames ↔ name = qstr "constructor") := by decide +kernel

/-- The reply on the windows begins with an address. -/
theorem sampleClientText_take : sampleClientText.take 4 = qstr "[\x7b\"a" := by
  unfold sampleClientText
  simp only [qstr_append, List.append_assoc]
  rw [List.take_append_of_le_length]
  · decide +kernel
  · decide +kernel

theorem sample_describes {name : QString} (h : name ∈ sampleNames) :
    Describes [.object (sampleWorkspace name)] [.object (sampleMonitor name)] sampleClients (sampleRecords name) := by
  obtain ⟨⟨hid, hname, hne, hfocused, hactive, hactiveId, hactiveName, hactiveNe, hspecial, hspecialId, hspecialName⟩,
    hworkspace, hclients, _⟩ := sample_read name h
  refine ⟨.cons ?_ .nil, .cons (readWorkspace_eq_some _ _ _ |>.1 hworkspace).1 .nil,
    ((normalizeAll_nil readClient_eq_some).1 hclients).1⟩
  exact ⟨_, _, _, rfl, hid, hname, hne, hfocused, hactive, hactiveId, hactiveName, hactiveNe, hspecial, hspecialId,
    hspecialName, by simp⟩

theorem sample_consistent (name : QString) : (sampleRecords name).Consistent where
  monitorNames := by simp [sampleRecords]
  workspaceIds := by simp [sampleRecords]
  clientAddresses := by simp [sampleRecords, qstr_inj]
  someMonitor := by simp [sampleRecords]
  workspaceMonitor := by simp [sampleRecords]
  active := by simp [sampleRecords, Records.Listed]
  special := by simp [sampleRecords]
  clientWorkspace := by simp [sampleRecords]
  handlers := by simp [sampleRecords]

theorem parseArray_parsed {payload : QString} {items : List QJsonValue} (h : engine.parseJson payload = some (.array items))
    (label : String) : parseArray engine (some payload) label = .ok items := by
  rw [parseArray, Option.getD_some, h]

theorem sample_parsed {name : QString} (h : name ∈ sampleNames) :
    parseArray (consistentEngine name) (some (sampleWorkspaceText name)) "workspace" =
        .ok [.object (sampleWorkspace name)] ∧
      parseArray (consistentEngine name) (some (sampleMonitorText name)) "monitor" = .ok [.object (sampleMonitor name)] ∧
      parseArray (consistentEngine name) (some sampleClientText) "client" = .ok sampleClients := by
  obtain ⟨_, _, _, hmonitor, hworkspaceText, hmonitorText, _⟩ := sample_read name h
  have hclient : sampleClientText ≠ sampleWorkspaceText name := fun h => hworkspaceText (h ▸ sampleClientText_take)
  have hclient' : sampleClientText ≠ sampleMonitorText name := fun h => hmonitorText (h ▸ sampleClientText_take)
  refine ⟨parseArray_parsed ?_ _, parseArray_parsed ?_ _, parseArray_parsed ?_ _⟩
  · rw [consistentEngine_parses, if_pos rfl]
  · rw [consistentEngine_parses, if_neg hmonitor, if_pos rfl]
  · rw [consistentEngine_parses, if_neg hclient, if_neg hclient', if_pos rfl]

/-- A consistent compositor whose monitor is called constructor is refused. -/
theorem snapshot_refusesInherited :
    ¬ AcceptsConsistent (consistentEngine (qstr "constructor")) (some (sampleWorkspaceText (qstr "constructor")))
      (some (sampleMonitorText (qstr "constructor"))) [.object (sampleWorkspace (qstr "constructor"))]
      [.object (sampleMonitor (qstr "constructor"))] sampleClients [] 1 (some sampleClientText) := by
  intro h
  have hname : qstr "constructor" ∈ sampleNames := by simp [sampleNames]
  obtain ⟨result, hresult⟩ := h.accepts.2 ⟨_, sample_describes hname, sample_consistent _⟩
  obtain ⟨hworkspaces, hmonitors, hclients⟩ := sample_parsed hname
  obtain ⟨r, hr, _, hfree, _⟩ := (buildSnapshot_ok hworkspaces hmonitors hclients).1 hresult
  obtain ⟨_, _, _, _, _, _, hinherited⟩ := sample_read _ hname
  have hown := (ownNames_iff (sample_describes hname).monitors).1 ((ownNames_iff hr.monitors).2 hfree)
  exact hown _ (List.mem_singleton_self _) (hinherited.2 rfl)

theorem acceptsConsistent_iff_sample :
    AcceptsConsistent (consistentEngine (qstr "DP-1")) (some (sampleWorkspaceText (qstr "DP-1")))
      (some (sampleMonitorText (qstr "DP-1"))) [.object (sampleWorkspace (qstr "DP-1"))]
      [.object (sampleMonitor (qstr "DP-1"))] sampleClients [] 1 (some sampleClientText) := by
  have hname : qstr "DP-1" ∈ sampleNames := by simp [sampleNames]
  obtain ⟨hworkspaces, hmonitors, hclients⟩ := sample_parsed hname
  obtain ⟨_, _, _, _, _, _, hinherited⟩ := sample_read _ hname
  have hdifferent : qstr "DP-1" ≠ qstr "constructor" := by decide +kernel
  refine (acceptsConsistent_iff hworkspaces hmonitors hclients).2 (.inl ((ownNames_iff (sample_describes hname).monitors).2 ?_))
  intro m hm
  obtain rfl := List.mem_singleton.1 hm
  exact fun h => hdifferent (hinherited.1 h)

end Sample

end States

end HyprShelld.Workspaces
