import HyprShelld.Coordinator.UnitMonitor
import Mathlib.Data.List.Perm.Basic

/-! What each slot of the unit monitor does to its connections, and to the books on the snapshots it awaits. -/
namespace HyprShelld.UnitMonitor

section Units

theorem allowedUnits_nodup : allowedUnits.Nodup := by decide +kernel

def statesOf (units : QString → UnitState) : QMap QString := QMap.ofList (allowedUnits.map fun n => (n, (units n).activeState))
def pathsOf (units : QString → UnitState) : QMap QString := QMap.ofList (allowedUnits.map fun n => (n, (units n).unitPath))

theorem lookup_ofUnits (read : QString → QString) {name : QString} (h : name ∈ allowedUnits) :
    (QMap.ofList (allowedUnits.map fun n => (n, read n))).lookup name = some (read name) := by
  refine QMap.lookup_ofList_of_mem ?_ (List.mem_map.2 ⟨name, h, rfl⟩)
  rw [List.map_map]
  exact (List.map_id allowedUnits).symm ▸ allowedUnits_nodup

theorem ofUnits_congr {read read' : QString → QString} (h : ∀ name ∈ allowedUnits, read name = read' name) :
    QMap.ofList (allowedUnits.map fun n => (n, read n)) = QMap.ofList (allowedUnits.map fun n => (n, read' n)) := by
  rw [List.map_congr_left fun n hn => by rw [h n hn]]

/-- The units are the same, as far as the shell manages them. -/
def SameUnits (units units' : QString → UnitState) : Prop := ∀ name ∈ allowedUnits, units name = units' name

theorem SameUnits.states {units units' : QString → UnitState} (h : SameUnits units units') : statesOf units = statesOf units' :=
  ofUnits_congr fun name hname => congrArg UnitState.activeState (h name hname)

theorem SameUnits.paths {units units' : QString → UnitState} (h : SameUnits units units') : pathsOf units = pathsOf units' :=
  ofUnits_congr fun name hname => congrArg UnitState.unitPath (h name hname)

theorem isKnown_iff {name : QString} : isKnown name = true ↔ name ∈ allowedUnits := by
  rw [isKnown, List.contains_iff_mem]

end Units

namespace State

section Reading

/-- What is read of the records is what they say, in order. -/
theorem readRecords_ok {records : List SystemdUnitRecord} {states paths states' paths' : QMap QString}
    (h : readRecords states paths records = .ok (states', paths')) :
    states' = records.foldl (fun m r => QMap.insert r.name r.activeState m) states ∧
      paths' = records.foldl (fun m r => QMap.insert r.name r.unitPath m) paths ∧ ∀ r ∈ records, r.unitPath ≠ [] := by
  induction records generalizing states paths with
  | nil =>
    obtain ⟨rfl, rfl⟩ := Prod.ext_iff.1 (Except.ok.inj h)
    simp
  | cons record rest ih =>
    rw [readRecords] at h
    by_cases hknown : (!isKnown record.name || QMap.contains states record.name) = true
    · rw [if_pos hknown] at h
      cases h
    · by_cases hempty : record.unitPath.isEmpty = true
      · rw [if_neg hknown, if_pos hempty] at h
        cases h
      · rw [if_neg hknown, if_neg hempty] at h
        obtain ⟨hstates, hpaths, hrest⟩ := ih h
        refine ⟨hstates, hpaths, List.forall_mem_cons.2 ⟨by simpa using hempty, hrest⟩⟩

theorem readRecords_reports {units : QString → UnitState} {states paths : QMap QString}
    (h : readRecords [] [] (reports units) = .ok (states, paths)) :
    states = statesOf units ∧ paths = pathsOf units ∧ ∀ name ∈ allowedUnits, (units name).unitPath ≠ [] := by
  obtain ⟨hstates, hpaths, hnonempty⟩ := readRecords_ok h
  refine ⟨?_, ?_, fun name hname => hnonempty _ (List.mem_map.2 ⟨name, hname, rfl⟩)⟩
  · rw [hstates, reports, List.foldl_map, statesOf, QMap.ofList, List.foldl_map]
  · rw [hpaths, reports, List.foldl_map, pathsOf, QMap.ofList, List.foldl_map]

end Reading

section Warnings
variable {s : State}

/-- The messages the manager has not handled, in order. -/
def stream (s : State) : List Message := s.incoming ++ s.fromSystemd

/-- The requests that are not handled, in order. -/
def requests (s : State) : List Request := s.toSystemd.map .call ++ s.outgoing

/-- The slot of the signal schedules a refresh. -/
def effective (s : State) : Signal → Bool
  | .unitNew unitName unitPath => s.elsewhere unitName unitPath
  | .unitRemoved unitName unitPath => s.elsewhere unitName unitPath
  | .jobRemoved unitName => isKnown unitName
  | .propertiesChanged path interfaceName changed invalidated =>
    s.hooks.contains path && tellsActiveState interfaceName changed invalidated

def Warned (s : State) (messages : List Message) : Prop := ∃ sg, .signal sg ∈ messages ∧ s.effective sg = true

theorem Warned.mono {messages messages' : List Message} (h : s.Warned messages) (hsub : messages ⊆ messages') :
    s.Warned messages' := by
  obtain ⟨sg, hsg, heffective⟩ := h
  exact ⟨sg, hsub hsg, heffective⟩

/-- A slot schedules a refresh or does nothing, and for an effective signal it does schedule one. -/
theorem receive_cases (s : State) (posted : Bool) (sg : Signal) :
    s.receive posted sg = s.scheduleRefresh ∨ (s.receive posted sg = s ∧ s.effective sg = false) := by
  cases sg with
  | unitNew name path =>
    simp only [receive, managerUnitNew, effective]
    cases s.elsewhere name path <;> simp
  | unitRemoved name path =>
    simp only [receive, managerUnitRemoved, effective]
    cases s.elsewhere name path <;> simp
  | jobRemoved name =>
    simp only [receive, managerJobRemoved, effective]
    cases isKnown name <;> simp
  | propertiesChanged path interfaceName changed invalidated =>
    simp only [receive, unitPropertiesChanged, effective]
    cases s.hooks.contains path <;> cases posted <;> cases tellsActiveState interfaceName changed invalidated <;> simp

/-- A change of a unit whose path the manager knows and has hooked sends it an effective signal. -/
theorem announced_effective (hooked : ∀ e ∈ s.unitPaths, e.2 ∈ s.hooks) {units units' : QString → UnitState}
    (hpaths : s.unitPaths = pathsOf units) {signals : List Signal}
    (h : ∀ name ∈ allowedUnits, Announced signals name (units name) (units' name)) :
    SameUnits units units' ∨ ∃ sg ∈ signals, s.effective sg = true := by
  by_cases hsame : SameUnits units units'
  · exact .inl hsame
  right
  obtain ⟨name, hname, hdifferent⟩ : ∃ name ∈ allowedUnits, units name ≠ units' name := by
    simpa [SameUnits] using hsame
  have hknown : s.unitPaths.lookup name = some (units name).unitPath := by
    rw [hpaths]
    exact lookup_ofUnits _ hname
  rcases h name hname with heq | hjob | hstate
  · exact absurd heq hdifferent
  · exact ⟨_, hjob, isKnown_iff.2 hname⟩
  · by_cases hpath : (units name).unitPath = (units' name).unitPath
    · rw [if_pos hpath, List.any_eq_true] at hstate
      obtain ⟨sg, hsg, htells⟩ := hstate
      refine ⟨sg, hsg, ?_⟩
      cases sg with
      | propertiesChanged path interfaceName changed invalidated =>
        simp only [Signal.tells, Bool.and_eq_true, decide_eq_true_eq] at htells
        obtain ⟨rfl, htells⟩ := htells
        simp only [effective, Bool.and_eq_true, List.contains_iff_mem]
        exact ⟨hooked _ (QMap.mem_of_lookup hknown), htells⟩
      | _ => cases htells
    · rw [if_neg hpath] at hstate
      refine ⟨_, hstate, ?_⟩
      simp [effective, elsewhere, isKnown_iff.2 hname, hknown, hpath]

end Warnings

section Connections
variable {s s' : State}

/-- The rules of the bus after a request. -/
def keep (rules : List Rule) : Request → List Rule
  | .addMatch rule => rules ++ [rule]
  | .removeMatch rule => rules.erase rule
  | .call _ => rules

/-- The rules of the bus once it has handled what the manager sent. -/
def settled (s : State) : List Rule := s.outgoing.foldl keep s.rules

/-- The bus delivers what the manager has slots for. -/
structure Hooked (s : State) : Prop where
  nodup : s.hooks.Nodup
  manager : ∀ rule ∈ managerRules, rule ∈ s.settled
  unit : ∀ path ∈ s.hooks, .propertiesChanged path ∈ s.settled

/-- Only connections change. -/
def Rewired (s s' : State) : Prop :=
  ∃ hooks outs, s' = { s with hooks, outgoing := s.outgoing ++ outs } ∧ ∀ r ∈ outs, ∀ c, r ≠ .call c

theorem Rewired.refl (s : State) : Rewired s s := ⟨s.hooks, [], by simp⟩

theorem Rewired.trans {s₁ s₂ s₃ : State} (h : Rewired s₁ s₂) (h' : Rewired s₂ s₃) : Rewired s₁ s₃ := by
  obtain ⟨hooks, outs, rfl, houts⟩ := h
  obtain ⟨hooks', outs', rfl, houts'⟩ := h'
  refine ⟨hooks', outs ++ outs', by simp, fun r hr => ?_⟩
  rcases List.mem_append.1 hr with hr | hr
  · exact houts r hr
  · exact houts' r hr

theorem settled_send (s : State) (request : Request) : (s.send request).settled = keep s.settled request := by
  simp [settled, send, List.foldl_append]

theorem disconnect_rewired (s : State) (path : QString) : Rewired s (s.disconnect path) := by
  unfold disconnect
  by_cases h : s.hooks.contains path = true
  · rw [if_pos h]
    exact ⟨s.hooks.erase path, [.removeMatch (.propertiesChanged path)], rfl, by simp⟩
  · rw [if_neg h]
    exact .refl s

theorem disconnect_hooks (s : State) (path : QString) : (s.disconnect path).hooks = s.hooks.erase path := by
  unfold disconnect
  by_cases h : s.hooks.contains path = true
  · rw [if_pos h]
    rfl
  · rw [if_neg h, List.erase_of_not_mem (by simpa using h)]

theorem Hooked.disconnect (h : s.Hooked) (path : QString) : (s.disconnect path).Hooked := by
  by_cases hmem : s.hooks.contains path = true
  · have hs : s.disconnect path = { s with hooks := s.hooks.erase path }.send (.removeMatch (.propertiesChanged path)) := by
      rw [State.disconnect, if_pos hmem]
    have hsettled : (s.disconnect path).settled = s.settled.erase (.propertiesChanged path) := by
      rw [hs, settled_send]
      rfl
    refine ⟨?_, fun rule hrule => ?_, fun q hq => ?_⟩
    · rw [disconnect_hooks]
      exact h.nodup.erase path
    · rw [hsettled]
      refine (List.mem_erase_of_ne ?_).2 (h.manager rule hrule)
      rintro rfl
      simp [managerRules] at hrule
    · rw [disconnect_hooks, h.nodup.mem_erase_iff] at hq
      rw [hsettled]
      exact (List.mem_erase_of_ne (by simpa using hq.1)).2 (h.unit q hq.2)
  · rw [State.disconnect, if_neg hmem]
    exact h

theorem Hooked.connect (h : s.Hooked) {path : QString} (hs : s.connect path = some s') : s'.Hooked := by
  unfold State.connect at hs
  by_cases hmem : s.hooks.contains path = true
  · rw [if_pos hmem] at hs
    cases hs
  · rw [if_neg hmem] at hs
    obtain rfl := Option.some.inj hs
    have hsettled : ({ s with hooks := s.hooks ++ [path] }.send (.addMatch (.propertiesChanged path))).settled =
        s.settled ++ [.propertiesChanged path] := by
      rw [settled_send]
      rfl
    refine ⟨?_, fun rule hrule => ?_, fun q hq => ?_⟩
    · rw [List.contains_iff_mem] at hmem
      exact List.nodup_append.2 ⟨h.nodup, List.nodup_singleton _, fun a ha b hb => by
        rw [List.mem_singleton.1 hb]
        exact fun heq => hmem (heq ▸ ha)⟩
    · rw [hsettled]
      exact List.mem_append_left _ (h.manager rule hrule)
    · rw [hsettled]
      rcases List.mem_append.1 hq with hq | hq
      · exact List.mem_append_left _ (h.unit q hq)
      · rw [List.mem_singleton.1 hq]
        exact List.mem_append_right _ (List.mem_singleton_self _)

theorem connect_rewired {path : QString} (hs : s.connect path = some s') : Rewired s s' ∧ s'.hooks = s.hooks ++ [path] := by
  unfold State.connect at hs
  split_ifs at hs
  obtain rfl := Option.some.inj hs
  exact ⟨⟨_, [.addMatch (.propertiesChanged path)], rfl, by simp⟩, rfl⟩

theorem disconnectChanged_rewired (s : State) (paths entries : QMap QString) :
    Rewired s (disconnectChanged paths s entries) := by
  induction entries generalizing s with
  | nil => exact .refl s
  | cons e rest ih =>
    rw [disconnectChanged]
    split
    · exact ih s
    · exact (disconnect_rewired s e.2).trans (ih _)

theorem disconnectChanged_hooks (h : s.Hooked) (paths entries : QMap QString) :
    (disconnectChanged paths s entries).Hooked ∧
      ∀ q, q ∈ (disconnectChanged paths s entries).hooks ↔
        q ∈ s.hooks ∧ ∀ e ∈ entries, pathOf paths e.1 ≠ e.2 → q ≠ e.2 := by
  induction entries generalizing s with
  | nil => exact ⟨h, by simp [disconnectChanged]⟩
  | cons e rest ih =>
    rw [disconnectChanged]
    by_cases hkept : pathOf paths e.1 = e.2
    · rw [if_pos hkept]
      obtain ⟨hhooked, hhooks⟩ := ih h
      refine ⟨hhooked, fun q => ?_⟩
      rw [hhooks, List.forall_mem_cons]
      simp [hkept]
    · rw [if_neg hkept]
      obtain ⟨hhooked, hhooks⟩ := ih (h.disconnect e.2)
      refine ⟨hhooked, fun q => ?_⟩
      rw [hhooks, List.forall_mem_cons, disconnect_hooks, h.nodup.mem_erase_iff]
      simp only [ne_eq, hkept, not_false_eq_true, true_imp_iff]
      exact ⟨fun ⟨⟨hne, hq⟩, hrest⟩ => ⟨hq, hne, hrest⟩, fun ⟨hq, hne, hrest⟩ => ⟨⟨hne, hq⟩, hrest⟩⟩

theorem connectChanged_rewired (s : State) (entries : QMap QString) : Rewired s (connectChanged s entries).1 := by
  induction entries generalizing s with
  | nil => exact .refl s
  | cons e rest ih =>
    rw [connectChanged]
    split
    · exact ih s
    · split
      · exact .refl s
      · rename_i next hnext
        exact (connect_rewired hnext).1.trans (ih next)

theorem connectChanged_ok (h : s.Hooked) {entries : QMap QString} (hs : connectChanged s entries = (s', none)) :
    s'.Hooked ∧ s'.hooks = s.hooks ++ (entries.filter fun e => pathOf s.unitPaths e.1 ≠ e.2).map (·.2) := by
  induction entries generalizing s with
  | nil =>
    obtain ⟨rfl, _⟩ := Prod.ext_iff.1 hs
    exact ⟨h, by simp [connectChanged]⟩
  | cons e rest ih =>
    rw [connectChanged] at hs
    by_cases hkept : pathOf s.unitPaths e.1 = e.2
    · rw [if_pos hkept] at hs
      rw [List.filter_cons_of_neg (by simpa using hkept)]
      exact ih h hs
    · rw [if_neg hkept] at hs
      split at hs
      · simp at hs
      · rename_i next hnext
        obtain ⟨hrewired, hhooks⟩ := connect_rewired hnext
        have hpaths : next.unitPaths = s.unitPaths := by
          obtain ⟨_, _, rfl, _⟩ := hrewired
          rfl
        obtain ⟨hhooked, hall⟩ := ih (h.connect hnext) hs
        refine ⟨hhooked, ?_⟩
        rw [hall, hhooks, hpaths, List.filter_cons_of_pos (by simpa using hkept), List.map_cons, List.append_assoc,
          List.singleton_append]

/-- Every known path is hooked, and no two units share one. -/
structure Connected (s : State) : Prop extends Hooked s where
  hooked : ∀ e ∈ s.unitPaths, e.2 ∈ s.hooks
  distinct : ∀ e ∈ s.unitPaths, ∀ f ∈ s.unitPaths, e.2 = f.2 → e.1 = f.1

/-- An update succeeds with the paths it is given, or fails after some connections. -/
theorem updateUnitConnections_cases (s : State) (paths : QMap QString) :
    ∃ next, Rewired s next ∧
      ((∃ error, s.updateUnitConnections paths = (next, some error)) ∨
        (connectChanged (disconnectChanged paths s s.unitPaths) paths = (next, none) ∧
          s.updateUnitConnections paths = ({ next with unitPaths := paths }, none))) := by
  have hrewired := (disconnectChanged_rewired s paths s.unitPaths).trans
    (connectChanged_rewired (disconnectChanged paths s s.unitPaths) paths)
  unfold updateUnitConnections
  generalize connectChanged (disconnectChanged paths s s.unitPaths) paths = result at hrewired ⊢
  obtain ⟨next, error⟩ := result
  refine ⟨next, hrewired, ?_⟩
  cases error with
  | none => exact .inr ⟨rfl, rfl⟩
  | some error => exact .inl ⟨error, rfl⟩

theorem mem_of_pathOf {paths : QMap QString} {name path : QString} (h : pathOf paths name = path) (hpath : path ≠ []) :
    (name, path) ∈ paths := by
  apply QMap.mem_of_lookup
  unfold pathOf at h
  cases hlookup : paths.lookup name with
  | none =>
    rw [hlookup] at h
    exact absurd h.symm hpath
  | some found =>
    rw [hlookup] at h
    exact congrArg some h

/-- The connections follow the paths. -/
theorem Connected.update (h : s.Connected) {paths : QMap QString} (hsorted : QMap.Sorted paths)
    (hpaths : ∀ e ∈ paths, e.2 ≠ []) {next : State}
    (hnext : connectChanged (disconnectChanged paths s s.unitPaths) paths = (next, none)) :
    Connected { next with unitPaths := paths } := by
  obtain ⟨hhooked, hhooks⟩ := disconnectChanged_hooks h.toHooked paths s.unitPaths
  obtain ⟨hnextHooked, hnextHooks⟩ := connectChanged_ok hhooked hnext
  have hunitPaths : (disconnectChanged paths s s.unitPaths).unitPaths = s.unitPaths := by
    obtain ⟨_, _, heq, _⟩ := disconnectChanged_rewired s paths s.unitPaths
    rw [heq]
  rw [hunitPaths] at hnextHooks
  have hvalue : ∀ e ∈ paths, pathOf paths e.1 = e.2 := by
    intro e he
    rw [pathOf, QMap.lookup_of_mem hsorted he]
    rfl
  -- a path that stays is still hooked after the first loop
  have hkept : ∀ e ∈ paths, pathOf s.unitPaths e.1 = e.2 →
      e ∈ s.unitPaths ∧ e.2 ∈ (disconnectChanged paths s s.unitPaths).hooks := by
    intro e he hsame
    have hmem : e ∈ s.unitPaths := mem_of_pathOf hsame (hpaths e he)
    refine ⟨hmem, (hhooks e.2).2 ⟨h.hooked e hmem, fun f hf hchanged heq => hchanged ?_⟩⟩
    rw [h.distinct f hf e hmem heq.symm, hvalue e he, heq]
  have hnodup := hnextHooked.nodup
  rw [hnextHooks, List.nodup_append] at hnodup
  obtain ⟨_, hnewNodup, hapart⟩ := hnodup
  have hnew : ∀ e ∈ paths, pathOf s.unitPaths e.1 ≠ e.2 →
      e.2 ∈ (paths.filter fun e => pathOf s.unitPaths e.1 ≠ e.2).map (·.2) :=
    fun e he hchanged => List.mem_map.2 ⟨e, List.mem_filter.2 ⟨he, by simpa using hchanged⟩, rfl⟩
  refine { nodup := hnextHooked.nodup, manager := hnextHooked.manager, unit := hnextHooked.unit, hooked := ?_, distinct := ?_ }
  · intro e he
    show e.2 ∈ next.hooks
    rw [hnextHooks]
    by_cases hsame : pathOf s.unitPaths e.1 = e.2
    · exact List.mem_append_left _ (hkept e he hsame).2
    · exact List.mem_append_right _ (hnew e he hsame)
  · intro e he f hf heq
    by_cases hsame : pathOf s.unitPaths e.1 = e.2
    · by_cases hsame' : pathOf s.unitPaths f.1 = f.2
      · exact h.distinct e (hkept e he hsame).1 f (hkept f hf hsame').1 heq
      · exact absurd heq (hapart _ (hkept e he hsame).2 _ (hnew f hf hsame'))
    · by_cases hsame' : pathOf s.unitPaths f.1 = f.2
      · exact absurd heq.symm (hapart _ (hkept f hf hsame').2 _ (hnew e he hsame))
      · have hboth : e = f := List.inj_on_of_nodup_map hnewNodup
          (List.mem_filter.2 ⟨he, by simpa using hsame⟩) (List.mem_filter.2 ⟨hf, by simpa using hsame'⟩) heq
        rw [hboth]

end Connections

end State

section Policy

theorem mem_applyUnit_of_ne {states : QMap QString} {failed : List QString} {name other : QString} (h : name ≠ other) :
    name ∈ applyUnit states failed other ↔ name ∈ failed := by
  unfold applyUnit
  split
  · rfl
  · split_ifs <;> simp [h]

theorem mem_applyUnit {states : QMap QString} {failed : List QString} {name state : QString}
    (h : states.lookup name = some state) :
    (state = qstr "failed" → name ∈ applyUnit states failed name) ∧
      (state = qstr "active" → name ∉ applyUnit states failed name) := by
  have hdifferent : qstr "active" ≠ qstr "failed" := by decide +kernel
  unfold applyUnit
  rw [h]
  generalize qstr "active" = active at *
  generalize qstr "failed" = failed' at *
  constructor
  · rintro rfl
    dsimp only
    rw [if_pos rfl]
    split_ifs with hmem
    · simpa using hmem
    · simp
  · rintro rfl
    dsimp only
    rw [if_neg hdifferent, if_pos rfl]
    simp

/-- A unit that the snapshot says failed is among the failed units, and one that it says is active is not. -/
theorem mem_applySnapshot {states : QMap QString} {failed : List QString} {name state : QString} (hname : name ∈ allowedUnits)
    (h : states.lookup name = some state) :
    (state = qstr "failed" → name ∈ applySnapshot states failed) ∧
      (state = qstr "active" → name ∉ applySnapshot states failed) := by
  have hfold (units : List QString) (failed : List QString) (hunits : name ∉ units) :
      name ∈ units.foldl (applyUnit states) failed ↔ name ∈ failed := by
    induction units generalizing failed with
    | nil => rfl
    | cons unit units ih =>
      rw [List.mem_cons, not_or] at hunits
      rw [List.foldl_cons, ih _ hunits.2, mem_applyUnit_of_ne hunits.1]
  obtain ⟨before, after, hsplit⟩ := List.append_of_mem hname
  have hafter : name ∉ after := by
    have hnodup := allowedUnits_nodup
    rw [hsplit, List.nodup_append] at hnodup
    exact (List.nodup_cons.1 hnodup.2.1).1
  unfold applySnapshot
  rw [hsplit, List.foldl_append, List.foldl_cons, hfold after _ hafter]
  exact mem_applyUnit h

end Policy

section History

def Mark.states : Mark → Option (QMap QString)
  | .snapshotReady states => some states
  | _ => none

/-- The last snapshot that was emitted. -/
def latest (history : List Mark) : Option (QMap QString) := (history.filterMap Mark.states).getLast?

/-- Every snapshot was requested after the last change before it. -/
def Fresh (history : List Mark) : Prop :=
  ∀ before states after, history = before ++ .snapshotReady states :: after →
    ∃ earlier later, before = earlier ++ .requested :: later ∧ .changed ∉ later ∧ .requested ∉ later

/-- Between the request and a snapshot nothing but changes was seen, as many as bring the serial back to where it was. -/
def Counted (history : List Mark) : Prop :=
  ∀ before states after, history = before ++ .snapshotReady states :: after →
    ∃ earlier changes, before = earlier ++ .requested :: List.replicate changes .changed ∧ UInt64.size ∣ changes

theorem latest_append {history : List Mark} {m : Mark} : latest (history ++ [m]) = m.states.or (latest history) := by
  unfold latest
  cases h : m.states <;> simp [List.filterMap_append, h]

theorem Counted.append {history : List Mark} (h : Counted history) {m : Mark}
    (hm : m.states ≠ none → ∃ earlier changes, history = earlier ++ .requested :: List.replicate changes .changed ∧
      UInt64.size ∣ changes) : Counted (history ++ [m]) := by
  intro before states after hsplit
  rcases List.eq_nil_or_concat after with rfl | ⟨rest, last, rfl⟩
  · obtain ⟨rfl, hlast⟩ := List.append_inj' hsplit rfl
    obtain rfl := List.head_eq_of_cons_eq hlast
    exact hm (by simp [Mark.states])
  · have hsplit' : history ++ [m] = (before ++ .snapshotReady states :: rest) ++ [last] := by simpa using hsplit
    obtain ⟨hhistory, _⟩ := List.append_inj' hsplit' rfl
    exact h before states rest hhistory

/-- A serial that is back where it was has seen a multiple of all serials. -/
theorem size_dvd_of_serial {serial : UInt64} {changes : Nat} (h : serial = serial + UInt64.ofNat changes) : UInt64.size ∣ changes := by
  have hzero : UInt64.ofNat changes = 0 := by simpa using h
  have hmod := congrArg UInt64.toNat hzero
  rw [UInt64.toNat_ofNat'] at hmod
  exact Nat.dvd_of_mod_eq_zero hmod

end History

namespace State

section Books
variable {s s' : State}

def isUnits : Message → Bool
  | .units _ => true
  | _ => false

/-- The snapshots that are asked for and not handled. -/
def listed (s : State) : Nat := s.requests.count (.call .listUnitsByNames) + s.stream.countP isUnits

/-- What the manager keeps of the snapshot it awaits and of those it emitted. -/
structure Books (s : State) : Prop where
  listed : s.listed = if s.snapshotWatcher.isSome then 1 else 0
  requested : ∀ serial, s.snapshotWatcher = some serial → s.stopped = true ∨
    ∃ earlier changes, s.history = earlier ++ .requested :: List.replicate changes .changed ∧
      s.changeSerial = serial + UInt64.ofNat changes
  counted : Counted s.history
  applied : ∀ states, latest s.history = some states → ∀ name ∈ allowedUnits,
    (states.lookup name = some (qstr "failed") → name ∈ s.failedUnits) ∧
      (states.lookup name = some (qstr "active") → name ∉ s.failedUnits)

theorem Books.fail (h : s.Books) (error : QString) : (s.fail error).Books := by
  unfold State.fail
  by_cases hstopped : s.stopped = true
  · rw [if_pos hstopped]
    exact h
  · rw [if_neg hstopped]
    refine ⟨h.listed, fun _ _ => .inl rfl, h.counted.append (by simp [Mark.states]), ?_⟩
    intro states hstates
    exact h.applied states (by simpa [mark, latest_append, Mark.states] using hstates)

theorem Books.scheduleRefresh (h : s.Books) : s.scheduleRefresh.Books := by
  unfold State.scheduleRefresh
  by_cases hstopped : s.stopped = true
  · rw [if_pos hstopped]
    exact h
  · rw [if_neg hstopped]
    have hbooks : Books ({ s with changeSerial := s.changeSerial + 1 }.mark .changed) := by
      refine ⟨h.listed, fun serial hs => ?_, h.counted.append (by simp [Mark.states]), ?_⟩
      · obtain ⟨earlier, changes, hhistory, hserial⟩ := (h.requested serial hs).resolve_left hstopped
        refine .inr ⟨earlier, changes + 1, ?_, ?_⟩
        · simp [mark, hhistory, List.replicate_succ']
        · simp only [mark, hserial, UInt64.ofNat_add changes, UInt64.add_assoc]
          rfl
      · intro states hstates
        exact h.applied states (by simpa [mark, latest_append, Mark.states] using hstates)
    dsimp only
    split
    · exact hbooks
    · exact ⟨hbooks.listed, hbooks.requested, hbooks.counted, hbooks.applied⟩

theorem Books.requestSnapshot (h : s.Books) : s.requestSnapshot.Books := by
  unfold State.requestSnapshot
  dsimp only
  split
  · exact ⟨h.listed, h.requested, h.counted, h.applied⟩
  · rename_i hready
    simp only [Bool.or_eq_true, not_or, Bool.not_eq_true, Option.isSome_eq_false_iff, Option.isNone_iff_eq_none] at hready
    refine ⟨?_, fun serial hs => ?_, h.counted.append (by simp [Mark.states]), ?_⟩
    · have hnone : s.listed = 0 := by simpa [hready.2] using h.listed
      unfold State.listed at hnone ⊢
      simp only [requests, stream, send, mark] at hnone ⊢
      rw [← List.append_assoc, List.count_append, List.count_singleton_self]
      simp only [Option.isSome_some, if_true]
      omega
    · obtain rfl := Option.some.inj hs
      exact .inr ⟨s.history, 0, rfl, by simp [mark, send]⟩
    · intro states hstates
      exact h.applied states (by simpa [mark, send, latest_append, Mark.states] using hstates)

theorem Books.receive (h : s.Books) (posted : Bool) (sg : Signal) : (s.receive posted sg).Books := by
  rcases receive_cases s posted sg with hs | ⟨hs, _⟩
  · rw [hs]
    exact h.scheduleRefresh
  · rw [hs]
    exact h

theorem Books.subscribeFinished (h : s.Books) (reply : Except Failure Unit) : (s.subscribeFinished reply).Books := by
  have hbooks : Books { s with subscribeWatcher := false } := ⟨h.listed, h.requested, h.counted, h.applied⟩
  unfold State.subscribeFinished
  cases reply with
  | error f => exact hbooks.fail _
  | ok _ => exact hbooks.requestSnapshot

theorem Books.rewired (h : s.Books) (hs : Rewired s s') : s'.Books := by
  obtain ⟨hooks, outs, rfl, houts⟩ := hs
  refine ⟨?_, h.requested, h.counted, h.applied⟩
  have hnone : outs.count (.call .listUnitsByNames) = 0 := List.count_eq_zero.2 fun hmem => houts _ hmem _ rfl
  have hlisted := h.listed
  unfold State.listed at hlisted ⊢
  simp only [requests, stream] at hlisted ⊢
  rw [← List.append_assoc, List.count_append, hnone, Nat.add_zero]
  exact hlisted

theorem Books.snapshotReady (h : s.Books) (hnone : s.snapshotWatcher = none)
    (hrequested : ∃ earlier changes, s.history = earlier ++ .requested :: List.replicate changes .changed ∧ UInt64.size ∣ changes)
    (states : QMap QString) : (s.snapshotReady states).Books := by
  refine ⟨h.listed, ?_, h.counted.append fun _ => hrequested, ?_⟩
  · intro serial hs
    exact absurd (hnone.symm.trans hs) (by simp)
  · intro states' hstates name hname
    have hsame : states = states' := by simpa [State.snapshotReady, mark, latest_append, Mark.states] using hstates
    subst hsame
    exact ⟨fun hfailed => (mem_applySnapshot hname hfailed).1 rfl, fun hactive => (mem_applySnapshot hname hactive).2 rfl⟩

/-- The books without the snapshot that has been answered. -/
theorem Books.answered (h : s.Books) {serial : UInt64} {reply : Except Failure (List SystemdUnitRecord)} {rest : List Message}
    (hs : s.snapshotWatcher = some serial) (hincoming : s.incoming = .units reply :: rest) :
    Books { s with incoming := rest, snapshotWatcher := none } := by
  refine ⟨?_, by simp, h.counted, h.applied⟩
  have hlisted := h.listed
  unfold State.listed at hlisted ⊢
  simp only [requests, stream, hs, hincoming, List.cons_append, List.countP_cons, isUnits, Option.isSome_some, if_true] at hlisted ⊢
  simp only [Option.isSome_none, Bool.false_eq_true, if_false]
  omega

theorem Books.snapshotFinished (h : s.Books) {serial : UInt64} {reply : Except Failure (List SystemdUnitRecord)} {rest : List Message}
    (hs : s.snapshotWatcher = some serial) (hincoming : s.incoming = .units reply :: rest) :
    Books ({ s with incoming := rest }.snapshotFinished reply serial) := by
  have hbooks := h.answered hs hincoming
  unfold State.snapshotFinished
  dsimp only
  split
  · exact hbooks
  rename_i hstopped
  split
  · exact hbooks.fail _
  split
  · exact hbooks.requestSnapshot
  rename_i hserial
  split
  · exact hbooks.fail _
  split
  · exact hbooks.fail _
  split
  · rename_i paths _ _ _
    obtain ⟨next, hrewired, ⟨error, hupdate⟩ | ⟨_, hupdate⟩⟩ :=
      updateUnitConnections_cases { s with incoming := rest, snapshotWatcher := none } paths
    · rw [hupdate]
      exact (hbooks.rewired hrewired).fail error
    · rw [hupdate]
      have hnext := hbooks.rewired hrewired
      exact Books.requestSnapshot ⟨hnext.listed, hnext.requested, hnext.counted, hnext.applied⟩
  · refine hbooks.snapshotReady rfl ?_ _
    obtain ⟨earlier, changes, hhistory, hchanges⟩ := (h.requested serial hs).resolve_left hstopped
    exact ⟨earlier, changes, hhistory, size_dvd_of_serial ((not_not.1 hserial).trans hchanges)⟩

/-- Books stay right when nothing but messages moves, and no snapshot call or reply among them is lost. -/
theorem Books.moved (h : s.Books) (hlisted : s'.listed = s.listed) (hs : s' = { s with
    timers := s'.timers, outgoing := s'.outgoing, rules := s'.rules, toSystemd := s'.toSystemd, fromSystemd := s'.fromSystemd,
    incoming := s'.incoming, units := s'.units, subscribed := s'.subscribed }) : s'.Books := by
  rw [hs] at hlisted ⊢
  exact ⟨hlisted.trans h.listed, h.requested, h.counted, h.applied⟩

theorem listed_accept {request : Request} {rest : List Request} (h : s.outgoing = request :: rest) :
    ({ s with outgoing := rest }.accept request).listed = s.listed := by
  unfold State.listed
  cases request with
  | addMatch rule => simp [accept, requests, stream, h]
  | removeMatch rule => simp [accept, requests, stream, h]
  | call c => simp [accept, requests, stream, h]

theorem listed_answer {failure : Option Failure} {c : Call} {rest : List Call} (h : s.toSystemd = c :: rest) :
    ({ s with toSystemd := rest }.answer failure c).listed = s.listed := by
  unfold State.listed
  cases c with
  | subscribe => cases failure <;> simp [answer, requests, stream, h, isUnits]
  | listUnitsByNames =>
    cases failure <;> simp only [answer, requests, stream, h, isUnits, List.map_cons, List.cons_append, List.count_cons_self,
      ← List.append_assoc, List.countP_append, List.countP_singleton] <;> simp <;> omega

theorem listed_dropped {message : Message} {rest : List Message} (h : s.fromSystemd = message :: rest)
    (hdropped : s.routed message = false) : ({ s with fromSystemd := rest } : State).listed = s.listed := by
  unfold State.listed
  cases message with
  | signal sg => simp [requests, stream, h, isUnits]
  | subscribed reply => cases hdropped
  | units reply => cases hdropped

theorem listed_handled {message : Message} {rest : List Message} (h : s.incoming = message :: rest)
    (hmessage : isUnits message = false) : ({ s with incoming := rest } : State).listed = s.listed := by
  simp [State.listed, requests, stream, h, hmessage]

theorem Books.deliver (h : s.Books) (posted : Bool) {message : Message} {rest : List Message}
    (hincoming : s.incoming = message :: rest) : ({ s with incoming := rest }.deliver posted message).Books := by
  cases message with
  | signal sg => exact (h.moved (listed_handled hincoming rfl) rfl).receive posted sg
  | subscribed reply => exact (h.moved (listed_handled hincoming rfl) rfl).subscribeFinished reply
  | units reply =>
    unfold State.deliver
    dsimp only
    split
    · rename_i hs
      -- no reply comes when none is awaited
      have hlisted := h.listed
      rw [hs, if_neg (by simp)] at hlisted
      simp [State.listed, stream, hincoming, isUnits] at hlisted
    · rename_i hs
      exact h.snapshotFinished hs hincoming

end Books

end State

theorem State.Books.step {s : State} (h : s.Books) (e : Event) : (step s e).Books := by
  cases e with
  | change units signals =>
    refine h.moved ?_ rfl
    have hnone : (signals.map Message.signal).countP State.isUnits = 0 := by simp [List.countP_eq_zero, State.isUnits]
    simp [State.listed, State.requests, State.stream, UnitMonitor.step, hnone]
  | accept =>
    unfold UnitMonitor.step
    dsimp only
    split
    · exact h
    · rename_i request rest hout
      refine h.moved (State.listed_accept hout) ?_
      cases request <;> rfl
  | answer failure =>
    unfold UnitMonitor.step
    dsimp only
    split
    · exact h
    · rename_i c rest hcalls
      refine h.moved (State.listed_answer hcalls) ?_
      cases c <;> cases failure <;> rfl
  | route =>
    unfold UnitMonitor.step
    dsimp only
    split
    · exact h
    · rename_i message rest hfrom
      split
      · refine h.moved ?_ rfl
        simp [State.listed, State.requests, State.stream, hfrom]
      · rename_i hrouted
        exact h.moved (State.listed_dropped hfrom (by simpa using hrouted)) rfl
  | deliver posted =>
    unfold UnitMonitor.step
    dsimp only
    split
    · exact h
    · rename_i message rest hincoming
      exact h.deliver posted hincoming
  | timeout =>
    unfold UnitMonitor.step
    dsimp only
    split
    · exact h
    · exact State.Books.requestSnapshot (h.moved rfl rfl)

end HyprShelld.UnitMonitor
