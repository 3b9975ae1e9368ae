import HyprShelld.Display.Accepted

/-! An accepted request, and the records that are merged for it. -/
namespace HyprShelld.Hyprland
open Json QJsonObject
variable {p : Platform}

section Validated
variable {profile : DisplayProfile} {topology : ConnectedDisplayTopology}

theorem sameMembers_iff {a b : List QString} : sameMembers a b = true ↔ ∀ s, s ∈ a ↔ s ∈ b := by
  simp only [sameMembers, Bool.and_eq_true, List.all_eq_true, List.contains_iff_mem]
  exact ⟨fun h s => ⟨h.1 s, h.2 s⟩, fun h => ⟨fun s => (h s).mp, fun s => (h s).mpr⟩⟩

theorem checkSelectors_errors {selectors observed : List QString} {index : Nat}
    (h : (checkSelectors index observed selectors).errors = []) :
    selectors.Nodup ∧ ∀ s ∈ selectors, s ∉ observed := by
  induction selectors generalizing index observed with
  | nil => exact ⟨List.nodup_nil, nofun⟩
  | cons s rest ih =>
    simp only [checkSelectors, Checked.bind_errors, List.append_eq_nil_iff, Checked.rejectIf_errors] at h
    obtain ⟨-, hobserved, hrest⟩ := h
    obtain ⟨hnodup, hseen⟩ := ih hrest
    refine ⟨List.nodup_cons.mpr ⟨fun hmem => hseen s hmem List.mem_cons_self, hnodup⟩, List.forall_mem_cons.mpr ⟨?_, ?_⟩⟩
    · simpa using hobserved
    · exact fun t ht hmem => hseen t ht (List.mem_cons_of_mem _ hmem)

/-- The target of a live mirror. -/
structure MirrorTarget (records : QMap QJsonObject) (selector : QString) (record target : QJsonObject) : Prop where
  found : records.lookup (mirrorOf record) = some target
  distinct : mirrorOf record ≠ selector
  enabled : isEnabled target = true
  direct : mirrorOf target = []
  position : record.value (qstr "position") = target.value (qstr "position")

theorem checkMirror_errors {records : QMap QJsonObject} {selector : QString} {record : QJsonObject}
    (h : (checkMirror records selector record).errors = []) : ∃ target, MirrorTarget records selector record target := by
  unfold checkMirror at h
  simp only [] at h
  split_ifs at h with hbad
  · simp [addError, Checked.report] at h
  · simp only [not_or] at hbad
    simp only [Checked.bind_errors, List.append_eq_nil_iff, Checked.rejectIf_errors, decide_eq_false_iff_not, not_not] at h
    cases htarget : records.lookup (mirrorOf record) with
    | none => simp [htarget] at hbad
    | some target =>
      simp only [htarget, Option.getD_some] at hbad h
      exact ⟨target, htarget, hbad.1, by simpa using hbad.2.2, h.1, h.2⟩

/-- What an accepted request says about its output objects. -/
structure Requested (records : QMap QJsonObject) (connected : List QString) : Prop where
  found : ∀ s ∈ connected, ∃ object, records.lookup s = some object ∧ selectorOf object = s
  connected : ∀ s object, records.lookup s = some object → s ∈ connected
  usable : ∃ s object, records.lookup s = some object ∧ usable object = true
  mirrors : ∀ s object, records.lookup s = some object → isEnabled object = true → mirrorOf object ≠ [] →
    ∃ target, MirrorTarget records s object target

theorem requested_of_validate (h : (validateDisplayProfileTopology profile topology).errors = []) :
    Requested (profileRecords profile.outputs) (topology.outputs.map (·.selector)) := by
  simp only [validateDisplayProfileTopology, Checked.bind_errors, List.append_eq_nil_iff, Checked.rejectIf_errors] at h
  obtain ⟨-, hselectors, hsame, hmirrors, husable⟩ := h
  have hsorted : (profileRecords profile.outputs).Sorted := QMap.sorted_ofList _
  have hsame := sameMembers_iff.mp (by simpa using hsame)
  have hentries : (profile.outputs.map fun v => (selectorOf v.toObject, v.toObject)).map (·.1)
      = profile.outputs.map fun v => selectorOf v.toObject := by rw [List.map_map]; rfl
  have hnodup := hentries ▸ (checkSelectors_errors hselectors).1
  refine ⟨fun s hs => ?_, fun s object hlookup => ?_, ?_, fun s object hlookup henabled hmirror => ?_⟩
  · obtain ⟨v, hv, rfl⟩ := List.mem_map.mp ((hsame s).mpr hs)
    exact ⟨v.toObject, QMap.lookup_ofList_of_mem hnodup (List.mem_map_of_mem hv), rfl⟩
  · obtain ⟨v, hv, heq⟩ := List.mem_map.mp (QMap.mem_ofList (QMap.mem_of_lookup hlookup))
    cases heq
    exact (hsame _).mp (List.mem_map_of_mem hv)
  · simp only [Bool.not_eq_false', List.any_eq_true] at husable
    obtain ⟨e, he, hu⟩ := husable
    exact ⟨e.1, e.2, QMap.lookup_of_mem hsorted he, hu⟩
  · obtain ⟨-, hcheck⟩ := forEach_errors hmirrors _ (QMap.mem_of_lookup hlookup)
    rw [if_pos (by simp [henabled, hmirror])] at hcheck
    exact checkMirror_errors hcheck

end Validated

section Fitting

/-- A value that can be persisted and is nested at most so deep. -/
def Fits (p : Platform) (n : Nat) (v : QJsonValue) : Prop := Components.Persistable p.number v ∧ nesting v ≤ n

theorem Fits.member {n : Nat} {o : QJsonObject} (h : Fits p (n + 1) (.object o)) {key : QString} {v : QJsonValue}
    (hv : o.value key = v) (hne : v ≠ .undefined) : Fits p n v := by
  refine ⟨value_valid h.1 hv hne, ?_⟩
  have hnesting : ∀ {o : QJsonObject}, (key, v) ∈ o → nesting v ≤ membersNesting o := by
    intro o hmem
    induction o with
    | nil => cases hmem
    | cons e o ih =>
      obtain ⟨k, w⟩ := e
      rw [membersNesting]
      rcases List.mem_cons.mp hmem with heq | hmem
      · cases heq
        exact le_max_left _ _
      · exact (ih hmem).trans (le_max_right _ _)
  have hle := hnesting (mem_of_lookup_eq_some (lookup_of_value hv hne))
  have := h.2
  simp only [nesting] at this
  omega

theorem Fits.item {n : Nat} {items : QJsonArray} (h : Fits p (n + 1) (.array items)) {v : QJsonValue} (hv : v ∈ items) :
    Fits p n v := by
  refine ⟨validItems_iff.mp h.1 v hv, ?_⟩
  have hnesting : ∀ {items : List QJsonValue}, v ∈ items → nesting v ≤ itemsNesting items := by
    intro items hmem
    induction items with
    | nil => cases hmem
    | cons w items ih =>
      rw [itemsNesting]
      rcases List.mem_cons.mp hmem with rfl | hmem
      · exact le_max_left _ _
      · exact (ih hmem).trans (le_max_right _ _)
  have hle := hnesting hv
  have := h.2
  simp only [nesting] at this
  omega

theorem Fits.array {n : Nat} {items : QJsonArray} (h : ∀ v ∈ items, Fits p n v) : Fits p (n + 1) (.array items) := by
  refine ⟨validItems_iff.mpr fun v hv => (h v hv).1, ?_⟩
  have := itemsNesting_le fun v hv => (h v hv).2
  simp only [nesting]
  omega

theorem Fits.insert {n : Nat} {o : QJsonObject} (h : Fits p (n + 1) (.object o)) {key : QString} {v : QJsonValue}
    (hkey : IsText key) (hv : Fits p n v) : Fits p (n + 1) (.object (o.insert key v)) := by
  rw [QJsonObject.insert, if_neg hv.1.ne_undefined]
  refine ⟨⟨sorted_put h.1.1 key v, validMembers_put h.1.2 hkey hv.1⟩, ?_⟩
  have hput := membersNesting_put_le o key v
  have hnesting := h.2
  have := hv.2
  simp only [nesting] at hnesting ⊢
  omega

theorem Fits.mono {n m : Nat} (hle : n ≤ m) {v : QJsonValue} (h : Fits p n v) : Fits p m v := ⟨h.1, h.2.trans hle⟩

theorem fits_string {n : Nat} {s : QString} (h : IsText s) : Fits p n (.string s) := ⟨h, Nat.zero_le _⟩

theorem fits_empty {n : Nat} : Fits p (n + 1) (.object []) := ⟨⟨sorted_nil, trivial⟩, by simp [nesting, membersNesting]⟩

/-- The output objects of an accepted profile. -/
theorem parseDisplayProfile_fits {bytes : QByteArray} {profile : DisplayProfile}
    (h : (parseDisplayProfile p bytes).value = some profile) : ∀ v ∈ profile.outputs, Fits p 30 v := by
  unfold parseDisplayProfile at h
  simp only [] at h
  split at h
  · rename_i root hroot
    obtain ⟨hv, hd⟩ := Components.parseStrictJsonObject_sound hroot
    have hfits : Fits p 32 (.object root) := ⟨hv, Int.ofNat_le.mp hd⟩
    obtain ⟨herrors, rfl⟩ := Checked.result_value.mp h
    simp only [parseProfileRoot, Checked.bind_errors, List.append_eq_nil_iff] at herrors
    obtain ⟨-, -, -, houtputs, -⟩ := herrors
    intro v hv
    simp only [parseProfileRoot, Checked.bind_value, Checked.pure_value] at hv
    cases ho : root.value (qstr "outputs") with
    | array outputs =>
      rw [ho] at houtputs hv
      unfold readOutputs at houtputs hv
      simp only [] at houtputs hv
      split_ifs at houtputs hv
      exact (hfits.member ho (by simp)).item hv
    | _ =>
      rw [ho] at houtputs
      simp [readOutputs] at houtputs
  · cases h

end Fitting

section Merged
variable {proposed : QMap QJsonObject} {baselineIds : QMap QString}

/-- SHA-256 in lowercase hexadecimal digits. -/
def WritesHexDigests (p : Platform) : Prop := ∀ bytes, ∀ u ∈ p.sha256 bytes, isLowerHex u = true

theorem stableMonitorId_isText (hp : WritesHexDigests p) (selector : QString) (used : List QString) :
    IsText (stableMonitorId p selector used).1 := by
  have hbase : IsText (qstr "monitor:" ++ (p.sha256 (toUtf8 selector)).take 32) := by
    refine (isText_qstr _).append (isText_plain fun u hu => ?_)
    have := hp _ u (List.mem_of_mem_take hu)
    simp only [isLowerHex, Bool.or_eq_true, Bool.and_eq_true, decide_eq_true_eq, UInt16.le_iff_toNat_le] at this
    have h0 : (unit '9').toNat = 0x39 := by decide
    have hf : (unit 'f').toNat = 0x66 := by decide
    simp only [isHighSurrogate, isLowSurrogate, Bool.and_eq_false_imp, decide_eq_true_eq, decide_eq_false_iff_not]
    omega
  have hsuffix : ∀ n, IsText (unit ':' :: decimal n) :=
    fun n => (isText_cons_single (u := unit ':') (by decide) (by decide)).mpr (isText_digits (decimal_digits n))
  unfold stableMonitorId
  simp only []
  split_ifs
  · exact hbase
  · split
    · exact hbase.append (hsuffix _)
    · exact hbase

/-- The object of a connected output: the proposed one under the id of the baseline, or under a new one. -/
structure ConnectedObject (p : Platform) (proposed : QMap QJsonObject) (baselineIds : QMap QString) (selector : QString)
    (object : QJsonObject) (id : QString) : Prop where
  object : object = ((proposed.lookup selector).getD []).insert (qstr "id") (.string id)
  id : baselineIds.lookup selector = some id ∨ baselineIds.lookup selector = none ∧ ∃ used, id = (stableMonitorId p selector used).1

theorem exists_of_mem_right {α β : Type} {r : α → β → Prop} {as : List α} {bs : List β} (h : List.Forall₂ r as bs) :
    ∀ b ∈ bs, ∃ a ∈ as, r a b := by
  induction h with
  | nil => exact nofun
  | cons hr _ ih =>
    refine List.forall_mem_cons.mpr ⟨⟨_, List.mem_cons_self, hr⟩, fun b hb => ?_⟩
    obtain ⟨a, ha, hab⟩ := ih b hb
    exact ⟨a, List.mem_cons_of_mem _ ha, hab⟩

theorem forall₂_imp_of_mem {α β : Type} {r r' : α → β → Prop} {as : List α} {bs : List β} (h : List.Forall₂ r as bs)
    (himp : ∀ a ∈ as, ∀ b, r a b → r' a b) : List.Forall₂ r' as bs := by
  induction h with
  | nil => exact .nil
  | cons hr _ ih =>
    exact .cons (himp _ List.mem_cons_self _ hr) (ih fun a ha => himp a (List.mem_cons_of_mem _ ha))

theorem connectedObjects_spec (connected : List QString) (used : List QString) :
    List.Forall₂ (fun selector object => ∃ id, ConnectedObject p proposed baselineIds selector object id) connected
      (connectedObjects p proposed baselineIds used connected) := by
  induction connected generalizing used with
  | nil => exact .nil
  | cons selector rest ih =>
    rw [connectedObjects]
    cases hid : baselineIds.lookup selector with
    | some id => exact .cons ⟨id, rfl, .inl hid⟩ (ih _)
    | none => exact .cons ⟨_, rfl, .inr ⟨hid, used, rfl⟩⟩ (ih _)

theorem monitor_value (record : MonitorConfiguration) (key : QString) (v : QJsonValue) (h : (key, v) ∈ monitorMembers record) :
    (monitorObject record).value key = v := by
  have hnodup : ((monitorMembers record).map (·.1)).Nodup := monitorFields_nodup
  rw [monitorObject, value_ofList hnodup (monitorMembers_defined record), lookup_of_nodup hnodup h, Option.getD_some]

/-- The record read from an output object. -/
structure RealizesMonitor (object : QJsonObject) (record : MonitorConfiguration) : Prop where
  selector : selectorOf object = record.selector
  enabled : isEnabled object = record.enabled
  mirror : mirrorOf object = record.mirror
  position : object.value (qstr "position") = .string record.position

theorem realizesMonitor_self (record : MonitorConfiguration) : RealizesMonitor (monitorObject record) record where
  selector := by rw [selectorOf, monitor_value record _ (.string record.selector) (by simp [monitorMembers])]; rfl
  enabled := by rw [isEnabled, monitor_value record _ (.bool record.enabled) (by simp [monitorMembers])]; rfl
  mirror := by rw [mirrorOf, monitor_value record _ (.string record.mirror) (by simp [monitorMembers])]; rfl
  position := monitor_value record _ _ (by simp [monitorMembers])

theorem value_insert {o : QJsonObject} {key k : QString} {v : QJsonValue} (hv : v ≠ .undefined) :
    (o.insert key v).value k = if k = key then v else o.value k := by
  rw [value, lookup_insert _ _ _ hv]
  split_ifs
  · rfl
  · rfl

/-- A record whose object is a proposed one under another id. -/
theorem realizes_of_insert {object : QJsonObject} {id : QString} {record : MonitorConfiguration}
    (h : monitorObject record = object.insert (qstr "id") (.string id)) : RealizesMonitor object record ∧ record.id = id := by
  have hvalue : ∀ key, key ≠ qstr "id" → (monitorObject record).value key = object.value key := by
    intro key hkey
    rw [h, value_insert (by simp), if_neg hkey]
  have hself := realizesMonitor_self record
  refine ⟨⟨?_, ?_, ?_, ?_⟩, ?_⟩
  · rw [← hself.selector, selectorOf, selectorOf, hvalue _ (by decide)]
  · rw [← hself.enabled, isEnabled, isEnabled, hvalue _ (by decide)]
  · rw [← hself.mirror, mirrorOf, mirrorOf, hvalue _ (by decide)]
  · rw [← hself.position, hvalue _ (by decide)]
  · have hid := monitor_value record (qstr "id") (.string record.id) (by simp [monitorMembers])
    rw [h, value_insert (by simp), if_pos rfl] at hid
    exact (QJsonValue.string.inj hid).symm

end Merged

end HyprShelld.Hyprland
