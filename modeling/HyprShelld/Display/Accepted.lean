import HyprShelld.Display.Profile

/-! What an accepted desired state says about its monitors, and what is the same in two roots that
differ in the revision and the monitors. -/
namespace HyprShelld.Hyprland
open Json QJsonObject
variable {p : Platform} {catalog : Catalog} {actionCatalog : ActionCatalog}

section Records

def monitorObject (record : MonitorConfiguration) : QJsonObject := ofList (monitorMembers record)

theorem monitorMembers_defined (record : MonitorConfiguration) : ∀ m ∈ monitorMembers record, m.2 ≠ .undefined := by
  simp [monitorMembers, number, integer]

theorem monitorFields_nodup : monitorFields.Nodup := by decide

theorem scaleValue_inj {a b : MonitorScale} (h : scaleValue a = scaleValue b) : a = b := by
  cases a <;> cases b <;> simp_all [scaleValue, number]

/-- The object of a record determines the record. -/
theorem monitorObject_injective : Function.Injective monitorObject := by
  intro a b h
  have hmembers : monitorMembers a = monitorMembers b :=
    ofList_inj monitorFields_nodup rfl (monitorMembers_defined a) (monitorMembers_defined b) h
  simp only [monitorMembers, number, integer, List.cons.injEq, Prod.mk.injEq, true_and, QJsonValue.string.injEq,
    QJsonValue.bool.injEq, QJsonValue.double.injEq, QJsonValue.array.injEq, Double.finite.injEq, Int.cast_inj, and_true] at hmembers
  obtain ⟨h1, h2, h3, h4, h5, h6, ⟨h7, h8, h9, h10⟩, h11, h12, h13, h14, h15, h16, h17, h18, h19, h20, h21, h22, h23, h24,
    h25, h26⟩ := hmembers
  have hscale := scaleValue_inj h6
  have hreserved : a.reserved = b.reserved := Prod.ext h7 (Prod.ext h8 (Prod.ext h9 h10))
  cases a
  cases b
  simp_all

end Records

section Frame
variable {root other : QJsonObject}

theorem parseRecordArray_congr {α : Type} {id : α → QString} {parser : QJsonObject → QString → Reads α} {key : QString}
    {n : Nat} (h : other.value key = root.value key) :
    parseRecordArray other key n id parser = parseRecordArray root key n id parser := by
  unfold parseRecordArray readArray
  rw [h]

theorem readDevices_congr (h : other.value (qstr "devices") = root.value (qstr "devices")) :
    readDevices p other = readDevices p root := by
  unfold readDevices parseDesiredInputDevices
  rw [parseRecordArray_congr h]

theorem readOverrides_congr (h : other.value (qstr "overrides") = root.value (qstr "overrides")) :
    readOverrides p catalog other = readOverrides p catalog root := by
  unfold readOverrides readObject
  rw [h]

/-- Objects that differ in the revision and the monitors at most. -/
def SameBesideMonitors (root other : QJsonObject) : Prop :=
  ∀ key, key ≠ qstr "revision" → key ≠ qstr "monitors" → other.value key = root.value key

theorem readTarget_frame (h : SameBesideMonitors root other) : readTarget p catalog other = readTarget p catalog root := by
  unfold readTarget readString
  rw [h _ (by decide) (by decide)]

theorem readDigest_congr {key : String} {readOnly : Bool} {expected : QString} {a b c : String}
    (h : other.value (qstr key) = root.value (qstr key)) :
    readDigest p other key readOnly expected a b c = readDigest p root key readOnly expected a b c := by
  unfold readDigest readString
  rw [h]

theorem readFormatVersion_frame (h : SameBesideMonitors root other) : readFormatVersion other = readFormatVersion root := by
  unfold readFormatVersion readInteger
  rw [h _ (by decide) (by decide)]

theorem parseHeader_frame (h : SameBesideMonitors root other) :
    (parseHeader p catalog actionCatalog other).value =
      { (parseHeader p catalog actionCatalog root).value with revision := (readRevision p other).value } := by
  simp only [parseHeader, Checked.bind_value, Checked.pure_value, readTarget_frame h, readFormatVersion_frame h,
    readDigest_congr (h (qstr "catalogDigest") (by decide) (by decide)),
    readDigest_congr (h (qstr "actionCatalogDigest") (by decide) (by decide))]

/-- What a body reads beside the monitors is the same. -/
theorem parseBody_frame (h : SameBesideMonitors root other) (header : DesiredState) (revision : UInt64)
    (monitors : List MonitorConfiguration) :
    { (parseBody p catalog actionCatalog other { header with revision := revision }).value with
        revision := header.revision, monitors := monitors } =
      { (parseBody p catalog actionCatalog root header).value with monitors := monitors } := by
  simp only [parseBody, Checked.bind_value, Checked.pure_value, readOverrides_congr (h _ (by decide) (by decide)),
    readDevices_congr (h _ (by decide) (by decide)), parseRecordArray_congr (h (qstr "curves") (by decide) (by decide)),
    parseRecordArray_congr (h (qstr "animations") (by decide) (by decide)),
    parseRecordArray_congr (h (qstr "gestures") (by decide) (by decide)),
    parseRecordArray_congr (h (qstr "workspaceRules") (by decide) (by decide)),
    parseRecordArray_congr (h (qstr "windowRules") (by decide) (by decide)),
    parseRecordArray_congr (h (qstr "layerRules") (by decide) (by decide)),
    parseRecordArray_congr (h (qstr "submaps") (by decide) (by decide)),
    parseRecordArray_congr (h (qstr "bindings") (by decide) (by decide)),
    parseRecordArray_congr (h (qstr "permissions") (by decide) (by decide)),
    parseRecordArray_congr (h (qstr "environment") (by decide) (by decide))]

end Frame

section Accepted
variable {root : QJsonObject} {state : DesiredState}

theorem parseRoot_readOnly (h : (parseRoot p catalog actionCatalog root).value = some state) :
    state.readOnly = (parseHeader p catalog actionCatalog root).value.readOnly := by
  obtain ⟨-, rfl⟩ := Checked.result_value.mp h
  simp only [Checked.bind_value]
  split_ifs with hread
  · rfl
  · rfl

/-- An editable state is the body behind its header. -/
theorem parseRoot_editable (h : (parseRoot p catalog actionCatalog root).value = some state) (hw : state.readOnly = false) :
    (parseHeader p catalog actionCatalog root).errors = [] ∧
      (parseBody p catalog actionCatalog root (parseHeader p catalog actionCatalog root).value).errors = [] ∧
      state = (parseBody p catalog actionCatalog root (parseHeader p catalog actionCatalog root).value).value := by
  rw [parseRoot_readOnly h] at hw
  obtain ⟨herrors, rfl⟩ := Checked.result_value.mp h
  simp only [Checked.bind_errors, List.append_eq_nil_iff, hw, Bool.false_eq_true, if_false] at herrors
  simp only [Checked.bind_value, hw, Bool.false_eq_true, if_false]
  exact ⟨herrors.1, herrors.2, trivial⟩

theorem parseBody_monitors (header : DesiredState) : (parseBody p catalog actionCatalog root header).value.monitors =
    (parseRecordArray root (qstr "monitors") maximumMonitors (·.id) (parseMonitor p)).value := rfl

private theorem parseRecords_ids {α : Type} {id : α → QString} {parser : QJsonObject → QString → Reads α} {path : QString}
    {items : List QJsonValue} {index : Nat} {ids : List QString}
    (h : (parseRecords path id parser index ids items).errors = []) :
    ((parseRecords path id parser index ids items).value.map id).Nodup ∧
      ∀ record ∈ (parseRecords path id parser index ids items).value, id record ∉ ids := by
  induction items generalizing index ids with
  | nil => exact ⟨List.nodup_nil, nofun⟩
  | cons item items ih =>
    revert h
    unfold parseRecords
    cases item with
    | object o =>
      intro h
      simp only [Checked.bind_errors, List.append_eq_nil_iff, Checked.rejectIf_errors] at h
      obtain ⟨hnodup, hseen⟩ := ih h.2.2.1
      simp only [Checked.bind_value, Checked.pure_value, List.map_cons, List.nodup_cons, List.forall_mem_cons]
      refine ⟨⟨fun hmem => ?_, hnodup⟩, by simpa using h.2.1, fun record hr hmem => hseen record hr (List.mem_cons_of_mem _ hmem)⟩
      obtain ⟨record, hr, heq⟩ := List.mem_map.mp hmem
      exact hseen record hr (heq ▸ List.mem_cons_self)
    | _ => simp [addError, Checked.report]

theorem parseRecordArray_ids {α : Type} {id : α → QString} {parser : QJsonObject → QString → Reads α} {key : QString}
    {n : Nat} (h : (parseRecordArray root key n id parser).errors = []) :
    ((parseRecordArray root key n id parser).value.map id).Nodup := by
  simp only [parseRecordArray, Checked.bind_errors, List.append_eq_nil_iff] at h
  exact (parseRecords_ids h.2.2).1

theorem parseMonitor_selector {o : QJsonObject} {path : QString} (h : (parseMonitor p o path).errors = []) :
    (parseMonitor p o path).value.selector ≠ [] := by
  simp only [parseMonitor, Checked.bind_errors, List.append_eq_nil_iff] at h
  obtain ⟨-, -, hselector, -⟩ := h
  exact readString_ne_nil hselector

private theorem identities_eq {identities : List QString} (h : ∀ s ∈ identities, s ≠ []) :
    (identities.map fun identity => if identity.isEmpty then none else some identity).filterMap id = identities := by
  induction identities with
  | nil => rfl
  | cons s rest ih =>
    rw [List.map_cons, if_neg (by simpa using h s List.mem_cons_self), List.filterMap_cons_some (f := id) (b := s) rfl,
      ih fun t ht => h t (List.mem_cons_of_mem _ ht)]

/-- What an accepted editable state says about its monitors. -/
structure MonitorFacts (root : QJsonObject) (state : DesiredState) : Prop where
  written : root.value (qstr "monitors") = recordArray monitorMembers state.monitors
  ids : (state.monitors.map (·.id)).Nodup
  selectors : (state.monitors.map (·.selector)).Nodup

theorem monitorFacts (hv : Components.Persistable p.number (.object root))
    (h : (parseRoot p catalog actionCatalog root).value = some state) (hw : state.readOnly = false) :
    MonitorFacts root state := by
  obtain ⟨-, herrors, hstate⟩ := parseRoot_editable h hw
  rw [hstate]
  simp only [parseBody, Checked.bind_errors, List.append_eq_nil_iff] at herrors
  obtain ⟨-, -, -, hmonitors, -, -, -, -, -, -, -, -, -, -, -, -, hcross, -⟩ := herrors
  simp only [crossCheck, Checked.bind_errors, List.append_eq_nil_iff] at hcross
  refine ⟨parseRecordArray_ok (fun _ _ => parseMonitor_trip) hv hmonitors, parseRecordArray_ids hmonitors, ?_⟩
  have hunique := (Checked.rejectRepeated_errors hcross.1).1
  rwa [identities_eq] at hunique
  intro s hs
  obtain ⟨record, hrecord, rfl⟩ := List.mem_map.mp hs
  obtain ⟨o, path, ho, rfl⟩ := parseRecordArray_each hmonitors record hrecord
  exact parseMonitor_selector ho

end Accepted

end HyprShelld.Hyprland
