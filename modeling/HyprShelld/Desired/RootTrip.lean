import HyprShelld.Desired.RecordTrips

/-! The root object: a document accepted without an error is the object written for the state
it was parsed to. -/
namespace HyprShelld.Hyprland
open QJsonObject Json

variable {p : Platform} {text : QString → Prop} {num : Double → Prop} {root : QJsonObject}

section Revision

theorem readString_clean {o : QJsonObject} {key path : QString} {n : Nat} {e : Bool}
    (h : (readString p o key path n e false).errors = []) :
    hasDisallowedCharacter p (readString p o key path n e false).value false = false := by
  revert h
  unfold readString
  split
  · split
    · simp
    · rename_i hc
      intro _
      simp only [Bool.or_eq_true, not_or, Bool.not_eq_true] at hc
      exact hc.2
  · simp

private theorem no_line_feed {s : QString} (h : hasDisallowedCharacter p s false = false) : 0x0a ∉ toUcs4 s := by
  intro hm
  have := List.any_eq_false.mp h 0x0a hm
  simp [isControlOrFormat, p.control 0x0a (by decide)] at this

/-- Revision text is `0` or digits without a leading zero. -/
private theorem revision_digits {s : QString} (h : hasMatch revisionExpression s = true) (hs : 0x0a ∉ toUcs4 s) :
    s = [unit '0'] ∨ ∃ u rest, s = u :: rest ∧ u ≠ unit '0' ∧ ∀ w ∈ s, isSpace w = false := by
  have basic (hlt : ∀ c ∈ toUcs4 s, c < 0xd800) := toUcs4_basic hlt
  rcases Pattern.language_of_matchesWhole h hs with hl | ⟨a, b, hab, ⟨hda, hla, hma⟩, ⟨hdb, -, -⟩⟩
  · have he : toUcs4 s = [0x30] := hl
    have hb := basic (by simp [he])
    rw [he] at hb
    obtain ⟨u, rfl, hu⟩ := List.map_eq_singleton_iff.mp hb
    exact .inl (by rw [show u = unit '0' from UInt16.toNat_inj.mp hu])
  · right
    have hda : ∀ c ∈ a, 0x31 ≤ c ∧ c ≤ 0x39 := by simpa [Pattern.among] using hda
    have hdb : ∀ c ∈ b, 0x30 ≤ c ∧ c ≤ 0x39 := by simpa [Pattern.among] using hdb
    have hall : ∀ c ∈ toUcs4 s, 0x30 ≤ c ∧ c ≤ 0x39 := by
      rw [hab]
      intro c hc
      rcases List.mem_append.mp hc with hc | hc
      · exact ⟨by have := hda c hc; omega, (hda c hc).2⟩
      · exact hdb c hc
    have hb := basic (fun c hc => by have := hall c hc; omega)
    have hspace : ∀ w ∈ s, isSpace w = false := by
      intro w hw
      have hw : w.toNat ∈ toUcs4 s := hb ▸ List.mem_map_of_mem hw
      have := hall _ hw
      simp only [isSpace, Bool.or_eq_false_iff, Bool.and_eq_false_imp, decide_eq_false_iff_not, decide_eq_true_eq]
      omega
    have ha1 : a.length = 1 := Nat.le_antisymm (hma 1 rfl) hla
    obtain ⟨c, rfl⟩ := List.length_eq_one_iff.mp ha1
    cases s with
    | nil => simp [toUcs4] at hab
    | cons u rest =>
      refine ⟨u, rest, rfl, ?_, hspace⟩
      rintro rfl
      rw [hab, List.map_cons] at hb
      have hc := hda c (by simp)
      simp only [List.cons_append, List.nil_append, List.cons.injEq] at hb
      have h0 : (unit '0').toNat = 0x30 := by decide
      omega

/-- Accepted revision text is the decimal text of its value. -/
theorem decimal_parseRevision {s : QString} {r : UInt64} (hs : hasDisallowedCharacter p s false = false)
    (h : parseRevision s = some r) : s = decimal r.toNat := by
  unfold parseRevision at h
  split_ifs at h with hm
  obtain ⟨n, hn, rfl⟩ := Option.map_eq_some_iff.mp h
  have hm : hasMatch revisionExpression s = true := by simpa using hm
  rcases revision_digits hm (no_line_feed hs) with rfl | ⟨u, rest, rfl, hu, hspace⟩
  · have ht : toULongLong (trimmed [unit '0']) = some 0 := by decide
    rw [ht] at hn
    cases hn
    decide
  · rw [trimmed_eq hspace] at hn
    obtain ⟨hv, hle⟩ := Option.filter_eq_some_iff.mp hn
    have hle : n ≤ maximumUnsigned64 := by simpa using hle
    have hlt : n < 2 ^ 64 := by
      simp only [maximumUnsigned64] at hle
      omega
    rw [UInt64.toNat_ofNat_of_lt' hlt, decimal_of_decimalValue hu hv]

theorem readRevision_ok (h : (readRevision p root).errors = []) :
    root.value (qstr "revision") = .string (decimal (readRevision p root).value.toNat) := by
  simp only [readRevision, Checked.bind_errors, List.append_eq_nil_iff, Checked.rejectIf_errors] at h
  obtain ⟨htext, hrevision, -⟩ := h
  have hne := readString_ne_nil htext
  obtain ⟨r, hr⟩ : ∃ r, parseRevision (readString p root (qstr "revision") (qstr "$") 20).value = some r :=
    Option.isSome_iff_exists.mp (by simpa [hne] using hrevision)
  rw [readString_ok htext]
  simp only [readRevision, Checked.bind_value, Checked.pure_value, hr, Option.getD_some]
  rw [← decimal_parseRevision (readString_clean htext) hr]

end Revision

section Header
variable {catalog : Catalog} {actionCatalog : ActionCatalog}

private theorem readFormatVersion_ok (h : (readFormatVersion root).errors = []) :
    root.value (qstr "formatVersion") = integer (readFormatVersion root).value := by
  simp only [readFormatVersion, Checked.bind_errors, List.append_eq_nil_iff, Checked.rejectIf_errors,
    decide_eq_false_iff_not, not_not] at h
  obtain ⟨hformat, hcurrent, -⟩ := h
  rw [readInteger_ok hformat]
  simp only [readFormatVersion, Checked.bind_value, Checked.pure_value, hcurrent]
  rfl

private theorem readTarget_ok (h : (readTarget p catalog root).errors = []) :
    root.value (qstr "targetHyprland") = .string (readTarget p catalog root).value.1 := by
  simp only [readTarget, Checked.bind_errors, List.append_eq_nil_iff] at h
  exact readString_ok h.1

private theorem readDigest_ok {key : String} {readOnly : Bool} {expected : QString} {a b c : String}
    (h : (readDigest p root key readOnly expected a b c).errors = []) :
    root.value (qstr key) = .string (readDigest p root key readOnly expected a b c).value := by
  simp only [readDigest, Checked.bind_errors, List.append_eq_nil_iff] at h
  exact readString_ok h.1

/-- The header fields of the document are those of the header read. -/
theorem parseHeader_ok (h : (parseHeader p catalog actionCatalog root).errors = []) :
    let header := (parseHeader p catalog actionCatalog root).value
    header.opaqueFutureDocument = none ∧ Holds root
      [(qstr "formatVersion", integer header.formatVersion),
        (qstr "revision", .string (decimal header.revision.toNat)),
        (qstr "targetHyprland", .string header.targetHyprland),
        (qstr "catalogDigest", .string header.catalogDigest),
        (qstr "actionCatalogDigest", .string header.actionCatalogDigest)] := by
  simp only [parseHeader, Checked.bind_errors, List.append_eq_nil_iff] at h
  obtain ⟨-, hformat, hrevision, htarget, hcatalog, hactions, -⟩ := h
  refine ⟨rfl, ?_⟩
  simp [parseHeader, readFormatVersion_ok hformat, readRevision_ok hrevision, readTarget_ok htarget,
    readDigest_ok hcatalog, readDigest_ok hactions]

end Header

section Body
variable {catalog : Catalog} {actionCatalog : ActionCatalog} {header : DesiredState}

theorem parseOverrides_ok {overrides : QJsonObject}
    (h : (parseOverrides p catalog overrides).errors = []) :
    (parseOverrides p catalog overrides).value = overrides := by
  induction overrides with
  | nil => rfl
  | cons member overrides ih =>
    obtain ⟨key, v⟩ := member
    revert h
    unfold parseOverrides
    simp only []
    split
    · simp [addError, Checked.report]
    · split
      · simp [addError, Checked.report]
      · intro h
        simp only [Checked.bind_errors, List.append_eq_nil_iff] at h
        simp only [Checked.bind_value, Checked.pure_value, ih h.2.1]

/-- Every override of an accepted map is a checked value of its option. -/
theorem parseOverrides_each {overrides : QJsonObject} (h : (parseOverrides p catalog overrides).errors = []) :
    ∀ e ∈ overrides, ∃ option, findOption catalog e.1 = some option ∧
      (validateOverride p option e.2 (qstr "$.overrides." ++ e.1)).errors = [] := by
  induction overrides with
  | nil => simp
  | cons member overrides ih =>
    obtain ⟨key, v⟩ := member
    revert h
    unfold parseOverrides
    simp only []
    split
    · simp [addError, Checked.report]
    · rename_i option hoption
      split
      · simp [addError, Checked.report]
      · intro h
        simp only [Checked.bind_errors, List.append_eq_nil_iff] at h
        exact List.forall_mem_cons.mpr ⟨⟨option, hoption, h.1⟩, ih h.2.1⟩

theorem readOverrides_ok (hroot : Valid text num (.object root))
    (h : (readOverrides p catalog root).errors = []) :
    root.value (qstr "overrides") = .object (ofList (readOverrides p catalog root).value) := by
  simp only [readOverrides, Checked.bind_errors, List.append_eq_nil_iff, Checked.rejectIf_errors] at h
  obtain ⟨hobject, hlength, hoverrides⟩ := h
  have hv := value_valid hroot (readObject_ok hobject) (by simp)
  have hl : (readObject root (qstr "overrides") (qstr "$")).value.take maximumOverrides =
      (readObject root (qstr "overrides") (qstr "$")).value :=
    List.take_of_length_le (by simpa using hlength)
  rw [hl] at hoverrides
  rw [readObject_ok hobject]
  simp only [readOverrides, Checked.bind_value, hl, parseOverrides_ok hoverrides]
  rw [ofList_self hv.1]
  intro m hm
  exact ((validMembers_iff.mp hv.2) m hm).2.ne_undefined

theorem readDevices_ok (hroot : Valid text num (.object root)) (h : (readDevices p root).errors = []) :
    root.value (qstr "devices") = recordArray deviceMembers (readDevices p root).value := by
  have hall := h
  simp only [readDevices, parseDesiredInputDevices, Checked.result, Checked.bind_errors,
    List.append_eq_nil_iff] at h
  have hv : (readDevices p root).value = (parseRecordArray root (qstr "devices") maximumDevices
      DeviceConfiguration.id (parseDevice p)).value := by
    have he : (parseDesiredInputDevices p root).errors = [] := hall
    simp only [readDevices, parseDesiredInputDevices, Checked.result] at he ⊢
    rw [if_pos he]
    rfl
  rw [hv]
  exact parseRecordArray_ok (fun _ _ => parseDevice_trip) hroot h.1

/-- An editable document holds the members written for its state, and no others. -/
theorem parseBody_ok (hroot : Valid text num (.object root))
    (h : (parseBody p catalog actionCatalog root header).errors = [])
    (hheader : Holds root
      [(qstr "formatVersion", integer header.formatVersion),
        (qstr "revision", .string (decimal header.revision.toNat)),
        (qstr "targetHyprland", .string header.targetHyprland),
        (qstr "catalogDigest", .string header.catalogDigest),
        (qstr "actionCatalogDigest", .string header.actionCatalogDigest)]) :
    ofList (stateMembers (parseBody p catalog actionCatalog root header).value) = root := by
  simp only [parseBody, Checked.bind_errors, List.append_eq_nil_iff] at h
  obtain ⟨hfields, -, hoverrides, hmonitors, hdevices, hcurves, hanimations, hgestures, hworkspaces, -, hwindows,
    hlayers, hsubmaps, hbindings, hpermissions, henvironment, -⟩ := h
  refine ofList_eq hroot.1 ?_ (rejectUnknownFields_ok hfields)
  simp only [holds_cons] at hheader
  simp only [stateMembers, parseBody, Checked.bind_value, Checked.pure_value, holds_cons, hheader, true_and,
    readOverrides_ok hroot hoverrides, readDevices_ok hroot hdevices,
    parseRecordArray_ok (fun _ _ => parseMonitor_trip) hroot hmonitors,
    parseRecordArray_ok (fun _ _ => parseCurve_trip) hroot hcurves,
    parseRecordArray_ok (fun _ _ => parseAnimation_trip) hroot hanimations,
    parseRecordArray_ok (fun _ _ => parseGesture_trip) hroot hgestures,
    parseRecordArray_ok (fun _ _ => parseWorkspaceRule_trip) hroot hworkspaces,
    parseRecordArray_ok (fun _ _ => parseWindowRule_trip) hroot hwindows,
    parseRecordArray_ok (fun _ _ => parseLayerRule_trip) hroot hlayers,
    parseRecordArray_ok (fun _ _ => parseSubmap_trip) hroot hsubmaps,
    parseRecordArray_ok (fun _ _ => parseBinding_trip) hroot hbindings,
    parseRecordArray_ok (fun _ _ => parsePermission_trip) hroot hpermissions,
    parseRecordArray_ok (fun _ _ => parseEnvironment_trip) hroot henvironment]
  simp [recordArray]

/-- The object written for a parsed state is the document it was parsed from. -/
theorem stateObject_parseRoot (hroot : Valid text num (.object root)) {state : DesiredState}
    (h : (parseRoot p catalog actionCatalog root).value = some state) : stateObject state = root := by
  obtain ⟨herrors, rfl⟩ := Checked.result_value.mp h
  simp only [Checked.bind_errors, List.append_eq_nil_iff] at herrors
  obtain ⟨hheader, hrest⟩ := herrors
  obtain ⟨hnone, hholds⟩ := parseHeader_ok hheader
  simp only [Checked.bind_value]
  split_ifs at hrest ⊢ with hread
  · rfl
  · have hopaque : (parseBody p catalog actionCatalog root
        (parseHeader p catalog actionCatalog root).value).value.opaqueFutureDocument = none := hnone
    rw [stateObject, hopaque]
    exact parseBody_ok hroot hrest hholds

end Body

end HyprShelld.Hyprland
