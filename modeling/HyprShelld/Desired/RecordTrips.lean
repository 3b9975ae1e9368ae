import HyprShelld.Desired.Fields

/-! Every record parser is inverted by the writer of its collection: an object it accepts
without an error is the object written for the record it returns. -/
namespace HyprShelld.Hyprland
open QJsonObject Json

variable {p : Platform} {text : QString → Prop} {num : Double → Prop} {o : QJsonObject} {path : QString}

theorem readString_ne_nil {key : QString} {n : Nat} {l : Bool}
    (h : (readString p o key path n false l).errors = []) : (readString p o key path n false l).value ≠ [] := by
  revert h
  unfold readString
  split
  · rename_i text ht
    split
    · simp
    · rename_i hc
      intro _ hn
      simp only [Checked.pure_value] at hn
      subst hn
      simp at hc
  · simp

theorem rejectChoice_ok {choice : QString} {choices : List String} {code message : String} (hne : choice ≠ [])
    (h : (rejectChoice choice choices path code message).errors = []) : ∃ c ∈ choices, qstr c = choice := by
  simpa [rejectChoice, hne, memberOf] using h

section Monitors

theorem readScale_ok (h : (readScale o path).errors = []) :
    o.value (qstr "scale") = scaleValue (readScale o path).value := by
  revert h
  unfold readScale
  simp only []
  split
  · rename_i hv
    split
    · intro _
      exact hv
    · simp
  · rename_i hv
    split
    · intro _
      exact hv
    · simp
  · simp

theorem readReserved_ok (h : (readReserved o path).errors = []) :
    o.value (qstr "reserved") = .array [integer (readReserved o path).value.1,
      integer (readReserved o path).value.2.1, integer (readReserved o path).value.2.2.1,
      integer (readReserved o path).value.2.2.2] := by
  revert h
  unfold readReserved
  simp only []
  split
  · rename_i hv
    split
    · rename_i ha hb hc hd
      intro _
      rw [hv, QJsonValue.integer?_eq_some ha, QJsonValue.integer?_eq_some hb, QJsonValue.integer?_eq_some hc,
        QJsonValue.integer?_eq_some hd]
      rfl
    · simp
  · simp

theorem parseMonitor_trip (ho : Valid text num (.object o)) (h : (parseMonitor p o path).errors = []) :
    ofList (monitorMembers (parseMonitor p o path).value) = o := by
  simp only [parseMonitor, Checked.bind_errors, List.append_eq_nil_iff] at h
  obtain ⟨hfields, hid, hselector, -, henabled, hmode, -, hposition, -, hscale, hreserved, htransform, hmirror,
    -, hbitdepth, -, hcm, -, heotf, -, hbrightness, hsaturation, hvrr, hicc, hwide, hhdr, hsdrMin, hsdrMax,
    hmin, hmax, havg, -⟩ := h
  refine ofList_eq ho.1 ?_ (rejectUnknownFields_ok hfields)
  simp [monitorMembers, parseMonitor, readId_ok hid, readString_ok hselector, readBoolean_ok henabled,
    readString_ok hmode, readString_ok hposition, readScale_ok hscale, readReserved_ok hreserved,
    readInteger_ok htransform, readString_ok hmirror, readInteger_ok hbitdepth, readString_ok hcm,
    readString_ok heotf, readNumber_ok hbrightness, readNumber_ok hsaturation, readInteger_ok hvrr,
    readString_ok hicc, readInteger_ok hwide, readInteger_ok hhdr, readNumber_ok hsdrMin, readInteger_ok hsdrMax,
    readNumber_ok hmin, readInteger_ok hmax, readInteger_ok havg]

end Monitors

theorem parseDevice_trip (ho : Valid text num (.object o)) (h : (parseDevice p o path).errors = []) :
    ofList (deviceMembers (parseDevice p o path).value) = o := by
  simp only [parseDevice, Checked.bind_errors, List.append_eq_nil_iff] at h
  obtain ⟨hfields, hid, hselector, hkind, -, henabled, hoverrides, -⟩ := h
  refine ofList_eq ho.1 ?_ (rejectUnknownFields_ok hfields)
  simp [deviceMembers, parseDevice, readId_ok hid, readString_ok hselector, readString_ok hkind,
    readBoolean_ok henabled, readClosedMap_ok hoverrides]

section Curves

theorem bezierCoordinate_ok {v : QJsonValue} {fallback : ℚ}
    (h : (bezierCoordinate v path fallback).errors = []) :
    v = number (bezierCoordinate v path fallback).value := by
  revert h
  unfold bezierCoordinate
  split
  · rename_i hq
    intro _
    exact QJsonValue.finite?_eq_some.mp (Option.filter_eq_some_iff.mp hq).1
  · simp

theorem bezierPoint_ok {v : QJsonValue} {fallback : ℚ × ℚ}
    (h : (bezierPoint (some v) path fallback).errors = []) :
    v = pointValue (bezierPoint (some v) path fallback).value := by
  revert h
  unfold bezierPoint
  split
  · rename_i hv
    cases hv
  · rename_i hv
    cases hv
    intro h
    simp only [Checked.bind_errors, List.append_eq_nil_iff] at h
    simp only [Checked.bind_value, Checked.pure_value, pointValue, ← bezierCoordinate_ok h.1,
      ← bezierCoordinate_ok h.2.1]
  · simp

private theorem parseBezier_ok (h : (parseBezier o path).errors = []) :
    (∀ k ∈ o.keys, k ∈ [qstr "id", qstr "name", qstr "type", qstr "points"]) ∧
    ∃ bezier, (parseBezier o path).value = .bezier bezier ∧
      o.value (qstr "points") = .array [pointValue bezier.points.1, pointValue bezier.points.2] := by
  simp only [parseBezier, Checked.bind_errors, List.append_eq_nil_iff, Checked.rejectIf_errors] at h
  obtain ⟨hfields, hpoints, hlength, hfirst, hsecond, -⟩ := h
  refine ⟨rejectUnknownFields_ok hfields, _, rfl, ?_⟩
  rw [readArray_ok hpoints]
  revert hlength hfirst hsecond
  generalize (readArray o (qstr "points") path).value = points
  intro hlength hfirst hsecond
  obtain ⟨a, b, rfl⟩ := List.length_eq_two.mp (by simpa using hlength)
  exact congrArg QJsonValue.array (congrArg₂ List.cons (bezierPoint_ok hfirst)
    (congrArg (· :: []) (bezierPoint_ok hsecond)))

private theorem readSpring_ok {key : QString} (h : (readSpring o key path).errors = []) :
    o.value key = number (readSpring o key path).value := by
  simp only [readSpring, Checked.bind_errors, List.append_eq_nil_iff, Checked.rejectIf_errors,
    decide_eq_false_iff_not] at h
  obtain ⟨hn, hq, -⟩ := h
  simp only [readSpring, Checked.bind_value, Checked.pure_value, if_neg hq]
  exact readNumber_ok hn

private theorem parseSpring_ok (h : (parseSpring o path).errors = []) :
    (∀ k ∈ o.keys,
      k ∈ [qstr "id", qstr "name", qstr "type", qstr "stiffness", qstr "dampening", qstr "mass"]) ∧
    ∃ spring, (parseSpring o path).value = .spring spring ∧
      o.value (qstr "stiffness") = number spring.stiffness ∧
      o.value (qstr "dampening") = number spring.dampening ∧ o.value (qstr "mass") = number spring.mass := by
  simp only [parseSpring, Checked.bind_errors, List.append_eq_nil_iff] at h
  obtain ⟨hfields, hstiffness, hdampening, hmass, -⟩ := h
  exact ⟨rejectUnknownFields_ok hfields, _, rfl, readSpring_ok hstiffness, readSpring_ok hdampening,
    readSpring_ok hmass⟩

theorem parseCurve_trip (ho : Valid text num (.object o)) (h : (parseCurve p o path).errors = []) :
    ofList (curveMembers (parseCurve p o path).value) = o := by
  simp only [parseCurve, Checked.bind_errors, List.append_eq_nil_iff] at h
  obtain ⟨hid, hname, htype, hparameters, -⟩ := h
  have hkind := readString_ok htype
  have hne := readString_ne_nil htype
  split_ifs at hparameters with hb hs
  · obtain ⟨hkeys, bezier, hvalue, hpoints⟩ := parseBezier_ok hparameters
    rw [hb] at hkind
    have hm : curveMembers (parseCurve p o path).value =
        [(qstr "id", .string (readId p o path).value),
          (qstr "name", .string (readString p o (qstr "name") path 256).value),
          (qstr "type", .string (qstr "bezier")),
          (qstr "points", .array [pointValue bezier.points.1, pointValue bezier.points.2])] := by
      simp only [parseCurve, Checked.bind_value, Checked.pure_value, if_pos hb, curveMembers, hvalue]
      rfl
    rw [hm]
    refine ofList_eq ho.1 ?_ hkeys
    simp [readId_ok hid, readString_ok hname, hkind, hpoints]
  · obtain ⟨hkeys, spring, hvalue, h1, h2, h3⟩ := parseSpring_ok hparameters
    rw [hs] at hkind
    have hm : curveMembers (parseCurve p o path).value =
        [(qstr "id", .string (readId p o path).value),
          (qstr "name", .string (readString p o (qstr "name") path 256).value),
          (qstr "type", .string (qstr "spring")), (qstr "stiffness", number spring.stiffness),
          (qstr "dampening", number spring.dampening), (qstr "mass", number spring.mass)] := by
      simp only [parseCurve, Checked.bind_value, Checked.pure_value, if_neg hb, if_pos hs, curveMembers, hvalue]
      rfl
    rw [hm]
    refine ofList_eq ho.1 ?_ hkeys
    simp [readId_ok hid, readString_ok hname, hkind, h1, h2, h3]
  · simp [hne] at hparameters

end Curves

theorem parseAnimation_trip (ho : Valid text num (.object o)) (h : (parseAnimation p o path).errors = []) :
    ofList (animationMembers (parseAnimation p o path).value) = o := by
  simp only [parseAnimation, Checked.bind_errors, List.append_eq_nil_iff] at h
  obtain ⟨hfields, hid, hname, -, henabled, hspeed, -, hcurve, hstyle, -⟩ := h
  refine ofList_eq ho.1 ?_ (rejectUnknownFields_ok hfields)
  simp [animationMembers, parseAnimation, readId_ok hid, readString_ok hname, readBoolean_ok henabled,
    readNumber_ok hspeed, readString_ok hcurve, readString_ok hstyle]

section Gestures
variable {actionCatalog : ActionCatalog}

private theorem readGestureAction_ok (h : (readGestureAction p actionCatalog o path).errors = []) :
    o.value (qstr "action") = .object (readGestureAction p actionCatalog o path).value.payload := by
  simp only [readGestureAction, Checked.bind_errors, List.append_eq_nil_iff] at h
  exact readObject_ok h.1

theorem parseGesture_trip (ho : Valid text num (.object o))
    (h : (parseGesture p actionCatalog o path).errors = []) :
    ofList (gestureMembers (parseGesture p actionCatalog o path).value) = o := by
  simp only [parseGesture, Checked.bind_errors, List.append_eq_nil_iff] at h
  obtain ⟨hfields, hid, hfingers, hdirection, -, hmodifiers, -, -, hscale, hinhibit, haction, -⟩ := h
  refine ofList_eq ho.1 ?_ (rejectUnknownFields_ok hfields)
  simp [gestureMembers, parseGesture, readId_ok hid, readInteger_ok hfingers, readString_ok hdirection,
    readStringArray_ok hmodifiers, readNumber_ok hscale, readBoolean_ok hinhibit, readGestureAction_ok haction]

end Gestures

section Rules

theorem parseWorkspaceRule_trip (ho : Valid text num (.object o))
    (h : (parseWorkspaceRule p o path).errors = []) :
    ofList (workspaceRuleMembers (parseWorkspaceRule p o path).value) = o := by
  simp only [parseWorkspaceRule, Checked.bind_errors, List.append_eq_nil_iff] at h
  obtain ⟨hfields, hid, hselector, -, henabled, hmonitor, -, hpersistent, hdefault, hlayout, -, hoverrides, -⟩ := h
  refine ofList_eq ho.1 ?_ (rejectUnknownFields_ok hfields)
  simp [workspaceRuleMembers, parseWorkspaceRule, readId_ok hid, readString_ok hselector, readBoolean_ok henabled,
    readString_ok hmonitor, readBoolean_ok hpersistent, readBoolean_ok hdefault, readString_ok hlayout,
    readClosedMap_ok hoverrides]

theorem parseWindowRule_trip (ho : Valid text num (.object o)) (h : (parseWindowRule p o path).errors = []) :
    ofList (windowRuleMembers (parseWindowRule p o path).value) = o := by
  simp only [parseWindowRule, Checked.bind_errors, List.append_eq_nil_iff] at h
  obtain ⟨hfields, hid, hname, henabled, hmatch, -, heffects, -⟩ := h
  refine ofList_eq ho.1 ?_ (rejectUnknownFields_ok hfields)
  simp [windowRuleMembers, parseWindowRule, readId_ok hid, readString_ok hname, readBoolean_ok henabled,
    readClosedMap_ok hmatch, readClosedMap_ok heffects]

theorem parseLayerRule_trip (ho : Valid text num (.object o)) (h : (parseLayerRule p o path).errors = []) :
    ofList (layerRuleMembers (parseLayerRule p o path).value) = o := by
  simp only [parseLayerRule, Checked.bind_errors, List.append_eq_nil_iff] at h
  obtain ⟨hfields, hid, hname, henabled, hmatch, -, heffects, -⟩ := h
  refine ofList_eq ho.1 ?_ (rejectUnknownFields_ok hfields)
  simp [layerRuleMembers, parseLayerRule, readId_ok hid, readString_ok hname, readBoolean_ok henabled,
    readClosedMap_ok hmatch, readClosedMap_ok heffects]

end Rules

theorem parseSubmap_trip (ho : Valid text num (.object o)) (h : (parseSubmap p o path).errors = []) :
    ofList (submapMembers (parseSubmap p o path).value) = o := by
  simp only [parseSubmap, Checked.bind_errors, List.append_eq_nil_iff] at h
  obtain ⟨hfields, hid, hname, hreset, henabled, -⟩ := h
  refine ofList_eq ho.1 ?_ (rejectUnknownFields_ok hfields)
  simp [submapMembers, parseSubmap, readId_ok hid, readString_ok hname, readString_ok hreset,
    readBoolean_ok henabled]

theorem parsePermission_trip (ho : Valid text num (.object o)) (h : (parsePermission p o path).errors = []) :
    ofList (permissionMembers (parsePermission p o path).value) = o := by
  simp only [parsePermission, Checked.bind_errors, List.append_eq_nil_iff] at h
  obtain ⟨hfields, hid, hbinary, -, htype, hmode, -⟩ := h
  refine ofList_eq ho.1 ?_ (rejectUnknownFields_ok hfields)
  simp [permissionMembers, parsePermission, readId_ok hid, readString_ok hbinary, readString_ok htype,
    readString_ok hmode]

section Environment

private theorem scope_text {scope : QString} (hne : scope ≠ []) {at' : QString} {code message : String}
    (h : (rejectChoice scope ["hyprland", "uwsm"] at' code message).errors = []) :
    (if scope = qstr "uwsm" then EnvironmentScope.uwsm else .hyprland).toString = scope := by
  have hm : qstr "hyprland" = scope ∨ qstr "uwsm" = scope := by simpa using rejectChoice_ok hne h
  rcases hm with rfl | rfl
  · rw [if_neg (by simp)]
    rfl
  · rfl

theorem parseEnvironment_trip (ho : Valid text num (.object o)) (h : (parseEnvironment p o path).errors = []) :
    ofList (environmentMembers (parseEnvironment p o path).value) = o := by
  simp only [parseEnvironment, Checked.bind_errors, List.append_eq_nil_iff] at h
  obtain ⟨hfields, hid, hname, -, hvalue, hscope, hchoice, -⟩ := h
  have ht := scope_text (readString_ne_nil hscope) hchoice
  refine ofList_eq ho.1 ?_ (rejectUnknownFields_ok hfields)
  simp [environmentMembers, parseEnvironment, readId_ok hid, readString_ok hname, readString_ok hvalue,
    readString_ok hscope, ht]

end Environment

section Bindings
variable {actionCatalog : ActionCatalog}

private theorem readActionType_ok (h : (readActionType p o path).errors = []) :
    o.value (qstr "actionType") = .string (readActionType p o path).value.toString := by
  simp only [readActionType, Checked.bind_errors, List.append_eq_nil_iff] at h
  obtain ⟨htext, hchoice, -⟩ := h
  have hc := rejectChoice_ok (readString_ne_nil htext) hchoice
  rw [readString_ok htext]
  simp only [readActionType, Checked.bind_value, Checked.pure_value]
  revert hc
  generalize (readString p o (qstr "actionType") path 32).value = text
  intro hc
  have hm : qstr "dispatcher" = text ∨ qstr "defaultApp" = text ∨ qstr "hyprshelld" = text := by simpa using hc
  rcases hm with rfl | rfl | rfl <;> simp [BindingActionType.toString]

private theorem parseDeviceFilter_ok (ho : Valid text num (.object o)) (h : (parseDeviceFilter p o path).errors = []) :
    o.value (qstr "device") = .object (ofList (deviceFilterMembers (parseDeviceFilter p o path).value)) := by
  simp only [parseDeviceFilter, Checked.bind_errors, List.append_eq_nil_iff] at h
  obtain ⟨hdevice, hfields, hinclusive, hlist, -⟩ := h
  have hd := value_valid ho (readObject_ok hdevice) (by simp)
  rw [readObject_ok hdevice]
  congr 1
  symm
  refine ofList_eq hd.1 ?_ (rejectUnknownFields_ok hfields)
  simp [deviceFilterMembers, parseDeviceFilter, readBoolean_ok hinclusive, readStringArray_ok hlist]

/-- The members a device filter adds to the options. -/
private def deviceMember : Option BindingDeviceFilter → List (QString × QJsonValue)
  | some filter => [(qstr "device", .object (ofList (deviceFilterMembers filter)))]
  | none => []

private theorem readDeviceFilter_ok (ho : Valid text num (.object o)) (h : (readDeviceFilter p o path).errors = []) :
    Holds o (deviceMember (readDeviceFilter p o path).value) ∧
      (o.contains (qstr "device") = true → (readDeviceFilter p o path).value ≠ none) := by
  revert h
  unfold readDeviceFilter
  split
  · rename_i hc
    intro _
    have hc : o.contains (qstr "device") = false := by simpa using hc
    simp [deviceMember, hc]
  · split
    · simp
    · intro h
      simp only [Checked.bind_errors, List.append_eq_nil_iff] at h
      simp [deviceMember, parseDeviceFilter_ok ho h.1]

theorem parseBindingOptions_trip (ho : Valid text num (.object o))
    (h : (parseBindingOptions p o path).errors = []) :
    ofList (bindingOptionMembers (parseBindingOptions p o path).value) = o := by
  simp only [parseBindingOptions, Checked.bind_errors, List.append_eq_nil_iff] at h
  obtain ⟨hfields, h1, h2, h3, h4, h5, h6, h7, h8, h9, h10, h11, h12, h13, hdevice, -⟩ := h
  obtain ⟨hd, hdk⟩ := readDeviceFilter_ok ho hdevice
  have hm : bindingOptionMembers (parseBindingOptions p o path).value =
      bindingOptionMembers { (parseBindingOptions p o path).value with device := none } ++
        deviceMember (readDeviceFilter p o path).value := by
    simp only [parseBindingOptions, Checked.bind_value, Checked.pure_value]
    cases (readDeviceFilter p o path).value <;> rfl
  rw [hm]
  refine ofList_eq ho.1 (holds_append.mpr ⟨?_, hd⟩) ?_
  · simp [bindingOptionMembers, parseBindingOptions, readBoolean_ok h1, readBoolean_ok h2, readBoolean_ok h3,
      readBoolean_ok h4, readBoolean_ok h5, readBoolean_ok h6, readBoolean_ok h7, readBoolean_ok h8,
      readBoolean_ok h9, readBoolean_ok h10, readBoolean_ok h11, readBoolean_ok h12, readBoolean_ok h13]
  · intro k hk
    by_cases he : k = qstr "device"
    · have hc : o.contains (qstr "device") = true := by
        obtain ⟨⟨l, v⟩, hv, rfl⟩ := List.mem_map.mp hk
        rw [← he, QJsonObject.contains, lookup_eq_some_of_mem ho.1 hv]
        rfl
      obtain ⟨filter, hf⟩ := Option.ne_none_iff_exists'.mp (hdk hc)
      rw [List.map_append, List.mem_append]
      right
      simp [deviceMember, hf, he]
    · have hin := rejectUnknownFields_ok hfields k hk
      rw [List.map_append, List.mem_append]
      left
      simpa [bindingOptionFields, he, bindingOptionMembers] using hin

theorem parseBinding_trip (ho : Valid text num (.object o))
    (h : (parseBinding p actionCatalog o path).errors = []) :
    ofList (bindingMembers (parseBinding p actionCatalog o path).value) = o := by
  simp only [parseBinding, Checked.bind_errors, List.append_eq_nil_iff] at h
  obtain ⟨hfields, hid, hmodifiers, -, hkey, -, htype, haction, harguments, -, hdescription, henabled, hsubmap,
    hobject, hoptions, -⟩ := h
  have hv := value_valid ho (readObject_ok hobject) (by simp)
  refine ofList_eq ho.1 ?_ (rejectUnknownFields_ok hfields)
  simp [bindingMembers, parseBinding, readId_ok hid, readStringArray_ok hmodifiers, readString_ok hkey,
    readActionType_ok htype, readString_ok haction, readObject_ok harguments, readString_ok hdescription,
    readBoolean_ok henabled, readString_ok hsubmap, readObject_ok hobject, parseBindingOptions_trip hv hoptions]

end Bindings

end HyprShelld.Hyprland
