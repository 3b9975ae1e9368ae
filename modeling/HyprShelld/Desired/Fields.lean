import HyprShelld.Desired.Serialize
import HyprShelld.Json.Shape

/-! What a reader that reports nothing says about its object: the field held the value that
was returned. -/
namespace HyprShelld

namespace Hyprland
open QJsonObject Json

variable {p : Platform} {o : QJsonObject} {key path : QString}

theorem rejectUnknownFields_ok {allowed : List QString}
    (h : (rejectUnknownFields o allowed path).errors = []) : ∀ k ∈ o.keys, k ∈ allowed := by
  intro k hk
  obtain ⟨_, h⟩ := forEach_errors h k hk
  simpa using h

theorem readString_ok {n : Nat} {e l : Bool} (h : (readString p o key path n e l).errors = []) :
    o.value key = .string (readString p o key path n e l).value := by
  revert h
  unfold readString
  split
  · rename_i text ht
    split
    · simp
    · intro _
      exact ht
  · simp

theorem readBoolean_ok {b : Bool} (h : (readBoolean o key path b).errors = []) :
    o.value key = .bool (readBoolean o key path b).value := by
  revert h
  unfold readBoolean
  split
  · rename_i ht
    intro _
    exact ht
  · simp

theorem readNumber_ok {a b c : ℚ} (h : (readNumber o key path a b c).errors = []) :
    o.value key = number (readNumber o key path a b c).value := by
  revert h
  unfold readNumber
  split
  · rename_i ht
    split
    · simp
    · intro _
      exact QJsonValue.finite?_eq_some.mp ht
  · simp

theorem readInteger_ok {a b c : Int} (h : (readInteger o key path a b c).errors = []) :
    o.value key = integer (readInteger o key path a b c).value := by
  revert h
  unfold readInteger
  split
  · rename_i ht
    intro _
    exact QJsonValue.integer?_eq_some (Option.filter_eq_some_iff.mp ht).1
  · simp

theorem readObject_ok (h : (readObject o key path).errors = []) :
    o.value key = .object (readObject o key path).value := by
  revert h
  unfold readObject
  split
  · rename_i ht
    intro _
    exact ht
  · simp

theorem readArray_ok (h : (readArray o key path).errors = []) :
    o.value key = .array (readArray o key path).value := by
  revert h
  unfold readArray
  split
  · rename_i ht
    intro _
    exact ht
  · simp

theorem readId_ok (h : (readId p o path).errors = []) :
    o.value (qstr "id") = .string (readId p o path).value := by
  simp only [readId, Checked.bind_errors, List.append_eq_nil_iff] at h
  exact readString_ok h.1

theorem readClosedMap_ok {fields : NestedFieldTable} (h : (readClosedMap p o key path fields).errors = []) :
    o.value key = .object (readClosedMap p o key path fields).value := by
  simp only [readClosedMap, Checked.bind_errors, List.append_eq_nil_iff] at h
  exact readObject_ok h.1

private theorem readStrings_ok {items : List QJsonValue} {allowEmpty : Bool} {i : Nat}
    (h : (readStrings p path allowEmpty i items).errors = []) :
    ((readStrings p path allowEmpty i items).value).map .string = items := by
  induction items generalizing i with
  | nil => rfl
  | cons item items ih =>
    revert h
    unfold readStrings
    cases item with
    | string text =>
      simp only []
      split
      · simp [addError, Checked.report]
      · intro h
        simp only [Checked.bind_errors, List.append_eq_nil_iff] at h
        simp only [Checked.bind_value, Checked.pure_value, List.map_cons, ih h.1]
    | _ => simp [addError, Checked.report]

theorem readStringArray_ok {n : Nat} {e : Bool} (h : (readStringArray p o key path n e).errors = []) :
    o.value key = stringArray (readStringArray p o key path n e).value := by
  simp only [readStringArray, Checked.bind_errors, List.append_eq_nil_iff, Checked.rejectIf_errors] at h
  obtain ⟨ha, hn, hs⟩ := h
  have hl : (readArray o key path).value.take n = (readArray o key path).value :=
    List.take_of_length_le (by simpa using hn)
  rw [hl] at hs
  rw [readArray_ok ha, stringArray]
  simp only [readStringArray, Checked.bind_value, hl, readStrings_ok hs]

section Records
variable {text : QString → Prop} {num : Double → Prop} {α : Type} {id : α → QString}
  {parser : QJsonObject → QString → Reads α} {members : α → List (QString × QJsonValue)}

private theorem parseRecords_ok
    (hp : ∀ o path, Valid text num (.object o) → (parser o path).errors = [] →
      ofList (members (parser o path).value) = o)
    {items : List QJsonValue} (hv : ValidItems text num items) {i : Nat} {ids : List QString}
    (h : (parseRecords path id parser i ids items).errors = []) :
    (parseRecords path id parser i ids items).value.map (fun a => .object (ofList (members a))) = items := by
  induction items generalizing i ids with
  | nil => rfl
  | cons item items ih =>
    revert h
    unfold parseRecords
    cases item with
    | object o =>
      intro h
      simp only [Checked.bind_errors, List.append_eq_nil_iff] at h
      simp only [Checked.bind_value, Checked.pure_value, List.map_cons, hp o _ hv.1 h.1, ih hv.2 h.2.2.1]
    | _ => simp [addError, Checked.report]

theorem value_valid (ho : Valid text num (.object o)) {v : QJsonValue} (h : o.value key = v)
    (hv : v ≠ .undefined) : Valid text num v :=
  ((validMembers_iff.mp ho.2) _ (mem_of_lookup_eq_some (lookup_of_value h hv))).2

theorem parseRecordArray_ok
    (hp : ∀ o path, Valid text num (.object o) → (parser o path).errors = [] →
      ofList (members (parser o path).value) = o)
    (ho : Valid text num (.object o)) {n : Nat} (h : (parseRecordArray o key n id parser).errors = []) :
    o.value key = recordArray members (parseRecordArray o key n id parser).value := by
  simp only [parseRecordArray, Checked.bind_errors, List.append_eq_nil_iff, Checked.rejectIf_errors] at h
  obtain ⟨ha, hn, hr⟩ := h
  have hl : (readArray o key (qstr "$")).value.take n = (readArray o key (qstr "$")).value :=
    List.take_of_length_le (by simpa using hn)
  have hitems : ValidItems text num (readArray o key (qstr "$")).value :=
    value_valid ho (readArray_ok ha) (by simp)
  rw [hl] at hr
  rw [readArray_ok ha, recordArray]
  simp only [parseRecordArray, Checked.bind_value, hl, parseRecords_ok hp hitems hr]

private theorem parseRecords_each {items : List QJsonValue} {i : Nat} {ids : List QString}
    (h : (parseRecords path id parser i ids items).errors = []) :
    ∀ record ∈ (parseRecords path id parser i ids items).value,
      ∃ o path, (parser o path).errors = [] ∧ (parser o path).value = record := by
  induction items generalizing i ids with
  | nil => simp [parseRecords]
  | cons item items ih =>
    revert h
    unfold parseRecords
    cases item with
    | object o =>
      intro h
      simp only [Checked.bind_errors, List.append_eq_nil_iff] at h
      simp only [Checked.bind_value, Checked.pure_value, List.mem_cons, forall_eq_or_imp]
      exact ⟨⟨o, _, h.1, rfl⟩, ih h.2.2.1⟩
    | _ => simp [addError, Checked.report]

/-- Every record of an array was read by the record parser without an error. -/
theorem parseRecordArray_each {n : Nat} (h : (parseRecordArray o key n id parser).errors = []) :
    ∀ record ∈ (parseRecordArray o key n id parser).value,
      ∃ o path, (parser o path).errors = [] ∧ (parser o path).value = record := by
  simp only [parseRecordArray, Checked.bind_errors, List.append_eq_nil_iff] at h
  exact parseRecords_each h.2.2

end Records

end Hyprland
end HyprShelld
