import HyprShelld.Display.Candidate

/-! A desired state under another revision. -/
namespace HyprShelld.Hyprland
open Json QJsonObject

section Members
variable {before rest : List (QString × QJsonValue)} {key : QString} {v w : QJsonValue}

/-- Another value for one of the members. -/
theorem ofList_replace (hn : ((before ++ (key, v) :: rest).map (·.1)).Nodup)
    (hd : ∀ m ∈ before ++ rest, m.2 ≠ .undefined) (hv : v ≠ .undefined) (hw : w ≠ .undefined) :
    ofList (before ++ (key, w) :: rest) = (ofList (before ++ (key, v) :: rest)).insert key w := by
  have hdefined : ∀ u : QJsonValue, u ≠ .undefined → ∀ m ∈ before ++ (key, u) :: rest, m.2 ≠ .undefined := by
    intro u hu m hm
    rcases List.mem_append.mp hm with hm | hm
    · exact hd m (List.mem_append_left rest hm)
    · rcases List.mem_cons.mp hm with rfl | hm
      · exact hu
      · exact hd m (List.mem_append_right before hm)
  have hnw : ((before ++ (key, w) :: rest).map (·.1)).Nodup := by simpa using hn
  refine ext_lookup (sorted_ofList _) (sorted_insert (sorted_ofList _) key w) fun k => ?_
  rw [lookup_insert _ _ _ hw, lookup_ofList hnw (hdefined w hw), lookup_ofList hn (hdefined v hv)]
  by_cases hk : k = key
  · subst hk
    rw [if_pos rfl]
    exact lookup_of_nodup hnw (by simp)
  · rw [if_neg hk, List.lookup_append, List.lookup_append, lookup_cons_ite, lookup_cons_ite, if_neg hk, if_neg hk]

end Members

section Revision
variable {p : Platform} {catalog : Catalog} {actionCatalog : ActionCatalog} {bytes : QByteArray} {state next : DesiredState}
  {revision : UInt64}

theorem stateObject_revision (hnone : state.opaqueFutureDocument = none) :
    stateObject { state with revision := revision } =
      (stateObject state).insert (qstr "revision") (.string (decimal revision.toNat)) := by
  have hmembers : ∀ n : UInt64, stateObject { state with revision := n } =
      ofList ([(qstr "formatVersion", integer state.formatVersion)] ++
        (qstr "revision", .string (decimal n.toNat)) :: (stateMembers state).drop 2) := by
    intro n
    simp [stateObject, hnone, stateMembers]
  rw [hmembers, show stateObject state = _ from hmembers state.revision]
  refine ofList_replace ?_ ?_ (by simp) (by simp)
  · simp only [stateMembers, List.drop_succ_cons, List.drop_zero, List.singleton_append, List.map_cons, List.map_nil]
    decide
  · simp [stateMembers, recordArray, integer]

theorem editable_document {root : QJsonObject} (h : (parseRoot p catalog actionCatalog root).value = some state)
    (hwritable : state.readOnly = false) : state.opaqueFutureDocument = none := by
  obtain ⟨hheader, -, hbody⟩ := parseRoot_editable h hwritable
  rw [hbody]
  exact (parseHeader_ok hheader).1

/-- What is read from a root with another revision only. -/
theorem parseRoot_revision {root : QJsonObject} (hstate : (parseRoot p catalog actionCatalog root).value = some state)
    (hwritable : state.readOnly = false)
    (hnext : (parseRoot p catalog actionCatalog
      (QJsonObject.insert root (qstr "revision") (.string (decimal revision.toNat)))).value = some next) :
    next = { state with revision := revision } := by
  have hsame : SameBesideMonitors root (QJsonObject.insert root (qstr "revision") (.string (decimal revision.toNat))) := by
    intro key hrevision _
    rw [value_insert (by simp), if_neg hrevision]
  obtain ⟨hreadOnly, hrevision, hrest⟩ := rest_of_same hsame (by rw [value_insert (by simp), if_pos rfl]) hstate hwritable hnext
  have hmonitors : next.monitors = state.monitors := by
    obtain ⟨-, -, hnextBody⟩ := parseRoot_editable hnext hreadOnly
    obtain ⟨-, -, hbody⟩ := parseRoot_editable hstate hwritable
    rw [hnextBody, hbody, parseBody_monitors, parseBody_monitors, parseRecordArray_congr]
    rw [value_insert (by simp), if_neg (by decide)]
  rw [← hrest, ← hrevision, ← hmonitors]

/-- A state that may be edited is read back under another revision as itself. -/
theorem parsed_revision (hstate : (parseDesiredState p bytes catalog actionCatalog).value = some state)
    (hwritable : state.readOnly = false)
    (hnext : (parseDesiredState p (serializeDesiredState p { state with revision := revision }) catalog actionCatalog).value =
      some next) : next = { state with revision := revision } := by
  obtain ⟨root, hv, hd, hobject, hroot⟩ := parsed_root (authorities_of_parse hstate).2
  obtain ⟨-, hnext⟩ := authorities_of_parse hnext
  have hroot := congrArg ValidationResult.value hroot
  have hfits : Fits p 64 (.object root) := ⟨hv, Int.ofNat_le.mp hd⟩
  have hwritten : Fits p 64 (.object (QJsonObject.insert root (qstr "revision") (.string (decimal revision.toNat)))) :=
    hfits.insert (isText_qstr _) (fits_string (isText_digits (decimal_digits _)))
  have hlength := parsed_length hnext
  have hinserted : stateObject { state with revision := revision } = _ :=
    stateObject_revision (editable_document hroot hwritable)
  rw [hobject] at hinserted
  rw [serializeDesiredState, hinserted] at hnext hlength
  rw [parse_canonicalJson hwritten.1 hwritten.2 hlength] at hnext
  exact parseRoot_revision hroot hwritable hnext

end Revision
end HyprShelld.Hyprland
