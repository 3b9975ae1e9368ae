import HyprShelld.Display.Merge

/-! A display candidate changes the monitors of the connected outputs and the revision, and nothing else. -/
namespace HyprShelld.Hyprland
open Json QJsonObject
variable {p : Platform} {catalog : Catalog} {actionCatalog : ActionCatalog}

section Candidate
variable {baseline : DesiredState} {profile : DisplayProfile} {topology : ConnectedDisplayTopology}
  {candidate : DisplayCandidate} {baselineRoot : QJsonObject}

theorem buildDisplayCandidate_ok
    (h : (buildDisplayCandidate p baseline profile topology catalog actionCatalog).value = some candidate) :
    (checkDisplayRequest baseline profile topology).errors = [] ∧ ∃ baselineRoot,
      (parseStrictObject p (serializeDesiredState p baseline) maximumDesiredStateBytes 64).value = some baselineRoot ∧
      candidate.bytes = canonicalJson p (.object (candidateRoot p baseline profile topology baselineRoot)) ++ [0x0a] ∧
      (parseDesiredState p candidate.bytes catalog actionCatalog).value = some candidate.state := by
  unfold buildDisplayCandidate at h
  simp only [ne_eq, ite_not] at h
  split_ifs at h with herrors
  refine ⟨herrors, ?_⟩
  split at h
  · cases h
  · rename_i baselineRoot hroot
    split at h
    · cases h
    · rename_i state hstate
      split_ifs at h with hsame
      cases h
      exact ⟨baselineRoot, hroot, rfl, hstate⟩

theorem buildDisplayCandidate_of {state : DesiredState} (hrequest : (checkDisplayRequest baseline profile topology).errors = [])
    (hroot : (parseStrictObject p (serializeDesiredState p baseline) maximumDesiredStateBytes 64).value = some baselineRoot)
    (hobject : candidateRoot p baseline profile topology baselineRoot = stateObject state)
    (hparsed : (parseDesiredState p (serializeDesiredState p state) catalog actionCatalog).value = some state)
    (hchanged : state.monitors ≠ baseline.monitors) :
    (buildDisplayCandidate p baseline profile topology catalog actionCatalog).value =
      some ⟨state, serializeDesiredState p state⟩ := by
  unfold serializeDesiredState at hparsed ⊢
  simp only [buildDisplayCandidate, hrequest, ne_eq, not_true_eq_false, if_false, hroot, hobject, hparsed, hchanged]

/-- The object that the merge starts from is the one the baseline was read from. -/
theorem baselineRoot_eq {bytes : QByteArray} (hbaseline : (parseDesiredState p bytes catalog actionCatalog).value = some baseline)
    (hroot : (parseStrictObject p (serializeDesiredState p baseline) maximumDesiredStateBytes 64).value = some baselineRoot) :
    Fits p 64 (.object baselineRoot) ∧ (parseRoot p catalog actionCatalog baselineRoot).value = some baseline := by
  obtain ⟨root, hv, hd, hobject, hparsed⟩ := parsed_root (authorities_of_parse hbaseline).2
  have hlength := Components.parseStrictJsonObject_length hroot
  have hback : parseStrictObject p (serializeDesiredState p baseline) maximumDesiredStateBytes 64 = ⟨some root, []⟩ := by
    rw [serializeDesiredState, hobject] at hlength ⊢
    exact Components.parseStrictJsonObject_compactJson _ hv hd hlength
  rw [hback] at hroot
  cases hroot
  exact ⟨⟨hv, Int.ofNat_le.mp hd⟩, by rw [hparsed]⟩

theorem connectedObject_fits (hp : WritesHexDigests p) {proposed : QMap QJsonObject} {baselineIds : QMap QString}
    (hproposed : ∀ s object, proposed.lookup s = some object → Fits p 30 (.object object))
    (hids : ∀ s id, baselineIds.lookup s = some id → IsText id) {selector id : QString} {object : QJsonObject}
    (h : ConnectedObject p proposed baselineIds selector object id) : Fits p 30 (.object object) := by
  have hid : IsText id := by
    rcases h.id with hid | ⟨-, used, rfl⟩
    · exact hids _ _ hid
    · exact stableMonitorId_isText hp selector used
  have hsource : Fits p 30 (.object ((proposed.lookup selector).getD [])) := by
    cases hlookup : proposed.lookup selector with
    | some object => exact hproposed _ _ hlookup
    | none => exact fits_empty
  rw [h.object]
  exact hsource.insert (isText_qstr _) (fits_string hid)

theorem toObject_fits {n : Nat} {v : QJsonValue} (h : Fits p (n + 1) v) : Fits p (n + 1) (.object v.toObject) := by
  cases v with
  | object o => exact h
  | _ => exact fits_empty

/-- The monitors of a root are the objects of the records. -/
theorem MonitorFacts.objects {root : QJsonObject} {state : DesiredState} (h : MonitorFacts root state) :
    (root.value (qstr "monitors")).toArray.map QJsonValue.toObject = state.monitors.map monitorObject := by
  rw [h.written, recordArray, QJsonValue.toArray, List.map_map]
  refine List.map_congr_left fun r _ => ?_
  rw [Function.comp_apply, QJsonValue.toObject, monitorObject]

theorem MonitorFacts.isText_id {root : QJsonObject} {state : DesiredState} (h : MonitorFacts root state) {n : Nat}
    (hroot : Fits p (n + 2) (.object root)) : ∀ r ∈ state.monitors, IsText r.id := by
  intro r hr
  have hitem : Fits p n (.object (monitorObject r)) :=
    (hroot.member h.written (by simp [recordArray])).item (List.mem_map_of_mem hr)
  exact value_valid hitem.1 (monitor_value r (qstr "id") (.string r.id) (by simp [monitorMembers])) (by simp)

theorem candidateRoot_fits (hp : WritesHexDigests p) (hroot : Fits p 64 (.object baselineRoot))
    (hfacts : MonitorFacts baselineRoot baseline) (hprofile : ∀ v ∈ profile.outputs, Fits p 30 v) :
    Fits p 64 (.object (candidateRoot p baseline profile topology baselineRoot)) := by
  have hitems : ∀ object ∈ mergedMonitors p baseline profile topology baselineRoot, Fits p 62 (.object object) := by
    intro object hobject
    rcases List.mem_append.mp hobject with hoffline | hconnected
    · rw [hfacts.objects] at hoffline
      obtain ⟨r, hr, rfl⟩ := List.mem_map.mp (List.mem_filter.mp hoffline).1
      exact (hroot.member hfacts.written (by simp [recordArray])).item (List.mem_map_of_mem hr)
    · obtain ⟨s, -, id, hid⟩ := exists_of_mem_right (connectedObjects_spec _ _) object hconnected
      refine (connectedObject_fits hp ?_ ?_ hid).mono (by decide)
      · intro s object hlookup
        obtain ⟨v, hv, heq⟩ := List.mem_map.mp (QMap.mem_ofList (QMap.mem_of_lookup hlookup))
        cases heq
        exact toObject_fits (hprofile v hv)
      · intro s id hlookup
        obtain ⟨r, hr, heq⟩ := List.mem_map.mp (QMap.mem_ofList (QMap.mem_of_lookup hlookup))
        cases heq
        exact hfacts.isText_id hroot r (List.mem_filter.mp hr).1
  refine (hroot.insert (isText_qstr _) (fits_string (isText_digits (decimal_digits _)))).insert (isText_qstr _) (.array ?_)
  intro v hv
  obtain ⟨object, hobject, rfl⟩ := List.mem_map.mp hv
  exact hitems object hobject

/-- A record of a connected output: what was proposed for it, under the id it had. -/
structure ConnectedRecord (proposed : QMap QJsonObject) (baselineIds : QMap QString) (s : QString)
    (record : MonitorConfiguration) : Prop where
  selector : record.selector = s
  realizes : ∃ object, proposed.lookup s = some object ∧ RealizesMonitor object record
  id : ∀ id, baselineIds.lookup s = some id → record.id = id

theorem connectedRecord {proposed : QMap QJsonObject} {baselineIds : QMap QString} {selector id : QString}
    {record : MonitorConfiguration} {object : QJsonObject} (hlookup : proposed.lookup selector = some object)
    (hselector : selectorOf object = selector)
    (h : ConnectedObject p proposed baselineIds selector (monitorObject record) id) :
    ConnectedRecord proposed baselineIds selector record := by
  have hobject := h.object
  rw [hlookup, Option.getD_some] at hobject
  obtain ⟨hrealizes, hid⟩ := realizes_of_insert hobject
  refine ⟨hrealizes.selector.symm.trans hselector, ⟨object, hlookup, hrealizes⟩, fun i hi => ?_⟩
  rcases h.id with hsome | ⟨hnone, -⟩
  · rw [hi] at hsome
    rw [hid, Option.some.inj hsome]
  · rw [hi] at hnone
    cases hnone

def isOffline (connected : List QString) (record : MonitorConfiguration) : Bool := !connected.contains record.selector

def idsOf (connected : List QString) (monitors : List MonitorConfiguration) : QMap QString :=
  .ofList ((monitors.filter fun record => connected.contains record.selector).map fun record => (record.selector, record.id))

/-- The records of a merged root: the offline ones of the baseline, and one for each connected output. -/
theorem merged_records {state : DesiredState} {connected : List QString}
    (hbaseline : MonitorFacts baselineRoot baseline)
    (hrequested : Requested (profileRecords profile.outputs) (topology.outputs.map (·.selector)))
    (hmerged : mergedMonitors p baseline profile topology baselineRoot = state.monitors.map monitorObject)
    (hconnected : connected = topology.outputs.map (·.selector)) :
    ∃ records, state.monitors = baseline.monitors.filter (isOffline connected) ++ records ∧
      List.Forall₂ (ConnectedRecord (profileRecords profile.outputs) (idsOf connected baseline.monitors)) connected records := by
  subst hconnected
  have hoffline : ((baselineRoot.value (qstr "monitors")).toArray.map QJsonValue.toObject).filter
      (fun object => !(topology.outputs.map (·.selector)).contains (selectorOf object)) =
      (baseline.monitors.filter (isOffline (topology.outputs.map (·.selector)))).map monitorObject := by
    rw [hbaseline.objects, List.filter_map]
    refine congrArg (List.map monitorObject) (List.filter_congr fun r _ => ?_)
    rw [Function.comp_apply, (realizesMonitor_self r).selector, isOffline]
  rw [mergedMonitors, hoffline] at hmerged
  obtain ⟨offline, records, hstate, hleft, hright⟩ := List.map_eq_append_iff.mp hmerged.symm
  have hsame := List.map_injective_iff.mpr monitorObject_injective hleft
  refine ⟨records, hsame ▸ hstate, ?_⟩
  have hspec : List.Forall₂ _ _ (records.map monitorObject) := hright ▸ connectedObjects_spec _ _
  refine forall₂_imp_of_mem (List.forall₂_map_right_iff.mp hspec) fun s hs record ⟨id, hid⟩ => ?_
  obtain ⟨object, hlookup, hselector⟩ := hrequested.found s hs
  exact connectedRecord hlookup hselector hid

/-- A state that differs from another one in the revision and in the monitors of the connected outputs. -/
structure ChangesOnlyMonitors (connected : List QString) (baseline state : DesiredState) : Prop where
  revision : state.revision.toNat = baseline.revision.toNat + 1
  rest : { state with revision := baseline.revision, monitors := baseline.monitors } = baseline
  offline : state.monitors.filter (isOffline connected) = baseline.monitors.filter (isOffline connected)
  outputs : ∀ s ∈ connected, ∃ record, state.monitors.filter (·.selector = s) = [record] ∧
    ∀ old ∈ baseline.monitors, old.selector = s → record.id = old.id
  ids : (state.monitors.map (·.id)).Nodup
  usable : ∃ record ∈ state.monitors, record.selector ∈ connected ∧ record.enabled = true ∧ record.mirror = []
  mirrors : ∀ record ∈ state.monitors, record.selector ∈ connected → record.enabled = true → record.mirror ≠ [] →
    ∃ target ∈ state.monitors, target.selector = record.mirror ∧ target.selector ∈ connected ∧
      target.selector ≠ record.selector ∧ target.enabled = true ∧ target.mirror = [] ∧ target.position = record.position

private theorem filter_key_eq {α β : Type} [DecidableEq β] {f : α → β} {as : List α} (hn : (as.map f).Nodup) {a : α}
    (ha : a ∈ as) : as.filter (fun b => f b = f a) = [a] := by
  induction as with
  | nil => cases ha
  | cons b as ih =>
    rw [List.map_cons, List.nodup_cons] at hn
    rcases List.mem_cons.mp ha with rfl | ha
    · rw [List.filter_cons_of_pos (by simp), List.filter_eq_nil_iff.mpr]
      intro c hc
      simp only [decide_eq_true_eq]
      exact fun heq => hn.1 (heq ▸ List.mem_map_of_mem hc)
    · rw [List.filter_cons_of_neg, ih hn.2 ha]
      simp only [decide_eq_true_eq]
      exact fun heq => hn.1 (heq ▸ List.mem_map_of_mem ha)

/-- The monitors of a candidate, as the claims of the structure see them. -/
theorem changes_monitors {state : DesiredState} {connected : List QString} {records : List MonitorConfiguration}
    {proposed : QMap QJsonObject} (hbaseline : MonitorFacts baselineRoot baseline) (hids : (state.monitors.map (·.id)).Nodup)
    (hselectors : (state.monitors.map (·.selector)).Nodup)
    (hrequested : Requested proposed connected)
    (hstate : state.monitors = baseline.monitors.filter (isOffline connected) ++ records)
    (hrecords : List.Forall₂ (ConnectedRecord proposed (idsOf connected baseline.monitors)) connected records)
    (hrevision : state.revision.toNat = baseline.revision.toNat + 1)
    (hrest : { state with revision := baseline.revision, monitors := baseline.monitors } = baseline) :
    ChangesOnlyMonitors connected baseline state := by
  have hof : ∀ s ∈ connected, ∃ record ∈ state.monitors, ConnectedRecord proposed (idsOf connected baseline.monitors) s record := by
    intro s hs
    obtain ⟨record, hrecord, h⟩ := exists_of_mem_right hrecords.flip s hs
    exact ⟨record, hstate ▸ List.mem_append_right _ hrecord, h⟩
  have hconnected : ∀ record ∈ records, record.selector ∈ connected := by
    intro record hrecord
    obtain ⟨s, hs, h⟩ := exists_of_mem_right hrecords record hrecord
    exact h.selector ▸ hs
  have hback : ∀ record ∈ state.monitors, record.selector ∈ connected →
      ConnectedRecord proposed (idsOf connected baseline.monitors) record.selector record := by
    intro record hrecord hmem
    rw [hstate] at hrecord
    rcases List.mem_append.mp hrecord with hoffline | hrecord
    · have := (List.mem_filter.mp hoffline).2
      simp [isOffline, hmem] at this
    · obtain ⟨s, -, h⟩ := exists_of_mem_right hrecords record hrecord
      exact h.selector.symm ▸ h
  refine ⟨hrevision, hrest, ?_, fun s hs => ?_, hids, ?_, fun record hrecord hmem henabled hmirror => ?_⟩
  · have hnone : records.filter (isOffline connected) = [] :=
      List.filter_eq_nil_iff.mpr fun r hr => by simp [isOffline, hconnected r hr]
    rw [hstate, List.filter_append, hnone, List.append_nil, List.filter_filter]
    exact List.filter_congr fun r _ => Bool.and_self _
  · obtain ⟨record, hrecord, h⟩ := hof s hs
    refine ⟨record, h.selector ▸ filter_key_eq hselectors hrecord, fun old hold heq => h.id _ ?_⟩
    refine QMap.lookup_ofList_of_mem ?_ (List.mem_map.mpr ⟨old, ?_, by rw [heq]⟩)
    · rw [List.map_map]
      exact hbaseline.selectors.sublist (List.filter_sublist.map _)
    · simp [hold, heq, hs]
  · obtain ⟨s, object, hlookup, husable⟩ := hrequested.usable
    obtain ⟨record, hrecord, h⟩ := hof s (hrequested.connected s object hlookup)
    obtain ⟨other, hother, hrealizes⟩ := h.realizes
    rw [hlookup] at hother
    cases hother
    simp only [usable, Bool.and_eq_true, List.isEmpty_iff] at husable
    exact ⟨record, hrecord, h.selector ▸ hrequested.connected s object hlookup, hrealizes.enabled ▸ husable.1,
      hrealizes.mirror ▸ husable.2⟩
  · obtain ⟨object, hlookup, hrealizes⟩ := (hback record hrecord hmem).realizes
    obtain ⟨target, htarget⟩ := hrequested.mirrors _ object hlookup (hrealizes.enabled.trans henabled)
      (by rwa [hrealizes.mirror])
    have hfound := htarget.found
    rw [hrealizes.mirror] at hfound
    have hmem' := hrequested.connected _ _ hfound
    obtain ⟨other, hother, h⟩ := hof _ hmem'
    obtain ⟨object', hlookup', hrealizes'⟩ := h.realizes
    rw [hfound] at hlookup'
    cases hlookup'
    have hposition := htarget.position
    rw [hrealizes.position, hrealizes'.position] at hposition
    refine ⟨other, hother, h.selector, h.selector ▸ hmem', ?_, hrealizes'.enabled ▸ htarget.enabled,
      hrealizes'.mirror ▸ htarget.direct, (QJsonValue.string.inj hposition).symm⟩
    rw [h.selector]
    exact hrealizes.mirror ▸ htarget.distinct

theorem candidate_sameBeside : SameBesideMonitors baselineRoot (candidateRoot p baseline profile topology baselineRoot) := by
  intro key hrevision hmonitors
  rw [candidateRoot, value_insert (by simp), if_neg hmonitors, value_insert (by simp), if_neg hrevision]

private theorem decimal_injective {n m : Nat} (h : decimal n = decimal m) : n = m := by
  have hn := decimalValue_decimal n
  rw [h, decimalValue_decimal] at hn
  exact (Option.some.inj hn).symm

/-- What is read from a root with another revision and other monitors is the same beside these. -/
theorem rest_of_same {root other : QJsonObject} {state : DesiredState} {revision : UInt64} (hsame : SameBesideMonitors root other)
    (hother : other.value (qstr "revision") = .string (decimal revision.toNat))
    (hbaseline : (parseRoot p catalog actionCatalog root).value = some baseline) (hwritable : baseline.readOnly = false)
    (hstate : (parseRoot p catalog actionCatalog other).value = some state) :
    state.readOnly = false ∧ state.revision = revision ∧
      { state with revision := baseline.revision, monitors := baseline.monitors } = baseline := by
  have hheader : (parseHeader p catalog actionCatalog other).value = _ := parseHeader_frame hsame
  have hreadOnly : state.readOnly = false := by
    rw [parseRoot_readOnly hstate, hheader, ← hwritable, parseRoot_readOnly hbaseline]
  obtain ⟨herrors, -, hvalue⟩ := parseRoot_editable hstate hreadOnly
  obtain ⟨-, -, hbody⟩ := parseRoot_editable hbaseline hwritable
  have hrevision : state.revision = (readRevision p other).value := by
    rw [hvalue, hheader]
    rfl
  have hread : (readRevision p other).errors = [] := by
    simp only [parseHeader, Checked.bind_errors, List.append_eq_nil_iff] at herrors
    exact herrors.2.2.1
  have hwritten := readRevision_ok hread
  rw [hother] at hwritten
  refine ⟨hreadOnly, ?_, ?_⟩
  · rw [hrevision]
    exact UInt64.toNat_inj.mp (decimal_injective (QJsonValue.string.inj hwritten)).symm
  · have hframe : _ = { (parseBody p catalog actionCatalog root (parseHeader p catalog actionCatalog root).value).value with
        monitors := baseline.monitors } :=
      parseBody_frame hsame (parseHeader p catalog actionCatalog root).value (readRevision p other).value baseline.monitors
    have hkept : (parseHeader p catalog actionCatalog root).value.revision = baseline.revision := by
      rw [hbody]
      rfl
    rw [← hheader, ← hvalue, ← hbody, hkept] at hframe
    exact hframe

theorem parsed_length {bytes : QByteArray} {state : DesiredState}
    (h : (parseDesiredStateForAuthorities p bytes catalog actionCatalog).value = some state) :
    bytes.length ≤ maximumDesiredStateBytes := by
  unfold parseDesiredStateForAuthorities at h
  simp only [] at h
  split at h
  · rename_i hroot
    exact Int.ofNat_le.mp (Components.parseStrictJsonObject_length hroot)
  · cases h

theorem mergedMonitors_eq {state : DesiredState}
    (h : MonitorFacts (candidateRoot p baseline profile topology baselineRoot) state) :
    mergedMonitors p baseline profile topology baselineRoot = state.monitors.map monitorObject := by
  rw [← h.objects, candidateRoot, value_insert (by simp), if_pos rfl, QJsonValue.toArray, List.map_map]
  exact (List.map_id _).symm

/-- What lies behind a candidate that was built. -/
structure BuiltFrom (p : Platform) (catalog : Catalog) (actionCatalog : ActionCatalog) (baseline : DesiredState)
    (profile : DisplayProfile) (topology : ConnectedDisplayTopology) (candidate : DisplayCandidate)
    (baselineRoot : QJsonObject) : Prop where
  valid : (validateDisplayProfileTopology profile topology).errors = []
  writable : baseline.readOnly = false
  revision : baseline.revision ≠ UInt64.ofNat (2 ^ 64 - 1)
  source : (parseRoot p catalog actionCatalog baselineRoot).value = some baseline
  facts : MonitorFacts baselineRoot baseline
  fits : Fits p 64 (.object (candidateRoot p baseline profile topology baselineRoot))
  bytes : candidate.bytes = canonicalJson p (.object (candidateRoot p baseline profile topology baselineRoot)) ++ [0x0a]
  state : (parseRoot p catalog actionCatalog (candidateRoot p baseline profile topology baselineRoot)).value =
    some candidate.state
  editable : candidate.state.readOnly = false

theorem candidateRoot_revision : (candidateRoot p baseline profile topology baselineRoot).value (qstr "revision") =
    .string (decimal (baseline.revision + 1).toNat) := by
  rw [candidateRoot, value_insert (by simp), if_neg (by decide), value_insert (by simp), if_pos rfl]

theorem builtFrom_of_build (hp : WritesHexDigests p) {bytes profileBytes : QByteArray}
    (hbaseline : (parseDesiredState p bytes catalog actionCatalog).value = some baseline)
    (hprofile : (parseDisplayProfile p profileBytes).value = some profile)
    (h : (buildDisplayCandidate p baseline profile topology catalog actionCatalog).value = some candidate) :
    ∃ baselineRoot, BuiltFrom p catalog actionCatalog baseline profile topology candidate baselineRoot := by
  obtain ⟨hrequest, baselineRoot, hroot, hbytes, hparsed⟩ := buildDisplayCandidate_ok h
  simp only [checkDisplayRequest, Checked.bind_errors, List.append_eq_nil_iff, Checked.rejectIf_errors,
    Bool.or_eq_false_iff, decide_eq_false_iff_not] at hrequest
  obtain ⟨hvalid, ⟨hwritable, -⟩, hrevision⟩ := hrequest
  obtain ⟨hfits, hbase⟩ := baselineRoot_eq hbaseline hroot
  have hfacts := monitorFacts hfits.1 hbase hwritable
  have hcandidate : Fits p 64 (.object (candidateRoot p baseline profile topology baselineRoot)) :=
    candidateRoot_fits hp hfits hfacts (parseDisplayProfile_fits hprofile)
  have hauthorities := (authorities_of_parse hparsed).2
  have hlength := parsed_length hauthorities
  rw [hbytes] at hauthorities hlength
  rw [parse_canonicalJson hcandidate.1 hcandidate.2 hlength] at hauthorities
  have hreadOnly := (rest_of_same candidate_sameBeside candidateRoot_revision hbase hwritable hauthorities).1
  exact ⟨baselineRoot, hvalid, hwritable, hrevision, hbase, hfacts, hcandidate, hbytes, hauthorities, hreadOnly⟩

theorem changesOnlyMonitors_of_build (hp : WritesHexDigests p) {bytes profileBytes : QByteArray}
    (hbaseline : (parseDesiredState p bytes catalog actionCatalog).value = some baseline)
    (hprofile : (parseDisplayProfile p profileBytes).value = some profile)
    (h : (buildDisplayCandidate p baseline profile topology catalog actionCatalog).value = some candidate) :
    ChangesOnlyMonitors (topology.outputs.map (·.selector)) baseline candidate.state ∧
      candidate.bytes = serializeDesiredState p candidate.state := by
  obtain ⟨baselineRoot, hbuilt⟩ := builtFrom_of_build hp hbaseline hprofile h
  obtain ⟨-, hnext, hrest⟩ :=
    rest_of_same candidate_sameBeside candidateRoot_revision hbuilt.source hbuilt.writable hbuilt.state
  have hmonitors := monitorFacts hbuilt.fits.1 hbuilt.state hbuilt.editable
  have hrequested := requested_of_validate hbuilt.valid
  obtain ⟨records, hstate, hrecords⟩ := merged_records hbuilt.facts hrequested (mergedMonitors_eq hmonitors) rfl
  have hadvance : candidate.state.revision.toNat = baseline.revision.toNat + 1 := by
    have hne : baseline.revision.toNat ≠ 2 ^ 64 - 1 := fun heq => hbuilt.revision (UInt64.toNat_inj.mp heq)
    have hlt := baseline.revision.toNat_lt
    rw [hnext, UInt64.toNat_add, UInt64.toNat_one, Nat.mod_eq_of_lt (by omega)]
  refine ⟨changes_monitors hbuilt.facts hmonitors.ids hmonitors.selectors hrequested hstate hrecords hadvance hrest, ?_⟩
  rw [hbuilt.bytes, serializeDesiredState, stateObject_parseRoot hbuilt.fits.1 hbuilt.state]

end Candidate

/-- A candidate changes the monitors of the connected outputs and the revision only, and its bytes are
the durable form of its state. -/
theorem displayCandidate_exact (p : Platform) (hp : WritesHexDigests p) (catalog : Catalog) (actionCatalog : ActionCatalog)
    (baseline : DesiredState) (profile : DisplayProfile) (topology : ConnectedDisplayTopology) (candidate : DisplayCandidate)
    (hbaseline : ∃ bytes, (parseDesiredState p bytes catalog actionCatalog).value = some baseline)
    (hprofile : ∃ bytes, (parseDisplayProfile p bytes).value = some profile)
    (h : (buildDisplayCandidate p baseline profile topology catalog actionCatalog).value = some candidate) :
    ChangesOnlyMonitors (topology.outputs.map (·.selector)) baseline candidate.state ∧
      candidate.bytes = serializeDesiredState p candidate.state ∧
      parseDesiredState p candidate.bytes catalog actionCatalog = ⟨some candidate.state, []⟩ := by
  obtain ⟨bytes, hbaseline⟩ := hbaseline
  obtain ⟨profileBytes, hprofile⟩ := hprofile
  obtain ⟨hchanges, hbytes⟩ := changesOnlyMonitors_of_build hp hbaseline hprofile h
  obtain ⟨-, -, -, -, hparsed⟩ := buildDisplayCandidate_ok h
  refine ⟨hchanges, hbytes, ?_⟩
  have hlength := parsed_length (authorities_of_parse hparsed).2
  rw [hbytes] at hparsed hlength ⊢
  exact (desiredStateCodec_exact p catalog actionCatalog _ _ hparsed hlength).1

section Sample

def displayPlatform : Platform :=
  { plainPlatform with sha256 := fun _ => qstr "2f01dd2623e68fd5a6f236724e0dbdadd28c779e254fc14977aa439c45caeb0d" }

def sampleMonitor (id selector position mirror : String) : MonitorConfiguration where
  id := qstr id
  selector := qstr selector
  mode := qstr "preferred"
  position := qstr position
  mirror := qstr mirror
  colorManagement := qstr "auto"
  sdrEotf := qstr "default"
  sdrMinLuminance := 0

def offlineMonitor : MonitorConfiguration := sampleMonitor "monitor:television" "HDMI-A-1" "auto" ""

/-- A television that is off, and a panel. -/
def sampleBaseline : DesiredState := { sampleState with
  overrides := [], curves := [], environment := []
  monitors := [offlineMonitor, sampleMonitor "monitor:panel" "eDP-1" "auto" ""] }

def sampleTopology : ConnectedDisplayTopology where
  outputs := [{ selector := qstr "eDP-1" }, { selector := qstr "DP-1" }]
  topologyDigest := qstr "2f01dd2623e68fd5a6f236724e0dbdadd28c779e254fc14977aa439c45caeb0d"

/-- The panel is moved, and a new output mirrors it. -/
def connectedMonitors : List MonitorConfiguration :=
  [sampleMonitor "monitor:panel" "eDP-1" "0x0" "", sampleMonitor "monitor:2f01dd2623e68fd5a6f236724e0dbdad" "DP-1" "0x0" "eDP-1"]

def sampleProfile : DisplayProfile where
  topologyDigest := sampleTopology.topologyDigest
  outputs := connectedMonitors.map fun monitor => .object ((monitorObject monitor).remove (qstr "id"))

def sampleNext : DesiredState := { sampleBaseline with revision := 8, monitors := offlineMonitor :: connectedMonitors }

theorem hexDigest_sample : WritesHexDigests displayPlatform := by
  have h : (displayPlatform.sha256 []).all isLowerHex = true := by decide
  exact fun _ u hu => List.all_eq_true.mp h u hu

def profileRoot : QJsonObject :=
  .ofList [(qstr "formatVersion", integer 1), (qstr "topologyDigest", .string sampleProfile.topologyDigest),
    (qstr "outputs", .array sampleProfile.outputs)]

/-- What is evaluated of a sample state. -/
structure SampleChecks (state : DesiredState) : Prop where
  persistable : Components.Persistable displayPlatform.number (.object (stateObject state))
  depth : nesting (.object (stateObject state)) ≤ maximumDesiredStateDepth
  size : (serializeDesiredState displayPlatform state).length ≤ maximumDesiredStateBytes
  root : (parseRoot displayPlatform sampleCatalog sampleActionCatalog (stateObject state)).value = some state

instance (state : DesiredState) : Decidable (SampleChecks state) :=
  decidable_of_iff (Components.Persistable displayPlatform.number (.object (stateObject state)) ∧
    nesting (.object (stateObject state)) ≤ maximumDesiredStateDepth ∧
    (serializeDesiredState displayPlatform state).length ≤ maximumDesiredStateBytes ∧
    (parseRoot displayPlatform sampleCatalog sampleActionCatalog (stateObject state)).value = some state)
    ⟨fun ⟨a, b, c, d⟩ => ⟨a, b, c, d⟩, fun ⟨a, b, c, d⟩ => ⟨a, b, c, d⟩⟩

def profileBytes : QByteArray := canonicalJson displayPlatform (.object profileRoot) ++ [0x0a]

/-- The sample is evaluated at once: its literals are then read once. -/
private theorem sample_evaluated :
    ((validateActiveV1Authorities sampleCatalog sampleActionCatalog).errors = [] ∧
      SampleChecks sampleBaseline ∧ SampleChecks sampleNext ∧ SampleChecks { sampleNext with revision := 7 }) ∧
    (Components.Persistable displayPlatform.number (.object profileRoot) ∧
      (nesting (.object profileRoot) : Int) ≤ maximumProfileDepth ∧ (profileBytes.length : Int) ≤ maximumDisplayProfileBytes ∧
      (Checked.result (parseProfileRoot displayPlatform profileRoot profileBytes)).value = some sampleProfile) ∧
    (checkDisplayRequest sampleBaseline sampleProfile sampleTopology).errors = [] ∧
    candidateRoot displayPlatform sampleBaseline sampleProfile sampleTopology (stateObject sampleBaseline) =
      stateObject sampleNext := by
  decide +kernel

theorem sampleProfile_parsed : (parseDisplayProfile displayPlatform profileBytes).value = some sampleProfile := by
  obtain ⟨hv, hdepth, hsize, hprofile⟩ := sample_evaluated.2.1
  have hparsed : parseStrictObject displayPlatform profileBytes maximumDisplayProfileBytes maximumProfileDepth =
      ⟨some profileRoot, []⟩ := Components.parseStrictJsonObject_compactJson _ hv hdepth hsize
  rw [parseDisplayProfile, hparsed]
  exact hprofile

theorem SampleChecks.parsed {state : DesiredState} (h : SampleChecks state) :
    (parseDesiredState displayPlatform (serializeDesiredState displayPlatform state) sampleCatalog sampleActionCatalog).value =
      some state := by
  rw [parseDesiredState_of_authorities sample_evaluated.1.1, serializeDesiredState,
    parse_canonicalJson h.persistable h.depth h.size, h.root]

theorem sampleBaseline_checks : SampleChecks sampleBaseline := sample_evaluated.1.2.1

theorem sampleNext_checks : SampleChecks sampleNext := sample_evaluated.1.2.2.1

/-- What a client would send for it at revision 7. -/
theorem sampleEdit_checks : SampleChecks { sampleNext with revision := 7 } := sample_evaluated.1.2.2.2

theorem sampleNext_built :
    (buildDisplayCandidate displayPlatform sampleBaseline sampleProfile sampleTopology sampleCatalog sampleActionCatalog).value =
      some ⟨sampleNext, serializeDesiredState displayPlatform sampleNext⟩ := by
  have hread : parseStrictObject displayPlatform (serializeDesiredState displayPlatform sampleBaseline)
      maximumDesiredStateBytes 64 = ⟨some (stateObject sampleBaseline), []⟩ :=
    Components.parseStrictJsonObject_compactJson _ sampleBaseline_checks.persistable
      (Int.ofNat_le.mpr sampleBaseline_checks.depth) (Int.ofNat_le.mpr sampleBaseline_checks.size)
  exact buildDisplayCandidate_of sample_evaluated.2.2.1 (congrArg ValidationResult.value hread) sample_evaluated.2.2.2
    sampleNext_checks.parsed (by decide)

theorem displayCandidate_exact_sample : ChangesOnlyMonitors [qstr "eDP-1", qstr "DP-1"] sampleBaseline sampleNext :=
  (displayCandidate_exact displayPlatform hexDigest_sample sampleCatalog sampleActionCatalog sampleBaseline sampleProfile
    sampleTopology _ ⟨_, sampleBaseline_checks.parsed⟩ ⟨_, sampleProfile_parsed⟩ sampleNext_built).1

end Sample

end HyprShelld.Hyprland
