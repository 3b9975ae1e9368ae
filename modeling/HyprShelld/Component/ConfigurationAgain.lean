import HyprShelld.Component.ConfigurationRoot
import HyprShelld.Component.StoredSettings

/-! An accepted configuration written and read again, under the same catalog or one that has fewer of
its packages. -/
namespace HyprShelld.Configuration
open Components Checked QJsonObject
open Json (Valid nesting validItems_iff validMembers_iff nesting_ofList_le)

section Objects
variable {text : QString → Prop} {num : Double → Prop} {members : List (QString × QJsonValue)}

theorem valid_ofList_iff (hn : (members.map (·.1)).Nodup) (hd : ∀ m ∈ members, m.2 ≠ .undefined) :
    Valid text num (.object (QJsonObject.ofList members)) ↔ ∀ m ∈ members, text m.1 ∧ Valid text num m.2 := by
  have hperm := QJsonObject.ofList_perm hn hd
  constructor
  · exact fun h m hm => validMembers_iff.mp h.2 m (hperm.mem_iff.mpr hm)
  · exact Json.valid_ofList

theorem valid_recordsObject {α : Type} {write : α → QJsonObject} {entries : QMap α} (h : entries.Sorted) :
    Valid text num (.object (recordsObject write entries)) ↔ ∀ e ∈ entries, text e.1 ∧ Valid text num (.object (write e.2)) := by
  rw [recordsObject, valid_ofList_iff, List.forall_mem_map]
  · rw [List.map_map]
    exact QMap.nodup_of_sorted h
  · exact List.forall_mem_map.mpr fun e _ => QJsonValue.noConfusion

theorem nesting_recordsObject {α : Type} {write : α → QJsonObject} {entries : QMap α} {n : Nat}
    (h : ∀ e ∈ entries, nesting (.object (write e.2)) ≤ n) : nesting (.object (recordsObject write entries)) ≤ n + 1 :=
  nesting_ofList_le (List.forall_mem_map.mpr h)

theorem nesting_stringArray (values : List QString) : nesting (stringArray values) = 1 := by
  rw [stringArray, nesting]
  induction values with
  | nil => rfl
  | cons value rest ih => simpa [Json.itemsNesting, nesting] using ih

theorem valid_stringArray {values : List QString} : Valid text num (stringArray values) ↔ ∀ s ∈ values, text s := by
  rw [stringArray, Valid, validItems_iff]
  simp [Valid]

end Objects

section Writing
variable {text : QString → Prop} {num : Double → Prop} {desired : DesiredComponent} {placed : ComponentInstance}

theorem valid_componentObject (hkeys : ∀ s : String, text (qstr s)) : Valid text num (.object (componentObject desired)) ↔
    text desired.packageDigest ∧ (∀ grant ∈ desired.grantedCapabilities, text grant) ∧ Valid text num (.object desired.settings) := by
  rw [componentObject, valid_ofList_iff (by simp) (by simp [stringArray])]
  simp [hkeys, valid_stringArray, Valid]

theorem valid_instanceObject (hkeys : ∀ s : String, text (qstr s)) : Valid text num (.object (instanceObject placed)) ↔
    text placed.componentId ∧ Valid text num (.object placed.settings) := by
  rw [instanceObject, valid_ofList_iff (by simp) (by simp)]
  simp [hkeys, Valid]

theorem nesting_componentObject {n : Nat} (h : nesting (.object desired.settings) ≤ n + 1) :
    nesting (.object (componentObject desired)) ≤ n + 2 := by
  refine nesting_ofList_le ?_
  simp only [List.forall_mem_cons, List.not_mem_nil, false_implies, implies_true, and_true, nesting_stringArray]
  exact ⟨by simp [nesting], by simp [nesting], by omega, h⟩

theorem nesting_instanceObject {n : Nat} (h : nesting (.object placed.settings) ≤ n + 1) :
    nesting (.object (instanceObject placed)) ≤ n + 2 := by
  refine nesting_ofList_le ?_
  simp only [List.forall_mem_cons, List.not_mem_nil, false_implies, implies_true, and_true]
  exact ⟨by simp [nesting], by simp [nesting], h⟩

theorem nesting_layoutObject (layout : BarLayout) : nesting (.object (layoutObject layout)) ≤ 3 := by
  have hregions : nesting (.object (regionsObject layout)) ≤ 2 := by
    refine nesting_ofList_le ?_
    simp [nesting_stringArray]
  have houtputs : nesting (.object (outputsObject layout.outputs)) ≤ 2 := by
    by_cases hmode : layout.outputs.mode = qstr "named"
    · rw [outputsObject_named hmode]
      refine nesting_ofList_le ?_
      simp [nesting_stringArray, nesting]
    · rw [outputsObject, if_neg hmode]
      refine nesting_ofList_le ?_
      simp [nesting]
  refine nesting_ofList_le ?_
  simpa using ⟨houtputs, hregions⟩

/-- A configuration is not nested deeper than its settings. -/
theorem nesting_configurationObject {configuration : ComponentConfiguration} {n : Nat} (hn : 3 ≤ n)
    (hcomponents : ∀ e ∈ configuration.components, nesting (.object e.2.settings) ≤ n)
    (hinstances : ∀ e ∈ configuration.instances, nesting (.object e.2.settings) ≤ n) :
    nesting (.object (configurationObject configuration)) ≤ n + 3 := by
  obtain ⟨n, rfl⟩ : ∃ m, n = m + 1 := ⟨n - 1, by omega⟩
  have hlayouts : nesting (.object (layoutsObject configuration.bars)) ≤ 5 := by
    refine nesting_ofList_le ?_
    simp only [List.forall_mem_cons, List.not_mem_nil, false_implies, implies_true, and_true]
    exact ⟨nesting_recordsObject fun e _ => nesting_layoutObject e.2, by simp [nesting, Json.membersNesting]⟩
  refine nesting_ofList_le ?_
  simp only [List.forall_mem_cons, List.not_mem_nil, false_implies, implies_true, and_true]
  refine ⟨by simp [nesting], by simp [nesting], nesting_recordsObject fun e he => nesting_componentObject (hcomponents e he),
    nesting_recordsObject fun e he => nesting_instanceObject (hinstances e he), ?_⟩
  exact hlayouts.trans (by omega)

end Writing

section Keeping
variable {number : NumberText} {unicode : UnicodeTables} {catalog other : ConfigurationCatalog}
  {raw configuration : ComponentConfiguration}

/-- The schema of a catalog entry, which may have none. -/
def decodeSchema (unicode : UnicodeTables) (number : NumberText) (bytes : QByteArray) : Option SettingsSchema :=
  if bytes = [] then some ⟨[]⟩ else (parseSettingsSchema unicode number bytes).value

/-- A catalog whose schemas were read. -/
def SoundCatalog (number : NumberText) (unicode : UnicodeTables) (catalog : ConfigurationCatalog) : Prop :=
  ∀ key entry, catalog.entries.lookup key = some entry → ∃ bytes, decodeSchema unicode number bytes = some entry.settingsSchema

/-- What is live in the other catalog is live in this one, and the same. -/
def Fewer (other catalog : ConfigurationCatalog) : Prop :=
  ∀ key digest entry, liveDigest other key digest = some entry → liveDigest catalog key digest = some entry

/-- No text of the settings has a control character, and every number keeps its value. -/
def ExactSettings (configuration : ComponentConfiguration) : Prop :=
  (∀ e ∈ configuration.components, ∀ m ∈ e.2.settings, Exact m.2) ∧ ∀ e ∈ configuration.instances, ∀ m ∈ e.2.settings, Exact m.2

theorem decodeSchema_sound (hu : unicode.Documented) {bytes : QByteArray} {schema : SettingsSchema}
    (h : decodeSchema unicode number bytes = some schema) : SoundSchema unicode schema ∧ PersistableDefaults number schema := by
  unfold decodeSchema at h
  split_ifs at h
  · obtain rfl := Option.some_inj.mp h
    exact ⟨⟨Nat.zero_le _, .nil⟩, by simp [PersistableDefaults]⟩
  · exact ⟨(parseSettingsSchema_object h).1, parseSettingsSchema_persistable hu h⟩

theorem liveDigest_lookup {key digest : QString} {entry : ConfigurationCatalogEntry} (h : liveDigest catalog key digest = some entry) :
    catalog.entries.lookup key = some entry ∧ digest = entry.packageDigest := by
  obtain ⟨hlookup, hdigest⟩ := Option.filter_eq_some_iff.mp h
  exact ⟨hlookup, of_decide_eq_true hdigest⟩

theorem liveEntry_eq {components : QMap DesiredComponent} {id : QString} :
    liveEntry catalog components id = (components.lookup id).bind fun desired => liveDigest catalog id desired.packageDigest := by
  unfold liveEntry liveDigest
  cases components.lookup id with
  | none => rfl
  | some desired =>
    cases catalog.entries.lookup id with
    | none => rfl
    | some entry =>
      by_cases hdigest : desired.packageDigest = entry.packageDigest
      · simp [hdigest, Option.filter_some]
      · simp [hdigest, Option.filter_some]

/-- What the settings of a record or an instance are accepted as. -/
structure Kept (number : NumberText) (unicode : UnicodeTables) (raw settings : QJsonObject) : Prop where
  persistable : Persistable number (.object raw) → Persistable number (.object settings)
  dormant : Regular (.object settings) → (DormantSettings unicode settings ↔ ∀ m ∈ settings, Exact m.2)

theorem kept_same {settings : QJsonObject} (h : DormantSettings unicode settings) : Kept number unicode settings settings :=
  ⟨id, fun hregular => iff_of_true h fun m hm => (h.values m hm).2.exact (validMembers_iff.mp hregular.2 m hm).2⟩

theorem kept_normalized (hu : unicode.Documented) {schema : SettingsSchema} {scope : SettingScope} {settings n : QJsonObject}
    (hschema : SoundSchema unicode schema ∧ PersistableDefaults number schema) (hdormant : DormantSettings unicode settings)
    (h : (normalizeSettings unicode schema scope settings true).value = some n) : Kept number unicode settings n :=
  ⟨fun hp => normalizeSettings_persistable hu hschema.1 hschema.2 hdormant hp h, normalizeSettings_dormant hu hschema.1 hdormant h⟩

theorem kept_component (hu : unicode.Documented) (hcatalog : SoundCatalog number unicode catalog) {key : QString}
    {rawRecord desired : DesiredComponent} (h : AdmitsComponent number unicode catalog key rawRecord desired) :
    Kept number unicode rawRecord.settings desired.settings ∧ desired = { rawRecord with settings := desired.settings } := by
  obtain ⟨hsound, hlive⟩ := h
  have hdormant := clean_validateDormantSettings.mp hsound.settings
  cases hentry : liveDigest catalog key rawRecord.packageDigest with
  | none =>
    rw [hentry] at hlive
    obtain rfl : desired = rawRecord := hlive
    exact ⟨kept_same hdormant, rfl⟩
  | some entry =>
    rw [hentry] at hlive
    obtain ⟨bytes, hschema⟩ := hcatalog key entry (liveDigest_lookup hentry).1
    exact ⟨kept_normalized hu (decodeSchema_sound hu hschema) hdormant hlive.settings, hlive.rest⟩

theorem kept_instance (hu : unicode.Documented) (hcatalog : SoundCatalog number unicode catalog) {components : QMap DesiredComponent}
    {key : QString} {rawInstance placed : ComponentInstance}
    (h : AdmitsInstance number unicode catalog components key rawInstance placed) :
    Kept number unicode rawInstance.settings placed.settings ∧ placed = { rawInstance with settings := placed.settings } := by
  obtain ⟨hsound, hlive⟩ := h
  have hdormant := clean_validateDormantSettings.mp hsound.settings
  cases hentry : liveEntry catalog components rawInstance.componentId with
  | none =>
    rw [hentry] at hlive
    obtain rfl : placed = rawInstance := hlive
    exact ⟨kept_same hdormant, rfl⟩
  | some entry =>
    rw [hentry] at hlive
    have hsettings : SettledInstance number unicode entry rawInstance.settings placed.settings := hlive.settings
    rw [liveEntry_eq] at hentry
    obtain ⟨_, -, hentry⟩ := Option.bind_eq_some_iff.mp hentry
    obtain ⟨bytes, hschema⟩ := hcatalog _ entry (liveDigest_lookup hentry).1
    refine ⟨?_, hlive.rest⟩
    unfold SettledInstance at hsettings
    split_ifs at hsettings with hsupported
    · rw [show placed.settings = rawInstance.settings from hsettings.2.trans hsettings.1.symm]
      exact kept_same hdormant
    · exact kept_normalized hu (decodeSchema_sound hu hschema) hdormant hsettings

/-- The fields of the records are kept, entry by entry. -/
theorem admitted_fields {α β : Type} {admits : QString → β → α → Prop} {rawEntries : QMap β} {entries : QMap α}
    (h : List.Forall₂ (AdmittedAs admits) rawEntries entries) :
    (∀ key r, (key, r) ∈ rawEntries → ∃ a, (key, a) ∈ entries ∧ admits key r a) ∧
      (∀ key a, (key, a) ∈ entries → ∃ r, (key, r) ∈ rawEntries ∧ admits key r a) ∧ entries.keys = rawEntries.keys := by
  induction h with
  | nil => simp [QMap.keys]
  | @cons e f rest rest' he _ ih =>
    obtain ⟨key, r⟩ := e
    obtain ⟨key', a⟩ := f
    obtain ⟨rfl, hadmits⟩ := he
    obtain ⟨hforward, hback, hkeys⟩ := ih
    refine ⟨fun k s hmem => ?_, fun k b hmem => ?_, congrArg (List.cons key') hkeys⟩
    · rcases List.mem_cons.mp hmem with h | hmem
      · obtain ⟨rfl, rfl⟩ := Prod.mk.inj h
        exact ⟨a, List.mem_cons_self, hadmits⟩
      · obtain ⟨b, hb, hadmits⟩ := hforward k s hmem
        exact ⟨b, List.mem_cons_of_mem _ hb, hadmits⟩
    · rcases List.mem_cons.mp hmem with h | hmem
      · obtain ⟨rfl, rfl⟩ := Prod.mk.inj h
        exact ⟨r, List.mem_cons_self, hadmits⟩
      · obtain ⟨s, hs, hadmits⟩ := hback k b hmem
        exact ⟨s, List.mem_cons_of_mem _ hs, hadmits⟩

theorem sorted_keys {α β : Type} {m : QMap α} {n : QMap β} (h : m.keys = n.keys) (hn : n.Sorted) : m.Sorted := by
  have hkeys {γ : Type} (l : QMap γ) : l.Sorted ↔ l.keys.Pairwise (utf16Less · · = true) := by
    rw [QMap.keys, List.pairwise_map]
    rfl
  rw [hkeys] at hn ⊢
  rwa [h]

theorem length_keys {α β : Type} {m : QMap α} {n : QMap β} (h : m.keys = n.keys) : m.length = n.length := by
  have := congrArg List.length h
  rwa [QMap.keys, QMap.keys, List.length_map, List.length_map] at this

/-- What was accepted can be written and read again as far as its texts and numbers go. -/
theorem configuration_persistable (hu : unicode.Documented) (hcatalog : SoundCatalog number unicode catalog)
    (h : Admits number unicode catalog raw configuration)
    (hraw : Persistable number (.object (configurationObject raw))) :
    Persistable number (.object (configurationObject configuration)) := by
  obtain ⟨hcomponents, -, hadmits⟩ := h.components
  obtain ⟨hinstances, -, hadmits'⟩ := h.instances
  obtain ⟨-, hback, hkeys⟩ := admitted_fields hadmits
  obtain ⟨-, hback', hkeys'⟩ := admitted_fields hadmits'
  have hparts (c : ComponentConfiguration) (hc : c.components.Sorted) (hi : c.instances.Sorted) :
      Persistable number (.object (configurationObject c)) ↔
        (∀ e ∈ c.components, IsText e.1 ∧ Persistable number (.object (componentObject e.2))) ∧
        (∀ e ∈ c.instances, IsText e.1 ∧ Persistable number (.object (instanceObject e.2))) ∧
        PersistableNumber number (.finite 1) ∧ Persistable number (.object (layoutsObject c.bars)) := by
    rw [show configurationObject c = .ofList [(qstr "formatVersion", .double (.finite 1)),
      (qstr "revision", .string (decimal c.revision.toNat)),
      (qstr "components", .object (recordsObject componentObject c.components)),
      (qstr "instances", .object (recordsObject instanceObject c.instances)),
      (qstr "layouts", .object (layoutsObject c.bars))] from rfl, Persistable, valid_ofList_iff (by simp) (by simp)]
    simp only [List.forall_mem_cons, List.not_mem_nil, false_implies, implies_true, and_true, isText_qstr, true_and,
      valid_recordsObject hc, valid_recordsObject hi]
    have hrevision : IsText (decimal c.revision.toNat) := isText_digits (decimal_digits _)
    simp only [Valid, hrevision, true_and]
    tauto
  rw [hparts _ (sorted_keys hkeys hcomponents) (sorted_keys hkeys' hinstances)]
  obtain ⟨hrecords, hplaced, hone, hlayouts⟩ := (hparts raw hcomponents hinstances).mp hraw
  refine ⟨fun e he => ?_, fun e he => ?_, hone, h.bars.1 ▸ hlayouts⟩
  · obtain ⟨r, hr, hadmits⟩ := hback e.1 e.2 he
    obtain ⟨hkept, hrest⟩ := kept_component hu hcatalog hadmits
    obtain ⟨hkey, hrecord⟩ := hrecords _ hr
    rw [Persistable, valid_componentObject isText_qstr] at hrecord
    rw [Persistable, valid_componentObject isText_qstr, hrest]
    exact ⟨hkey, hrecord.1, hrecord.2.1, hkept.persistable hrecord.2.2⟩
  · obtain ⟨r, hr, hadmits⟩ := hback' e.1 e.2 he
    obtain ⟨hkept, hrest⟩ := kept_instance hu hcatalog hadmits
    obtain ⟨hkey, hrecord⟩ := hplaced _ hr
    rw [Persistable, valid_instanceObject isText_qstr] at hrecord
    rw [Persistable, valid_instanceObject isText_qstr, hrest]
    exact ⟨hkey, hrecord.1, hkept.persistable hrecord.2⟩

end Keeping

section Again
variable {number : NumberText} {unicode : UnicodeTables} {catalog other : ConfigurationCatalog}
  {raw configuration : ComponentConfiguration}

theorem liveEntry_fewer (hfewer : Fewer other catalog) {components : QMap DesiredComponent} {id : QString}
    {entry : ConfigurationCatalogEntry} (h : liveEntry other components id = some entry) :
    liveEntry catalog components id = some entry := by
  rw [liveEntry_eq] at h ⊢
  obtain ⟨desired, hdesired, hentry⟩ := Option.bind_eq_some_iff.mp h
  exact Option.bind_eq_some_iff.mpr ⟨desired, hdesired, hfewer _ _ _ hentry⟩

theorem soundPlacements_fewer (hfewer : Fewer other catalog) (h : SoundPlacements number unicode catalog configuration) :
    SoundPlacements number unicode other configuration := by
  refine ⟨h.once, h.all, fun layout hlayout id hid => ?_⟩
  obtain ⟨huuid, hknown, hmain⟩ := h.placeable layout hlayout id hid
  refine ⟨huuid, hknown, fun placed hplaced hneeds => hmain placed hplaced ?_⟩
  simp only [needsMainLayout, Bool.and_eq_true] at hneeds ⊢
  obtain ⟨henabled, hsupported⟩ := hneeds
  refine ⟨henabled, ?_⟩
  cases hentry : liveEntry other configuration.components placed.componentId with
  | none =>
    rw [hentry] at hsupported
    cases hsupported
  | some entry =>
    rw [hentry] at hsupported
    rwa [liveEntry_fewer hfewer hentry]

/-- A record that was accepted is accepted as it is. -/
theorem admitsComponent_again (hu : unicode.Documented) (hk : unicode.KeepsText) (hcatalog : SoundCatalog number unicode catalog)
    (hfewer : Fewer other catalog) {key : QString} {rawRecord desired : DesiredComponent}
    (h : AdmitsComponent number unicode catalog key rawRecord desired) (hdormant : DormantSettings unicode desired.settings) :
    AdmitsComponent number unicode other key desired desired := by
  obtain ⟨hsound, hlive⟩ := h
  have hrest : desired = { rawRecord with settings := desired.settings } :=
    (kept_component hu hcatalog ⟨hsound, hlive⟩).2
  obtain ⟨digest, enabled, grants, settings⟩ := desired
  simp only [DesiredComponent.mk.injEq, and_true] at hrest
  obtain ⟨rfl, rfl, rfl⟩ := hrest
  refine ⟨⟨hsound.id, hsound.digest, hsound.grants, hsound.capabilities, clean_validateDormantSettings.mpr hdormant⟩, ?_⟩
  dsimp only
  cases hentry : liveDigest other key rawRecord.packageDigest with
  | none => rfl
  | some entry =>
    have hentry := hfewer _ _ _ hentry
    rw [hentry] at hlive
    obtain ⟨hruntime, hdeclarative, hbuiltin, hrequested, hsettings, hlabel, -⟩ := hlive
    obtain ⟨bytes, hschema⟩ := hcatalog key entry (liveDigest_lookup hentry).1
    exact ⟨hruntime, hdeclarative, hbuiltin, hrequested, normalizeSettings_kept hu hk (decodeSchema_sound hu hschema).1
      (clean_validateDormantSettings.mp hsound.settings) hsettings, hlabel, rfl⟩

theorem admitsInstance_again (hu : unicode.Documented) (hk : unicode.KeepsText) (hcatalog : SoundCatalog number unicode catalog)
    (hfewer : Fewer other catalog) {components : QMap DesiredComponent} {key : QString} {rawInstance placed : ComponentInstance}
    (h : AdmitsInstance number unicode catalog components key rawInstance placed) (hdormant : DormantSettings unicode placed.settings) :
    AdmitsInstance number unicode other components key placed placed := by
  obtain ⟨hsound, hlive⟩ := h
  have hrest : placed = { rawInstance with settings := placed.settings } :=
    (kept_instance hu hcatalog ⟨hsound, hlive⟩).2
  obtain ⟨id, enabled, settings⟩ := placed
  simp only [ComponentInstance.mk.injEq, and_true] at hrest
  obtain ⟨rfl, rfl⟩ := hrest
  refine ⟨⟨hsound.id, hsound.component, clean_validateDormantSettings.mpr hdormant⟩, ?_⟩
  dsimp only
  cases hentry : liveEntry other components rawInstance.componentId with
  | none => rfl
  | some entry =>
    have hentry := liveEntry_fewer hfewer hentry
    rw [hentry] at hlive
    obtain ⟨hwidget, hsettings, -⟩ := hlive
    rw [liveEntry_eq] at hentry
    obtain ⟨_, -, hentry⟩ := Option.bind_eq_some_iff.mp hentry
    obtain ⟨bytes, hschema⟩ := hcatalog _ entry (liveDigest_lookup hentry).1
    refine ⟨hwidget, ?_, rfl⟩
    unfold SettledInstance at hsettings ⊢
    split_ifs at hsettings ⊢ with hsupported
    · exact ⟨hsettings.2, hsettings.2⟩
    · exact normalizeSettings_kept hu hk (decodeSchema_sound hu hschema).1 (clean_validateDormantSettings.mp hsound.settings) hsettings

theorem admits_again (hu : unicode.Documented) (hk : unicode.KeepsText) (hcatalog : SoundCatalog number unicode catalog)
    (hfewer : Fewer other catalog) (h : Admits number unicode catalog raw configuration)
    (hcomponents : ∀ e ∈ configuration.components, DormantSettings unicode e.2.settings)
    (hinstances : ∀ e ∈ configuration.instances, DormantSettings unicode e.2.settings) :
    Admits number unicode other configuration configuration := by
  obtain ⟨hsorted, hlength, hadmits⟩ := h.components
  obtain ⟨hsorted', hlength', hadmits'⟩ := h.instances
  obtain ⟨-, hback, hkeys⟩ := admitted_fields hadmits
  obtain ⟨-, hback', hkeys'⟩ := admitted_fields hadmits'
  refine ⟨rfl, ⟨sorted_keys hkeys hsorted, length_keys hkeys ▸ hlength, ?_⟩, ⟨sorted_keys hkeys' hsorted', length_keys hkeys' ▸ hlength', ?_⟩,
    ⟨rfl, h.bars.1 ▸ h.bars.2⟩, soundPlacements_fewer hfewer h.placements⟩
  · refine List.forall₂_same.mpr fun e he => ⟨rfl, ?_⟩
    obtain ⟨r, -, hr⟩ := hback e.1 e.2 he
    exact admitsComponent_again hu hk hcatalog hfewer hr (hcomponents e he)
  · refine List.forall₂_same.mpr fun e he => ⟨rfl, ?_⟩
    obtain ⟨r, -, hr⟩ := hback' e.1 e.2 he
    exact admitsInstance_again hu hk hcatalog hfewer hr (hinstances e he)

/-- Records, instances and layouts can be read off what is written for them. -/
theorem componentObject_injective {a b : DesiredComponent} (h : componentObject a = componentObject b) : a = b := by
  have hvalue (k : QString) : (componentObject a).value k = (componentObject b).value k := by rw [h]
  have hdigest := hvalue (qstr "packageDigest")
  have henabled := hvalue (qstr "enabled")
  have hgrants := hvalue (qstr "grantedCapabilities")
  have hsettings := hvalue (qstr "settings")
  simp [componentObject_value, lookup_cons_ite] at hdigest henabled hgrants hsettings
  obtain ⟨digest, enabled, grants, settings⟩ := a
  obtain ⟨digest', enabled', grants', settings'⟩ := b
  have hgrants : grants = grants' :=
    List.map_injective_iff.mpr (fun _ _ => QJsonValue.string.inj) (QJsonValue.array.inj hgrants)
  simp_all

theorem instanceObject_injective {a b : ComponentInstance} (h : instanceObject a = instanceObject b) : a = b := by
  have hvalue (k : QString) : (instanceObject a).value k = (instanceObject b).value k := by rw [h]
  have hid := hvalue (qstr "componentId")
  have henabled := hvalue (qstr "enabled")
  have hsettings := hvalue (qstr "settings")
  simp [instanceObject_value, lookup_cons_ite] at hid henabled hsettings
  obtain ⟨id, enabled, settings⟩ := a
  obtain ⟨id', enabled', settings'⟩ := b
  simp_all

theorem recordsObject_injective {α : Type} {write : α → QJsonObject} (hwrite : ∀ {a b}, write a = write b → a = b)
    {m n : QMap α} (hm : m.Sorted) (hn : n.Sorted) (h : recordsObject write m = recordsObject write n) : m = n := by
  rw [recordsObject_sorted hm, recordsObject_sorted hn] at h
  refine List.map_injective_iff.mpr ?_ h
  intro e f hef
  obtain ⟨hkey, hvalue⟩ := Prod.mk.inj hef
  exact Prod.ext hkey (hwrite (QJsonValue.object.inj hvalue))

theorem configurationObject_records {a b : ComponentConfiguration} (ha : a.components.Sorted) (hb : b.components.Sorted)
    (ha' : a.instances.Sorted) (hb' : b.instances.Sorted) (h : configurationObject a = configurationObject b) :
    a.components = b.components ∧ a.instances = b.instances := by
  have hvalue (k : QString) : (configurationObject a).value k = (configurationObject b).value k := by rw [h]
  have hcomponents := hvalue (qstr "components")
  have hinstances := hvalue (qstr "instances")
  simp only [configurationObject_value, lookup_cons_ite, qstr_inj] at hcomponents hinstances
  simp at hcomponents hinstances
  exact ⟨recordsObject_injective componentObject_injective ha hb hcomponents,
    recordsObject_injective instanceObject_injective ha' hb' hinstances⟩

theorem regular_settings {c : ComponentConfiguration} (hc : c.components.Sorted) (hi : c.instances.Sorted)
    (h : Regular (.object (configurationObject c))) :
    (∀ e ∈ c.components, Regular (.object e.2.settings)) ∧ ∀ e ∈ c.instances, Regular (.object e.2.settings) := by
  have hcomponents : Regular (.object (recordsObject componentObject c.components)) :=
    @Regular.value _ h (qstr "components") _ (by simp [configurationObject_value, lookup_cons_ite]) QJsonValue.noConfusion
  have hinstances : Regular (.object (recordsObject instanceObject c.instances)) :=
    @Regular.value _ h (qstr "instances") _ (by simp [configurationObject_value, lookup_cons_ite]) QJsonValue.noConfusion
  rw [Regular, valid_recordsObject hc] at hcomponents
  rw [Regular, valid_recordsObject hi] at hinstances
  exact ⟨fun e he => ((valid_componentObject fun _ => trivial).mp (hcomponents e he).2).2.2,
    fun e he => ((valid_instanceObject fun _ => trivial).mp (hinstances e he).2).2⟩

/-- What is read back is what was accepted, if the text fits and the settings are exact, and is refused otherwise. -/
theorem configuration_readBack {bytes : QByteArray} (hu : unicode.Documented) (hk : unicode.KeepsText)
    (hcatalog : SoundCatalog number unicode catalog) (hfewer : Fewer other catalog)
    (h : (parseComponentConfiguration number unicode catalog bytes).value = some configuration) :
    (parseComponentConfiguration number unicode other (serializeComponentConfiguration number configuration)).value = some configuration ↔
      ((serializeComponentConfiguration number configuration).length : Int) ≤ maximumComponentConfigurationBytes ∧
        ExactSettings configuration := by
  obtain ⟨root, hroot, hclean⟩ := parseComponentConfiguration_root.mp h
  obtain ⟨raw, rfl, hadmits⟩ := (clean_parseConfigurationRoot (regular_parsed hroot)).mp hclean
  have hpersistable := configuration_persistable hu hcatalog hadmits (parseStrictJsonObject_sound hroot).1
  have hregular : Regular (.object (configurationObject configuration)) := hpersistable.mono (fun _ _ => trivial) fun _ _ => trivial
  obtain ⟨hsorted, -, hrecords⟩ := hadmits.components
  obtain ⟨hsorted', -, hplaced⟩ := hadmits.instances
  obtain ⟨-, hback, hkeys⟩ := admitted_fields hrecords
  obtain ⟨-, hback', hkeys'⟩ := admitted_fields hplaced
  obtain ⟨hregular', hregular''⟩ := regular_settings (sorted_keys hkeys hsorted) (sorted_keys hkeys' hsorted') hregular
  have hcomponents : ∀ e ∈ configuration.components, DormantSettings unicode e.2.settings ↔ ∀ m ∈ e.2.settings, Exact m.2 := by
    intro e he
    obtain ⟨r, -, hr⟩ := hback e.1 e.2 he
    exact (kept_component hu hcatalog hr).1.dormant (hregular' e he)
  have hinstances : ∀ e ∈ configuration.instances, DormantSettings unicode e.2.settings ↔ ∀ m ∈ e.2.settings, Exact m.2 := by
    intro e he
    obtain ⟨r, -, hr⟩ := hback' e.1 e.2 he
    exact (kept_instance hu hcatalog hr).1.dormant (hregular'' e he)
  constructor
  · intro hread
    obtain ⟨root, hroot', hclean'⟩ := parseComponentConfiguration_root.mp hread
    obtain ⟨again, rfl, hagain⟩ := (clean_parseConfigurationRoot (regular_parsed hroot')).mp hclean'
    have hsame : configurationObject again = configurationObject configuration :=
      parseStrictJsonObject_written (Stored.of_persistable hpersistable) hroot'
    obtain ⟨hcomponents', hinstances'⟩ := configurationObject_records hagain.components.1 (sorted_keys hkeys hsorted)
      hagain.instances.1 (sorted_keys hkeys' hsorted') hsame
    have hsize := parseStrictJsonObject_length hroot'
    refine ⟨hsize, fun e he => (hcomponents e he).mp ?_, fun e he => (hinstances e he).mp ?_⟩
    · obtain ⟨_, -, hr⟩ := (admitted_fields hagain.components.2.2).1 e.1 e.2 (hcomponents' ▸ he)
      exact clean_validateDormantSettings.mp hr.1.settings
    · obtain ⟨_, -, hr⟩ := (admitted_fields hagain.instances.2.2).1 e.1 e.2 (hinstances' ▸ he)
      exact clean_validateDormantSettings.mp hr.1.settings
  · rintro ⟨hsize, hexact⟩
    have hdormant := fun e he => (hcomponents e he).mpr (hexact.1 e he)
    have hdormant' := fun e he => (hinstances e he).mpr (hexact.2 e he)
    have hnesting {settings : QJsonObject} (hsettings : DormantSettings unicode settings) : nesting (.object settings) ≤ 10 := by
      have := @Json.membersNesting_le settings 9 fun m hm => by
        have := (hsettings.values m hm).2.nesting_le
        omega
      rw [nesting]
      omega
    have hdepth := nesting_configurationObject (by decide : 3 ≤ 10) (fun e he => hnesting (hdormant e he))
      fun e he => hnesting (hdormant' e he)
    refine parseComponentConfiguration_root.mpr ⟨configurationObject configuration, ?_, ?_⟩
    · have hlimit : (nesting (.object (configurationObject configuration)) : Int) ≤ configurationLimits.maximumDepth :=
        (Int.ofNat_le.mpr hdepth).trans (by decide)
      rw [serializeComponentConfiguration, parseStrictJsonObject_compactJson configurationLimits hpersistable hlimit hsize]
    · exact (clean_parseConfigurationRoot hregular).mpr ⟨configuration, rfl, admits_again hu hk hcatalog hfewer hadmits hdormant hdormant'⟩

end Again

section Sample

def levelObject : QJsonObject := [
  (qstr "schemaVersion", .double (.finite 1)),
  (qstr "settings", .array [.object [
    (qstr "default", .double (.finite 1152921504606846976)),
    (qstr "description", .string (qstr "Level")),
    (qstr "group", .string (qstr "main")),
    (qstr "key", .string (qstr "level")),
    (qstr "label", .string (qstr "Level")),
    (qstr "maximum", .double (.finite 1152921504606846976)),
    (qstr "minimum", .double (.finite 0)),
    (qstr "order", .double (.finite 0)),
    (qstr "scope", .string (qstr "component")),
    (qstr "type", .string (qstr "number"))]])]

def levelSchema : SettingsSchema := ⟨[{
  key := qstr "level"
  scope := .componentScope
  type := .number
  label := qstr "Level"
  description := qstr "Level"
  group := qstr "main"
  defaultValue := .double (.finite 1152921504606846976)
  minimum := some 0
  maximum := some 1152921504606846976 }]⟩

def levelBytes : QByteArray := compactJson exactDecimal (.object levelObject) ++ [0x0a]

def levelDigest : QString := List.replicate 64 (unit 'a')

def levelCatalog : ConfigurationCatalog where
  digest := levelDigest
  entries := [(qstr "org.example.level", {
    packageDigest := levelDigest
    origin := .system
    settingsSchema := levelSchema
    componentApiVersion := qstr "1.0" })]

def levelInstance : QString := qstr "00000000-0000-4000-8000-000000000000"

def levelConfiguration (settings : QJsonObject) : ComponentConfiguration where
  components := [(qstr "org.example.level", ⟨levelDigest, true, [], settings⟩)]
  instances := [(levelInstance, ⟨qstr "org.example.level", true, []⟩)]
  bars := [(qstr "main", { start := [levelInstance] })]

def filledLevel : QJsonObject := [(qstr "level", .double (.finite 1152921504606846976))]

def storedLevel : QJsonObject := [(qstr "level", .double (.finite 7))]

/-- No package is installed. -/
def noPackages : ConfigurationCatalog := ⟨levelDigest, []⟩

theorem level_evaluated :
    (Persistable exactDecimal (.object levelObject) ∧ (nesting (.object levelObject) : Int) ≤ maximumSchemaDepth ∧
      (levelBytes.length : Int) ≤ maximumSchemaBytes) ∧
    (parseSchemaObject qaTables levelObject).result.value = some levelSchema ∧
    (∀ e ∈ [([], filledLevel), (storedLevel, storedLevel)],
      (Persistable exactDecimal (.object (configurationObject (levelConfiguration e.1))) ∧
        (nesting (.object (configurationObject (levelConfiguration e.1))) : Int) ≤ configurationLimits.maximumDepth ∧
        ((serializeComponentConfiguration exactDecimal (levelConfiguration e.1)).length : Int) ≤ configurationLimits.maximumBytes) ∧
      (parseConfigurationRoot exactDecimal qaTables levelCatalog (configurationObject (levelConfiguration e.1))).result.value =
        some (levelConfiguration e.2)) ∧
    (¬ ∀ m ∈ filledLevel, Exact m.2) ∧ ∀ m ∈ storedLevel, Exact m.2 := by
  decide +kernel

theorem levelSchema_parsed : (parseSettingsSchema qaTables exactDecimal levelBytes).value = some levelSchema := by
  obtain ⟨⟨hpersistable, hnesting, hlength⟩, hschema, -⟩ := level_evaluated
  unfold levelBytes at hlength ⊢
  rw [parseSettingsSchema_compactJson hpersistable hnesting hlength]
  exact hschema

theorem levelCatalog_sound : SoundCatalog exactDecimal qaTables levelCatalog := by
  intro key entry hentry
  have hnonempty : levelBytes ≠ [] := by simp [levelBytes]
  refine ⟨levelBytes, ?_⟩
  rw [decodeSchema, if_neg hnonempty, levelSchema_parsed]
  rw [levelCatalog, QMap.lookup_cons_ite] at hentry
  split_ifs at hentry
  · exact congrArg (fun e => some e.settingsSchema) (Option.some_inj.mp hentry)
  · cases hentry

theorem level_accepted {settings filled : QJsonObject} (h : (settings, filled) ∈ [([], filledLevel), (storedLevel, storedLevel)]) :
    (parseComponentConfiguration exactDecimal qaTables levelCatalog
      (serializeComponentConfiguration exactDecimal (levelConfiguration settings))).value = some (levelConfiguration filled) := by
  obtain ⟨⟨hpersistable, hnesting, hlength⟩, hroot⟩ := level_evaluated.2.2.1 _ h
  refine parseComponentConfiguration_root.mpr ⟨configurationObject (levelConfiguration settings), ?_, result_iff.mp hroot⟩
  rw [serializeComponentConfiguration, parseStrictJsonObject_compactJson configurationLimits hpersistable hnesting hlength]

/-- A level that was stored comes back, also where its package is gone; a default that loses its value is filled in, and then
the stored configuration is refused. -/
theorem configuration_readBack_level :
    (parseComponentConfiguration exactDecimal qaTables noPackages
        (serializeComponentConfiguration exactDecimal (levelConfiguration storedLevel))).value = some (levelConfiguration storedLevel) ∧
      (parseComponentConfiguration exactDecimal qaTables levelCatalog
        (serializeComponentConfiguration exactDecimal (levelConfiguration filledLevel))).value ≠ some (levelConfiguration filledLevel) := by
  obtain ⟨-, -, hevaluated, hinexact, hexact⟩ := level_evaluated
  have hfewer : Fewer noPackages levelCatalog := fun key digest entry h => by cases h
  constructor
  · refine (configuration_readBack qaTables_documented qaTables_keepsText levelCatalog_sound hfewer
      (level_accepted (List.mem_cons_of_mem _ List.mem_cons_self))).mpr ⟨?_, ?_⟩
    · exact (hevaluated (storedLevel, storedLevel) (List.mem_cons_of_mem _ List.mem_cons_self)).1.2.2
    · refine ⟨fun e he => ?_, fun e he => ?_⟩
      · obtain rfl := List.mem_singleton.mp he
        exact hexact
      · obtain rfl := List.mem_singleton.mp he
        exact fun m hm => absurd hm List.not_mem_nil
  · intro hread
    have h := (configuration_readBack qaTables_documented qaTables_keepsText levelCatalog_sound (fun _ _ _ => id)
      (level_accepted List.mem_cons_self)).mp hread
    exact hinexact (h.2.1 _ List.mem_cons_self)

end Sample

end HyprShelld.Configuration
