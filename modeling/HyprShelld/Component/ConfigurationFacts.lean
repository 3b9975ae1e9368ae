import HyprShelld.Component.Configuration

/-! What the configuration reader accepts: a document is the one written for a configuration, each
record of which meets the checks on its own and, where its package is live, those of the catalog. -/
namespace HyprShelld.Configuration
open Components Checked QJsonObject

section Reports
variable {ε α : Type}

@[simp] theorem clean_mk {a b : α} {errors : List ε} : Clean ⟨a, errors⟩ b ↔ errors = [] ∧ a = b := by
  simp only [Clean, Checked.mk.injEq]
  exact and_comm

@[simp] theorem clean_reportAll {errors : List ε} {u : Unit} : Clean (reportAll errors) u ↔ errors = [] := by
  rw [reportAll, clean_mk, and_iff_left rfl]

theorem result_iff {c : Reads α} {a : α} : c.result.value = some a ↔ Clean c a := by
  rw [result_value]
  constructor
  · rintro ⟨herrors, rfl⟩
    exact clean_self herrors
  · intro h
    exact ⟨h.errors, congrArg Checked.value h⟩

theorem clean_addError {path : QString} {code message : String} {u : Unit} : ¬ Clean (addError path code message) u := clean_report

theorem clean_errors {c : Checked ε Unit} : Clean c () ↔ c.errors = [] := by
  constructor
  · exact Clean.errors
  · exact clean_self

theorem clean_unknownFields {object : QJsonObject} {allowed : List QString} {path : QString} {u : Unit} :
    Clean (rejectUnknownConfigurationFields object allowed path) u ↔ ∀ k ∈ object.keys, k ∈ allowed := by
  rw [rejectUnknownConfigurationFields, clean_reportAll, List.map_eq_nil_iff, List.filter_eq_nil_iff]
  simp

theorem map_eq_nil_filter {items : List α} {keep : α → Bool} {error : α → ε} :
    (items.filter (!keep ·)).map error = [] ↔ ∀ a ∈ items, keep a = true := by
  rw [List.map_eq_nil_iff, List.filter_eq_nil_iff]
  simp

end Reports

section Texts
variable {path : QString} {requireSortedUnique : Bool} {maximumCount : Nat} {value : QJsonValue} {texts : List QString}

def Ascending (texts : List QString) : Prop := texts.IsChain (utf16Less · · = true)

theorem clean_parseStringItems {index : Nat} {previous : QString} {items : List QJsonValue} :
    Clean (parseStringItems path requireSortedUnique index previous items) texts ↔
      items = texts.map .string ∧
      (requireSortedUnique = true → Ascending (if 0 < index then previous :: texts else texts)) := by
  induction items generalizing index previous texts with
  | nil =>
    rw [parseStringItems, clean_pure]
    constructor
    · rintro rfl
      exact ⟨rfl, fun _ => by split_ifs <;> simp [Ascending]⟩
    · rintro ⟨htexts, -⟩
      exact (List.map_eq_nil_iff.mp htexts.symm).symm
  | cons item rest ih =>
    rw [parseStringItems]
    cases item with
    | string text =>
      simp only [QJsonValue.isString, QJsonValue.toString, Bool.not_true, Bool.false_eq_true, if_false, clean_bind, clean_rejectIf,
        clean_pure, ih, Nat.zero_lt_succ, if_true]
      constructor
      · rintro ⟨_, hless, later, ⟨rfl, hlater⟩, rfl⟩
        refine ⟨rfl, fun hsorted => ?_⟩
        split_ifs with hindex
        · refine List.isChain_cons_cons.mpr ⟨?_, hlater hsorted⟩
          simpa [hsorted, hindex] using hless
        · exact hlater hsorted
      · rintro ⟨htexts, hchain⟩
        obtain ⟨_, later, rfl, h, rfl⟩ := List.map_eq_cons_iff.mp htexts.symm
        obtain rfl := QJsonValue.string.inj h
        refine ⟨(), ?_, later, ⟨rfl, fun hsorted => ?_⟩, rfl⟩
        · by_cases hsorted : requireSortedUnique = true
          · by_cases hindex : 0 < index
            · have := hchain hsorted
              rw [if_pos hindex] at this
              simp [(List.isChain_cons_cons.mp this).1]
            · simp [hindex]
          · simp [hsorted]
        · have := hchain hsorted
          split_ifs at this with hindex
          · exact (List.isChain_cons_cons.mp this).2
          · exact this
    | _ =>
      refine iff_of_false ?_ ?_
      · simp [QJsonValue.isString, clean_addError]
      · rintro ⟨htexts, -⟩
        obtain ⟨_, _, _, h, -⟩ := List.map_eq_cons_iff.mp htexts.symm
        cases h

theorem parseStringArray_iff : (parseStringArray value path maximumCount requireSortedUnique).value = some texts ↔
    value = stringArray texts ∧ texts.length ≤ maximumCount ∧ (requireSortedUnique = true → Ascending texts) := by
  unfold parseStringArray
  cases value with
  | array items =>
    rw [show (QJsonValue.array items).toArray = items from rfl, show (QJsonValue.array items).isArray = true from rfl, stringArray,
      QJsonValue.array.injEq, Bool.not_true, Bool.false_or]
    by_cases hcount : maximumCount < items.length
    · rw [if_pos (decide_eq_true hcount)]
      refine iff_of_false (by simp) ?_
      rintro ⟨rfl, hlength, -⟩
      rw [List.length_map] at hcount
      omega
    · rw [if_neg (by simpa using hcount), result_iff, clean_parseStringItems]
      refine and_congr_right ?_
      rintro rfl
      rw [List.length_map, not_lt] at hcount
      rw [and_iff_right hcount, if_neg (Nat.lt_irrefl 0)]
  | _ =>
    refine iff_of_false (by simp [QJsonValue.isArray]) ?_
    rintro ⟨h, -⟩
    cases h

theorem parseStringArray_errors (h : (parseStringArray value path maximumCount requireSortedUnique).value = none) :
    (parseStringArray value path maximumCount requireSortedUnique).errors ≠ [] := by
  unfold parseStringArray at h ⊢
  split_ifs at h ⊢
  · simp
  · exact result_errors h

theorem clean_readStringArray : Clean (readStringArray value path maximumCount requireSortedUnique) texts ↔
    value = stringArray texts ∧ texts.length ≤ maximumCount ∧ (requireSortedUnique = true → Ascending texts) := by
  rw [← parseStringArray_iff]
  unfold readStringArray
  dsimp only
  split
  · rename_i values hvalues
    rw [clean_pure, hvalues, Option.some_inj]
  · rename_i hnone
    rw [clean_mk, hnone]
    exact iff_of_false (fun h => parseStringArray_errors hnone h.1) (by simp)

end Texts

/-- Objects have their keys in order, at every depth. -/
abbrev Regular : QJsonValue → Prop := Json.Valid (fun _ => True) fun _ => True

theorem Regular.sorted {inner : QJsonObject} (h : Regular (.object inner)) : inner.Sorted := h.1

theorem Regular.value {inner : QJsonObject} (h : Regular (.object inner)) {key : QString} {v : QJsonValue}
    (hv : inner.value key = v) (hdefined : v ≠ .undefined) : Regular v :=
  (Json.validMembers_iff.mp h.2 _ (mem_of_lookup_eq_some (lookup_of_value hv hdefined))).2

section Entries
variable {α β : Type} {read : QString → QJsonValue → Reads (Option α)} {o : QJsonObject} {m : QMap α}

/-- A member and what it was read to. -/
def ReadTo (read : QString → QJsonValue → Reads (Option α)) (member : QString × QJsonValue) (entry : QString × α) : Prop :=
  entry.1 = member.1 ∧ Clean (read member.1 member.2) (some entry.2)

/-- Every member is read to an entry of the same key. -/
theorem clean_parseEntries (hsome : ∀ k v, ¬ Clean (read k v) none) (ho : o.Sorted) :
    Clean (parseEntries read o) m ↔ List.Forall₂ (ReadTo read) o m := by
  have hfold (done : QMap α) (hdone : ∀ e ∈ done, ∀ f ∈ o, utf16Less e.1 f.1 = true) :
      Clean (o.foldlM (fun entries member => do
        let entry ← read member.1 member.2
        return entry.elim entries fun a => QMap.insert member.1 a entries) done) m ↔
        ∃ later, m = done ++ later ∧ List.Forall₂ (ReadTo read) o later := by
    induction o generalizing done with
    | nil =>
      simp only [List.foldlM_nil, clean_pure, List.forall₂_nil_left_iff, exists_eq_right, List.append_nil]
      exact eq_comm
    | cons member rest ih =>
      have hsorted := List.pairwise_cons.mp ho
      simp only [List.foldlM_cons, clean_bind, clean_pure, List.forall₂_cons_left_iff]
      constructor
      · rintro ⟨_, ⟨entry, hentry, rfl⟩, hrest⟩
        cases entry with
        | none => exact absurd hentry (hsome _ _)
        | some a =>
          rw [Option.elim_some, QMap.insert_append fun e he => hdone e he _ List.mem_cons_self] at hrest
          obtain ⟨later, rfl, hlater⟩ := (ih hsorted.2 _ (by
            intro e he f hf
            rcases List.mem_append.mp he with he | he
            · exact hdone e he f (List.mem_cons_of_mem _ hf)
            · exact List.mem_singleton.mp he ▸ hsorted.1 f hf)).mp hrest
          exact ⟨(member.1, a) :: later, by rw [List.append_assoc]; rfl, _, later, ⟨rfl, hentry⟩, hlater, rfl⟩
      · rintro ⟨_, rfl, entry, later, ⟨hkey, hentry⟩, hlater, rfl⟩
        refine ⟨_, ⟨_, hentry, rfl⟩, ?_⟩
        rw [Option.elim_some, QMap.insert_append fun e he => hdone e he _ List.mem_cons_self]
        refine (ih hsorted.2 _ ?_).mpr ⟨later, ?_, hlater⟩
        · intro e he f hf
          rcases List.mem_append.mp he with he | he
          · exact hdone e he f (List.mem_cons_of_mem _ hf)
          · exact List.mem_singleton.mp he ▸ hsorted.1 f hf
        · rw [List.append_assoc, List.singleton_append, ← hkey]
  rw [parseEntries, hfold [] (by simp)]
  simp

theorem recordsObject_sorted {write : β → QJsonObject} {raw : QMap β} (h : raw.Sorted) :
    recordsObject write raw = raw.map fun entry => (entry.1, .object (write entry.2)) := by
  refine QJsonObject.ofList_self ?_ ?_
  · rw [QJsonObject.Sorted, List.pairwise_map]
    exact h
  · intro m hm
    obtain ⟨e, -, rfl⟩ := List.mem_map.mp hm
    exact QJsonValue.noConfusion

/-- A record and what it is admitted as. -/
def AdmittedAs (admits : QString → β → α → Prop) (raw : QString × β) (entry : QString × α) : Prop :=
  entry.1 = raw.1 ∧ admits raw.1 raw.2 entry.2

/-- An object whose members are records of one kind is the one written for a map of them. -/
theorem clean_parseEntries_records {write : β → QJsonObject} {admits : QString → β → α → Prop}
    (hread : ∀ k v r, Regular v →
      (Clean (read k v) r ↔ ∃ raw a, r = some a ∧ v = .object (write raw) ∧ admits k raw a))
    (ho : Regular (.object o)) (hsome : ∀ k v, ¬ Clean (read k v) none) :
    Clean (parseEntries read o) m ↔
      ∃ raw : QMap β, raw.Sorted ∧ o = recordsObject write raw ∧ List.Forall₂ (AdmittedAs admits) raw m := by
  rw [clean_parseEntries hsome ho.sorted]
  have hinner : ∀ e ∈ o, Regular e.2 := fun e he => (Json.validMembers_iff.mp ho.2 e he).2
  replace ho := ho.sorted
  constructor
  · intro h
    have hraw : ∃ raw : QMap β, o = raw.map (fun entry => (entry.1, .object (write entry.2))) ∧
        List.Forall₂ (AdmittedAs admits) raw m := by
      clear ho
      induction h with
      | nil => exact ⟨[], rfl, .nil⟩
      | @cons e f o m he _ ih =>
        obtain ⟨raw, rfl, hraw⟩ := ih fun d hd => hinner d (List.mem_cons_of_mem _ hd)
        obtain ⟨r, a, ha, hv, hadmits⟩ := (hread _ _ _ (hinner e List.mem_cons_self)).mp he.2
        obtain rfl := Option.some_inj.mp ha
        refine ⟨(e.1, r) :: raw, ?_, .cons ⟨he.1, hadmits⟩ hraw⟩
        rw [List.map_cons, ← hv]
    obtain ⟨raw, rfl, hraw⟩ := hraw
    have hsorted : raw.Sorted := by
      rw [QJsonObject.Sorted, List.pairwise_map] at ho
      exact ho
    exact ⟨raw, hsorted, (recordsObject_sorted hsorted).symm, hraw⟩
  · rintro ⟨raw, hsorted, rfl, hraw⟩
    rw [recordsObject_sorted hsorted] at hinner ⊢
    clear ho hsorted
    induction hraw with
    | nil => exact .nil
    | cons he _ ih =>
      refine .cons ⟨he.1, (hread _ _ _ (hinner _ List.mem_cons_self)).mpr ⟨_, _, rfl, rfl, he.2⟩⟩ ?_
      exact ih fun d hd => hinner d (List.mem_cons_of_mem _ hd)

end Entries

section Members
variable {value : QJsonValue} {path : QString}

theorem eq_string (h : value.isString = true) : value = .string value.toString := by
  cases value <;> first | rfl | cases h

theorem eq_object (h : value.isObject = true) : value = .object value.toObject := by
  cases value <;> first | rfl | cases h

theorem clean_readEnabled {enabled : Bool} : Clean (readEnabled value path) enabled ↔ value = .bool enabled := by
  unfold readEnabled
  cases value with
  | bool b => simp [QJsonValue.isBool, QJsonValue.toBool]
  | _ => simp [QJsonValue.isBool]

theorem clean_readSettings {unicode : UnicodeTables} {settings : QJsonObject} : Clean (readSettings unicode value path) settings ↔
    value = .object settings ∧ Clean (validateDormantSettings unicode settings (path ++ qstr ".settings")) () := by
  unfold readSettings
  cases value with
  | object inner =>
    simp only [QJsonValue.isObject, QJsonValue.toObject, Bool.not_true, Bool.false_eq_true, if_false, clean_bind, clean_pure,
      QJsonValue.object.injEq]
    constructor
    · rintro ⟨_, hclean, rfl⟩
      exact ⟨rfl, hclean⟩
    · rintro ⟨rfl, hclean⟩
      exact ⟨(), hclean, rfl⟩
  | _ => simp [QJsonValue.isObject]

/-- Members that hold in an object and are all it has make up the object. -/
theorem ofList_of_fields {object : QJsonObject} {members : List (QString × QJsonValue)} (ho : object.Sorted)
    (hknown : ∀ k ∈ object.keys, k ∈ members.map (·.1)) (hmembers : ∀ m ∈ members, object.value m.1 = m.2 ∧ m.2 ≠ .undefined) :
    object = QJsonObject.ofList members := (QJsonObject.ofList_eq ho hmembers hknown).symm

end Members

section Components
variable {number : NumberText} {unicode : UnicodeTables} {catalog : ConfigurationCatalog} {key : QString} {value : QJsonValue}

def componentPath (key : QString) : QString := qstr "$.components." ++ key

/-- What a component record must be whatever the catalog says. -/
structure SoundRecord (unicode : UnicodeTables) (key : QString) (raw : DesiredComponent) : Prop where
  id : isValidComponentId key = true
  digest : isFullSha256Digest raw.packageDigest = true
  grants : raw.grantedCapabilities.length ≤ 64 ∧ Ascending raw.grantedCapabilities
  capabilities : ∀ grant ∈ raw.grantedCapabilities, isValidCapabilityId grant = true
  settings : Clean (validateDormantSettings unicode raw.settings (componentPath key ++ qstr ".settings")) ()

/-- What a record must be where its package is live, and what it is accepted as. -/
structure LiveRecord (number : NumberText) (unicode : UnicodeTables) (key : QString) (entry : ConfigurationCatalogEntry)
    (raw desired : DesiredComponent) : Prop where
  runtime : entry.origin = .user → raw.enabled = true → isSupportedUserDeclarative number unicode entry = true
  declarative : isSupportedUserDeclarative number unicode entry = true → raw.grantedCapabilities = []
  builtin : entry.origin = .system → raw.grantedCapabilities = []
  requested : ∀ grant ∈ raw.grantedCapabilities, grant ∈ entry.requestedCapabilities
  settings : (normalizeSettings unicode entry.settingsSchema .componentScope raw.settings true).value = some desired.settings
  label : isSupportedUserDeclarative number unicode entry = true →
    Clean (checkResolvedText number unicode entry desired.settings (componentPath key)) ()
  rest : desired = { raw with settings := desired.settings }

/-- The entry of a component in the catalog, if it carries this digest. -/
def liveDigest (catalog : ConfigurationCatalog) (key digest : QString) : Option ConfigurationCatalogEntry :=
  (catalog.entries.lookup key).filter (digest = ·.packageDigest)

/-- A dormant record stays as it is. -/
def AdmitsComponent (number : NumberText) (unicode : UnicodeTables) (catalog : ConfigurationCatalog) (key : QString)
    (raw desired : DesiredComponent) : Prop :=
  SoundRecord unicode key raw ∧ (liveDigest catalog key raw.packageDigest).elim (desired = raw)
    fun entry => LiveRecord number unicode key entry raw desired

theorem clean_bindComponent {entry : ConfigurationCatalogEntry} {raw desired : DesiredComponent} :
    Clean (bindComponent number unicode entry (componentPath key) raw) desired ↔
      LiveRecord number unicode key entry raw desired := by
  unfold bindComponent
  dsimp only
  simp only [clean_bind, clean_rejectIf, clean_reportAll, map_eq_nil_filter]
  constructor
  · rintro ⟨_, hruntime, _, hdeclarative, _, hbuiltin, _, hrequested, h⟩
    split at h
    · rename_i hnone
      refine absurd (clean_mk.mp h).1 ?_
      intro herrors
      unfold normalizeSettings at hnone herrors
      exact result_errors hnone herrors
    · rename_i settings hsettings
      obtain ⟨_, hlabel, h⟩ := clean_bind.mp h
      obtain rfl := clean_pure.mp h
      refine ⟨?_, ?_, ?_, ?_, hsettings, ?_, rfl⟩
      · intro horigin henabled
        simpa [horigin, henabled] using hruntime
      · intro hsupported
        simpa [hsupported] using hdeclarative
      · intro horigin
        simpa [horigin] using hbuiltin
      · intro grant hgrant
        simpa using hrequested grant hgrant
      · intro hsupported
        rwa [if_pos hsupported] at hlabel
  · intro h
    obtain ⟨hruntime, hdeclarative, hbuiltin, hrequested, hsettings, hlabel, hrest⟩ := h
    refine ⟨(), ?_, (), ?_, (), ?_, (), ?_, ?_⟩
    · by_cases horigin : entry.origin = .user
      · cases henabled : raw.enabled with
        | true => simp [hruntime horigin henabled]
        | false => simp
      · simp [horigin]
    · cases hsupported : isSupportedUserDeclarative number unicode entry with
      | true => simp [hdeclarative hsupported]
      | false => rfl
    · by_cases horigin : entry.origin = .system
      · simp [hbuiltin horigin]
      · simp [horigin]
    · simpa using hrequested
    · rw [hsettings]
      dsimp only
      rw [clean_bind]
      refine ⟨(), ?_, clean_pure.mpr hrest.symm⟩
      split_ifs with hsupported
      · exact hlabel hsupported
      · rfl

theorem componentObject_value (raw : DesiredComponent) (k : QString) : (componentObject raw).value k = (List.lookup k [
    (qstr "packageDigest", QJsonValue.string raw.packageDigest), (qstr "enabled", .bool raw.enabled),
    (qstr "grantedCapabilities", stringArray raw.grantedCapabilities), (qstr "settings", .object raw.settings)]).getD .undefined :=
  QJsonObject.value_ofList (by simp) (by simp [stringArray]) k

/-- An accepted component record is the one written for a record that the catalog admits. -/
theorem clean_parseComponentRecord {r : Option DesiredComponent}
    (hvalue : Regular value) :
    Clean (parseComponentRecord number unicode catalog key value) r ↔ ∃ raw desired, r = some desired ∧
      value = .object (componentObject raw) ∧ AdmitsComponent number unicode catalog key raw desired := by
  have hlive {entry : ConfigurationCatalogEntry} (hentry : catalog.entries.lookup key = some entry) (digest : QString)
      (raw desired : DesiredComponent) :
      Clean (if digest = entry.packageDigest then bindComponent number unicode entry (componentPath key) raw else pure raw) desired ↔
      (liveDigest catalog key digest).elim (desired = raw) fun entry => LiveRecord number unicode key entry raw desired := by
    rw [liveDigest, hentry]
    by_cases hdigest : digest = entry.packageDigest
    · rw [if_pos hdigest, Option.filter_some_pos (by simpa using hdigest), clean_bindComponent]
      rfl
    · rw [if_neg hdigest, Option.filter_some_neg (by simpa using hdigest), clean_pure]
      exact eq_comm
  have hdormant (hentry : catalog.entries.lookup key = none) (digest : QString) (raw desired : DesiredComponent) :
      Clean (pure raw : Reads DesiredComponent) desired ↔
      (liveDigest catalog key digest).elim (desired = raw) fun entry => LiveRecord number unicode key entry raw desired := by
    rw [liveDigest, hentry, clean_pure]
    exact eq_comm
  unfold parseComponentRecord
  dsimp only
  rw [← componentPath]
  by_cases hshape : (!isValidComponentId key || !value.isObject) = true
  · rw [if_pos hshape]
    refine iff_of_false (by simp) ?_
    rintro ⟨raw, desired, -, rfl, hsound, -⟩
    simp [hsound.id, QJsonValue.isObject] at hshape
  · rw [if_neg hshape]
    simp only [Bool.or_eq_true, Bool.not_eq_true', not_or, Bool.not_eq_false] at hshape
    obtain ⟨hkey, hobject⟩ := hshape
    simp only [clean_bind, clean_rejectIf, clean_unknownFields, clean_readEnabled, clean_readStringArray, clean_readSettings,
      clean_reportAll, map_eq_nil_filter, clean_pure]
    constructor
    · rintro ⟨_, hknown, _, hdigest, enabled, henabled, grants, ⟨hgrants, hcount, hsorted⟩, _, hcapabilities, settings,
        ⟨hsettings, hdormantSettings⟩, desired, hadmits, rfl⟩
      simp only [Bool.or_eq_false_iff, Bool.not_eq_false'] at hdigest
      rw [hdigest.1, hdigest.2, Bool.and_true, if_pos rfl] at hadmits
      refine ⟨⟨_, enabled, grants, settings⟩, desired, rfl, ?_, ⟨hkey, hdigest.2, ⟨hcount, hsorted trivial⟩, hcapabilities, hdormantSettings⟩, ?_⟩
      swap
      · cases hentry : catalog.entries.lookup key with
        | none =>
          rw [hentry] at hadmits
          exact (hdormant hentry _ _ _).mp hadmits
        | some entry =>
          rw [hentry] at hadmits
          exact (hlive hentry _ _ _).mp hadmits
      rw [eq_object hobject] at hvalue ⊢
      refine congrArg _ (ofList_of_fields hvalue.sorted hknown ?_)
      simp only [List.forall_mem_cons, List.not_mem_nil, false_implies, implies_true, and_true]
      exact ⟨⟨eq_string hdigest.1, by simp⟩, ⟨henabled, by simp⟩, ⟨hgrants, by simp [stringArray]⟩, ⟨hsettings, by simp⟩⟩
    · rintro ⟨raw, desired, rfl, rfl, hsound, hadmits⟩
      have hdigest : (componentObject raw).value (qstr "packageDigest") = .string raw.packageDigest := by
        simp [componentObject_value]
      have henabled : (componentObject raw).value (qstr "enabled") = .bool raw.enabled := by
        simp [componentObject_value, lookup_cons_ite]
      have hgrants : (componentObject raw).value (qstr "grantedCapabilities") = stringArray raw.grantedCapabilities := by
        simp [componentObject_value, lookup_cons_ite]
      have hsettings : (componentObject raw).value (qstr "settings") = .object raw.settings := by
        simp [componentObject_value, lookup_cons_ite]
      have hknown : ∀ k ∈ (componentObject raw).keys, k ∈ [qstr "packageDigest", qstr "enabled", qstr "grantedCapabilities", qstr "settings"] :=
        fun k hk => (QJsonObject.keys_ofList (by simp) (by simp [stringArray])).subset hk
      simp only [QJsonValue.toObject, hdigest, henabled, hgrants, hsettings, QJsonValue.isString, QJsonValue.toString, hsound.digest,
        Bool.and_true, if_true]
      refine ⟨(), hknown, (), rfl, raw.enabled, rfl, raw.grantedCapabilities, ⟨rfl, hsound.grants.1, fun _ => hsound.grants.2⟩, (),
        hsound.capabilities, raw.settings, ⟨rfl, hsound.settings⟩, desired, ?_, rfl⟩
      cases hentry : catalog.entries.lookup key with
      | none => exact (hdormant hentry _ _ _).mpr hadmits
      | some entry => exact (hlive hentry _ _ _).mpr hadmits

end Components

end HyprShelld.Configuration
