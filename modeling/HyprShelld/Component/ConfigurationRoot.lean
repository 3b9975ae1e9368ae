import HyprShelld.Component.ConfigurationFacts

/-! The whole document: an accepted one is written for a configuration whose instances and layouts
are sound, and in which every instance is placed once. -/
namespace HyprShelld.Configuration
open Components Checked QJsonObject

section Instances
variable {number : NumberText} {unicode : UnicodeTables} {catalog : ConfigurationCatalog} {components : QMap DesiredComponent}
  {key : QString} {value : QJsonValue}

def instancePath (key : QString) : QString := qstr "$.instances." ++ key

structure SoundInstance (unicode : UnicodeTables) (components : QMap DesiredComponent) (key : QString) (raw : ComponentInstance) : Prop where
  id : isLowercaseUuidV4 key = true
  component : components.contains raw.componentId = true
  settings : Clean (validateDormantSettings unicode raw.settings (instancePath key ++ qstr ".settings")) ()

/-- The instance settings as the catalog has them; declarative widgets have none. -/
def SettledInstance (number : NumberText) (unicode : UnicodeTables) (entry : ConfigurationCatalogEntry) (raw settled : QJsonObject) : Prop :=
  if isSupportedUserDeclarative number unicode entry then raw = [] ∧ settled = []
  else (normalizeSettings unicode entry.settingsSchema .instanceScope raw true).value = some settled

structure LiveInstance (number : NumberText) (unicode : UnicodeTables) (entry : ConfigurationCatalogEntry)
    (raw placed : ComponentInstance) : Prop where
  widget : entry.type = .barWidget
  settings : SettledInstance number unicode entry raw.settings placed.settings
  rest : placed = { raw with settings := placed.settings }

def AdmitsInstance (number : NumberText) (unicode : UnicodeTables) (catalog : ConfigurationCatalog) (components : QMap DesiredComponent)
    (key : QString) (raw placed : ComponentInstance) : Prop :=
  SoundInstance unicode components key raw ∧ (liveEntry catalog components raw.componentId).elim (placed = raw)
    fun entry => LiveInstance number unicode entry raw placed

theorem clean_bindInstance {entry : ConfigurationCatalogEntry} {raw placed : ComponentInstance} :
    Clean (bindInstance number unicode entry (instancePath key) raw) placed ↔ LiveInstance number unicode entry raw placed := by
  unfold bindInstance
  simp only [clean_bind, clean_rejectIf, decide_eq_false_iff_not, not_not]
  constructor
  · rintro ⟨_, hwidget, h⟩
    split_ifs at h with hsupported
    · simp only [clean_bind, clean_rejectIf, decide_eq_false_iff_not, not_not, clean_pure] at h
      obtain ⟨_, hnone, rfl⟩ := h
      exact ⟨hwidget, by rw [SettledInstance, if_pos hsupported]; exact ⟨hnone, hnone⟩, rfl⟩
    · split at h
      · rename_i hnone
        unfold normalizeSettings at hnone h
        exact absurd (clean_mk.mp h).1 (result_errors hnone)
      · rename_i settings hsettings
        obtain rfl := clean_pure.mp h
        exact ⟨hwidget, by rw [SettledInstance, if_neg hsupported]; exact hsettings, rfl⟩
  · intro h
    obtain ⟨hwidget, hsettings, hrest⟩ := h
    refine ⟨(), hwidget, ?_⟩
    unfold SettledInstance at hsettings
    split_ifs at hsettings ⊢ with hsupported
    · simp only [clean_bind, clean_rejectIf, decide_eq_false_iff_not, not_not, clean_pure]
      refine ⟨(), hsettings.1, ?_⟩
      rw [hrest, hsettings.2, ← hsettings.1]
    · rw [hsettings]
      exact clean_pure.mpr hrest.symm

theorem instanceObject_value (raw : ComponentInstance) (k : QString) : (instanceObject raw).value k = (List.lookup k [
    (qstr "componentId", QJsonValue.string raw.componentId), (qstr "enabled", .bool raw.enabled),
    (qstr "settings", .object raw.settings)]).getD .undefined :=
  QJsonObject.value_ofList (by simp) (by simp) k

theorem clean_parseInstanceRecord {r : Option ComponentInstance} (hvalue : Regular value) :
    Clean (parseInstanceRecord number unicode catalog components key value) r ↔ ∃ raw placed, r = some placed ∧
      value = .object (instanceObject raw) ∧ AdmitsInstance number unicode catalog components key raw placed := by
  unfold parseInstanceRecord
  dsimp only
  rw [← instancePath]
  by_cases hshape : (!isLowercaseUuidV4 key || !value.isObject) = true
  · rw [if_pos hshape]
    refine iff_of_false (by simp) ?_
    rintro ⟨raw, placed, -, rfl, hsound, -⟩
    simp [hsound.id, QJsonValue.isObject] at hshape
  · rw [if_neg hshape]
    simp only [Bool.or_eq_true, Bool.not_eq_true', not_or, Bool.not_eq_false] at hshape
    obtain ⟨hkey, hobject⟩ := hshape
    simp only [clean_bind, clean_rejectIf, clean_unknownFields, clean_readEnabled, clean_readSettings, clean_pure]
    constructor
    · rintro ⟨_, hknown, _, hid, enabled, henabled, settings, ⟨hsettings, hdormant⟩, placed, hadmits, rfl⟩
      simp only [Bool.or_eq_false_iff, Bool.not_eq_false'] at hid
      rw [hid.1, hid.2, Bool.and_true, if_pos rfl] at hadmits
      refine ⟨⟨_, enabled, settings⟩, placed, rfl, ?_, ⟨hkey, hid.2, hdormant⟩, ?_⟩
      swap
      · change (liveEntry catalog components (value.toObject.value (qstr "componentId")).toString).elim _ _
        cases hentry : liveEntry catalog components (value.toObject.value (qstr "componentId")).toString with
        | none =>
          rw [hentry] at hadmits
          exact (clean_pure.mp hadmits).symm
        | some entry =>
          rw [hentry] at hadmits
          exact clean_bindInstance.mp hadmits
      rw [eq_object hobject] at hvalue ⊢
      refine congrArg _ (ofList_of_fields hvalue.sorted hknown ?_)
      simp only [List.forall_mem_cons, List.not_mem_nil, false_implies, implies_true, and_true]
      exact ⟨⟨eq_string hid.1, by simp⟩, ⟨henabled, by simp⟩, ⟨hsettings, by simp⟩⟩
    · rintro ⟨raw, placed, rfl, rfl, hsound, hadmits⟩
      have hid : (instanceObject raw).value (qstr "componentId") = .string raw.componentId := by
        simp [instanceObject_value]
      have henabled : (instanceObject raw).value (qstr "enabled") = .bool raw.enabled := by
        simp [instanceObject_value, lookup_cons_ite]
      have hsettings : (instanceObject raw).value (qstr "settings") = .object raw.settings := by
        simp [instanceObject_value, lookup_cons_ite]
      have hknown : ∀ k ∈ (instanceObject raw).keys, k ∈ [qstr "componentId", qstr "enabled", qstr "settings"] :=
        fun k hk => (QJsonObject.keys_ofList (by simp) (by simp)).subset hk
      simp only [QJsonValue.toObject, hid, henabled, hsettings, QJsonValue.isString, QJsonValue.toString, hsound.component,
        Bool.and_true, if_true]
      refine ⟨(), hknown, (), rfl, raw.enabled, rfl, raw.settings, ⟨rfl, hsound.settings⟩, placed, ?_, rfl⟩
      have hlived := hadmits
      cases hentry : liveEntry catalog components raw.componentId with
      | none =>
        rw [hentry] at hlived
        exact clean_pure.mpr hlived.symm
      | some entry =>
        rw [hentry] at hlived
        exact clean_bindInstance.mpr hlived

end Instances

section Layouts
variable {unicode : UnicodeTables} {key path : QString} {value : QJsonValue}

/-- All outputs, or some by name. -/
def SoundOutputs (unicode : UnicodeTables) (outputs : OutputSelector) : Prop :=
  outputs.mode = qstr "all" ∧ outputs.names = [] ∨
    outputs.mode = qstr "named" ∧ outputs.names ≠ [] ∧ outputs.names.length ≤ 32 ∧ Ascending outputs.names ∧
      ∀ name ∈ outputs.names, isOutputName unicode name = true

structure SoundLayout (unicode : UnicodeTables) (key : QString) (layout : BarLayout) : Prop where
  id : isLayoutId key = true
  outputs : SoundOutputs unicode layout.outputs
  start : layout.start.length ≤ maximumRegionInstances
  center : layout.center.length ≤ maximumRegionInstances
  «end» : layout.end.length ≤ maximumRegionInstances

theorem outputsObject_all {outputs : OutputSelector} (h : outputs.mode = qstr "all") :
    outputsObject outputs = QJsonObject.ofList [(qstr "mode", .string outputs.mode)] := by
  rw [outputsObject, if_neg (by rw [h]; simp)]

theorem outputsObject_named {outputs : OutputSelector} (h : outputs.mode = qstr "named") : outputsObject outputs =
    QJsonObject.ofList [(qstr "mode", .string outputs.mode), (qstr "names", stringArray outputs.names)] := by
  rw [outputsObject, if_pos h]
  rfl

theorem clean_parseOutputs {outputs : OutputSelector} (hvalue : Regular value) :
    Clean (parseOutputs unicode value path) outputs ↔ value = .object (outputsObject outputs) ∧ SoundOutputs unicode outputs := by
  unfold parseOutputs
  cases value with
  | object object =>
    rw [if_neg (by simp [QJsonValue.isObject])]
    simp only [QJsonValue.toObject, clean_bind, clean_rejectIf, Bool.not_eq_false']
    constructor
    · rintro ⟨_, hknown, h⟩
      simp only [hknown, if_true] at h
      rw [Bool.and_eq_true, Bool.or_eq_true] at hknown
      replace hknown := hknown.imp_right (Or.imp of_decide_eq_true of_decide_eq_true)
      have hmode := eq_string hknown.1
      split_ifs at h with hall
      · simp only [clean_bind, clean_unknownFields, clean_pure] at h
        obtain ⟨_, hkeys, rfl⟩ := h
        refine ⟨congrArg _ ?_, .inl ⟨hall, rfl⟩⟩
        rw [outputsObject_all hall]
        refine ofList_of_fields hvalue.sorted hkeys ?_
        simpa using hmode
      · have hnamed := hknown.2.resolve_left hall
        simp only [clean_bind, clean_unknownFields] at h
        obtain ⟨_, hkeys, h⟩ := h
        split at h
        · rename_i hnone
          exact absurd (clean_mk.mp h).1 (parseStringArray_errors hnone)
        · exact absurd (clean_mk.mp h).1 (by simp)
        · rename_i names hne hnames
          obtain ⟨hvalues, hcount, hsorted⟩ := parseStringArray_iff.mp hnames
          simp only [clean_bind, clean_reportAll, map_eq_nil_filter, clean_pure] at h
          obtain ⟨_, hvalid, rfl⟩ := h
          refine ⟨congrArg _ ?_, .inr ⟨hnamed, hne, hcount, hsorted rfl, hvalid⟩⟩
          rw [outputsObject_named hnamed]
          refine ofList_of_fields hvalue.sorted hkeys ?_
          simp only [List.forall_mem_cons, List.not_mem_nil, false_implies, implies_true, and_true]
          exact ⟨⟨hmode, by simp⟩, ⟨hvalues, by simp [stringArray]⟩⟩
    · rintro ⟨hobject, hsound⟩
      obtain rfl := QJsonValue.object.inj hobject
      obtain ⟨mode, names⟩ := outputs
      rcases hsound with ⟨rfl, rfl⟩ | ⟨rfl, hne, hcount, hsorted, hvalid⟩
      · have hmode : (outputsObject ⟨qstr "all", []⟩).value (qstr "mode") = .string (qstr "all") := by
          rw [outputsObject_all rfl, QJsonObject.value_ofList (by simp) (by simp)]
          simp
        have hkeys : ∀ k ∈ (outputsObject ⟨qstr "all", []⟩).keys, k ∈ [qstr "mode"] := by
          rw [outputsObject_all rfl]
          exact fun k hk => (QJsonObject.keys_ofList (by simp) (by simp)).subset hk
        simp only [hmode, QJsonValue.isString, QJsonValue.toString, decide_true, Bool.true_or, Bool.and_self, if_true, clean_bind,
          clean_unknownFields, clean_pure]
        exact ⟨(), trivial, (), hkeys, trivial⟩
      · have hmode : (outputsObject ⟨qstr "named", names⟩).value (qstr "mode") = .string (qstr "named") := by
          rw [outputsObject_named rfl, QJsonObject.value_ofList (by simp) (by simp [stringArray])]
          simp
        have hnames : (outputsObject ⟨qstr "named", names⟩).value (qstr "names") = stringArray names := by
          rw [outputsObject_named rfl, QJsonObject.value_ofList (by simp) (by simp [stringArray])]
          simp [lookup_cons_ite]
        have hkeys : ∀ k ∈ (outputsObject ⟨qstr "named", names⟩).keys, k ∈ [qstr "mode", qstr "names"] := by
          rw [outputsObject_named rfl]
          exact fun k hk => (QJsonObject.keys_ofList (by simp) (by simp [stringArray])).subset hk
        have hread : (parseStringArray (stringArray names) (path ++ qstr ".outputs.names") 32 true).value = some names :=
          parseStringArray_iff.mpr ⟨rfl, hcount, fun _ => hsorted⟩
        simp only [hmode, hnames, QJsonValue.isString, QJsonValue.toString, decide_true, Bool.or_true, Bool.and_self, if_true, hread]
        refine ⟨(), trivial, ?_⟩
        rw [if_neg (by simp), clean_bind]
        refine ⟨(), clean_unknownFields.mpr hkeys, ?_⟩
        cases names with
        | nil => exact absurd rfl hne
        | cons name rest =>
          rw [clean_bind]
          exact ⟨(), by rw [clean_reportAll, map_eq_nil_filter]; exact hvalid, rfl⟩
  | _ => simp [QJsonValue.isObject]

theorem regionsObject_value (layout : BarLayout) (k : QString) : (regionsObject layout).value k = (List.lookup k [
    (qstr "start", stringArray layout.start), (qstr "center", stringArray layout.center),
    (qstr "end", stringArray layout.end)]).getD .undefined :=
  QJsonObject.value_ofList (by simp) (by simp [stringArray]) k

theorem layoutObject_value (layout : BarLayout) (k : QString) : (layoutObject layout).value k = (List.lookup k [
    (qstr "outputs", QJsonValue.object (outputsObject layout.outputs)),
    (qstr "regions", .object (regionsObject layout))]).getD .undefined :=
  QJsonObject.value_ofList (by simp) (by simp) k

theorem clean_parseBarLayout {r : Option BarLayout} (hvalue : Regular value) :
    Clean (parseBarLayout unicode key value) r ↔ ∃ layout, r = some layout ∧
      value = .object (layoutObject layout) ∧ SoundLayout unicode key layout := by
  unfold parseBarLayout
  dsimp only
  by_cases hshape : (!isLayoutId key || !value.isObject) = true
  · rw [if_pos hshape]
    refine iff_of_false (by simp) ?_
    rintro ⟨layout, -, rfl, hsound⟩
    simp [hsound.id, QJsonValue.isObject] at hshape
  · rw [if_neg hshape]
    simp only [Bool.or_eq_true, Bool.not_eq_true', not_or, Bool.not_eq_false] at hshape
    obtain ⟨hkey, hobject⟩ := hshape
    simp only [clean_bind, clean_unknownFields]
    constructor
    · rintro ⟨_, hknown, outputs, houtputs, h⟩
      rw [eq_object hobject] at hvalue
      split_ifs at h with hregions
      · exact absurd (clean_mk.mp h).1 (by simp)
      · have hregions := eq_object (by simpa using hregions)
        have hinner := hvalue.value hregions QJsonValue.noConfusion
        simp only [clean_bind, clean_unknownFields, clean_readStringArray, clean_pure] at h
        obtain ⟨_, hnames, start, ⟨hstart, hstartCount, -⟩, center, ⟨hcenter, hcenterCount, -⟩, «end», ⟨hend, hendCount, -⟩, rfl⟩ := h
        have hselector : value.toObject.value (qstr "outputs") = .object (outputsObject outputs) ∧ SoundOutputs unicode outputs := by
          by_cases hundefined : value.toObject.value (qstr "outputs") = .undefined
          · rw [hundefined] at houtputs
            simp [parseOutputs, QJsonValue.isObject] at houtputs
          · exact (clean_parseOutputs (hvalue.value rfl hundefined)).mp houtputs
        refine ⟨_, rfl, ?_, ⟨hkey, hselector.2, hstartCount, hcenterCount, hendCount⟩⟩
        rw [eq_object hobject]
        refine congrArg _ (ofList_of_fields hvalue.sorted hknown ?_)
        simp only [List.forall_mem_cons, List.not_mem_nil, false_implies, implies_true, and_true]
        refine ⟨⟨hselector.1, by simp⟩, ⟨?_, by simp⟩⟩
        rw [hregions]
        refine congrArg _ (ofList_of_fields hinner.sorted hnames ?_)
        simp only [List.forall_mem_cons, List.not_mem_nil, false_implies, implies_true, and_true]
        exact ⟨⟨hstart, by simp [stringArray]⟩, ⟨hcenter, by simp [stringArray]⟩, ⟨hend, by simp [stringArray]⟩⟩
    · rintro ⟨layout, rfl, rfl, hsound⟩
      have houtputs : (layoutObject layout).value (qstr "outputs") = .object (outputsObject layout.outputs) := by
        simp [layoutObject_value]
      have hregions : (layoutObject layout).value (qstr "regions") = .object (regionsObject layout) := by
        simp [layoutObject_value, lookup_cons_ite]
      have hknown : ∀ k ∈ (layoutObject layout).keys, k ∈ [qstr "outputs", qstr "regions"] :=
        fun k hk => (QJsonObject.keys_ofList (by simp) (by simp)).subset hk
      have hnames : ∀ k ∈ (regionsObject layout).keys, k ∈ [qstr "start", qstr "center", qstr "end"] :=
        fun k hk => (QJsonObject.keys_ofList (by simp) (by simp [stringArray])).subset hk
      have hinner := hvalue.value houtputs QJsonValue.noConfusion
      simp only [QJsonValue.toObject, houtputs, hregions]
      refine ⟨(), hknown, layout.outputs, (clean_parseOutputs hinner).mpr ⟨rfl, hsound.outputs⟩, ?_⟩
      rw [if_neg (by simp [QJsonValue.isObject])]
      simp only [clean_bind, clean_unknownFields, clean_readStringArray, clean_pure]
      refine ⟨(), hnames, layout.start, ⟨?_, hsound.start, by simp⟩, layout.center, ⟨?_, hsound.center, by simp⟩, layout.end,
        ⟨?_, hsound.end, by simp⟩, rfl⟩ <;> simp [regionsObject_value, lookup_cons_ite]

end Layouts

section Placements
variable {number : NumberText} {unicode : UnicodeTables} {catalog : ConfigurationCatalog} {configuration : ComponentConfiguration}

def layoutInstances (layout : BarLayout) : List QString := layout.start ++ layout.center ++ layout.end

def placements (configuration : ComponentConfiguration) : List QString := configuration.bars.flatMap fun layout => layoutInstances layout.2

structure Placeable (number : NumberText) (unicode : UnicodeTables) (catalog : ConfigurationCatalog)
    (configuration : ComponentConfiguration) (layout instanceId : QString) : Prop where
  id : isLowercaseUuidV4 instanceId = true
  known : configuration.instances.contains instanceId = true
  main : ∀ placed, configuration.instances.lookup instanceId = some placed →
    needsMainLayout number unicode catalog configuration placed = true → layout = qstr "main"

/-- Every instance is placed once, and what needs the main layout is placed there. -/
structure SoundPlacements (number : NumberText) (unicode : UnicodeTables) (catalog : ConfigurationCatalog)
    (configuration : ComponentConfiguration) : Prop where
  once : (placements configuration).Nodup
  all : ∀ id ∈ configuration.instances.keys, id ∈ placements configuration
  placeable : ∀ layout ∈ configuration.bars, ∀ id ∈ layoutInstances layout.2,
    Placeable number unicode catalog configuration layout.1 id

/-- New placements behind those before them. -/
structure Placing (number : NumberText) (unicode : UnicodeTables) (catalog : ConfigurationCatalog)
    (configuration : ComponentConfiguration) (layout : QString) (placed ids out : List QString) : Prop where
  out : out = ids.reverse ++ placed
  once : ids.Nodup
  fresh : ∀ id ∈ ids, id ∉ placed
  placeable : ∀ id ∈ ids, Placeable number unicode catalog configuration layout id

theorem clean_validateRegion {layout region : QString} {index : Nat} {placed ids out : List QString} :
    Clean (validateRegion number unicode catalog configuration layout region index placed ids) out ↔
      Placing number unicode catalog configuration layout placed ids out := by
  induction ids generalizing index placed with
  | nil =>
    rw [validateRegion, clean_pure]
    constructor
    · rintro rfl
      exact ⟨rfl, .nil, by simp, by simp⟩
    · rintro ⟨rfl, -⟩
      rfl
  | cons id rest ih =>
    obtain ⟨place, hplace, hone⟩ : ∃ place : Reads Unit,
        validateRegion number unicode catalog configuration layout region index placed (id :: rest) =
          (do place; validateRegion number unicode catalog configuration layout region (index + 1) (id :: placed) rest) ∧
        (Clean place () ↔ id ∉ placed ∧ Placeable number unicode catalog configuration layout id) := by
      refine ⟨_, validateRegion.eq_2 .., ?_⟩
      cases hfound : configuration.instances.lookup id with
      | none =>
        refine iff_of_false clean_addError ?_
        rintro ⟨-, h⟩
        simpa [QMap.contains, hfound] using h.known
      | some found =>
        dsimp only
        split_ifs with hid hplaced
        · refine iff_of_false clean_addError ?_
          rintro ⟨-, h⟩
          simp [h.id] at hid
        · refine iff_of_false clean_addError ?_
          rintro ⟨h, -⟩
          exact h (by simpa using hplaced)
        · rw [clean_rejectIf]
          constructor
          · intro h
            refine ⟨by simpa using hplaced, by simpa using hid, by simp [QMap.contains, hfound], ?_⟩
            intro placed hlookup hmain
            obtain rfl := Option.some_inj.mp (hfound.symm.trans hlookup)
            simpa [hmain] using h
          · rintro ⟨-, h⟩
            by_cases hmain : needsMainLayout number unicode catalog configuration found = true
            · simp [h.main found hfound hmain]
            · simp [hmain]
    rw [hplace, clean_bind]
    simp only [ih]
    constructor
    · rintro ⟨_, hclean, ⟨rfl, honce, hfresh, hplaceable⟩⟩
      obtain ⟨hnew, hid⟩ := hone.mp hclean
      refine ⟨by simp, List.nodup_cons.mpr ⟨fun h => hfresh _ h List.mem_cons_self, honce⟩, ?_, ?_⟩
      · exact List.forall_mem_cons.mpr ⟨hnew, fun other h hmem => hfresh _ h (List.mem_cons_of_mem _ hmem)⟩
      · exact List.forall_mem_cons.mpr ⟨hid, hplaceable⟩
    · rintro ⟨rfl, honce, hfresh, hplaceable⟩
      obtain ⟨hnew, hfresh⟩ := List.forall_mem_cons.mp hfresh
      obtain ⟨hid, hplaceable⟩ := List.forall_mem_cons.mp hplaceable
      obtain ⟨hother, honce⟩ := List.nodup_cons.mp honce
      refine ⟨(), hone.mpr ⟨hnew, hid⟩, by simp, honce, fun other h hmem => ?_, hplaceable⟩
      rcases List.mem_cons.mp hmem with rfl | hmem
      · exact hother h
      · exact hfresh _ h hmem

/-- Two lists of placements after each other are one. -/
theorem placing_append {layout : QString} {placed first second out : List QString} :
    (∃ between, Placing number unicode catalog configuration layout placed first between ∧
      Placing number unicode catalog configuration layout between second out) ↔
      Placing number unicode catalog configuration layout placed (first ++ second) out := by
  constructor
  · rintro ⟨_, ⟨rfl, honce, hfresh, hplaceable⟩, ⟨rfl, honce', hfresh', hplaceable'⟩⟩
    have hapart : ∀ id ∈ second, id ∉ first ∧ id ∉ placed := by
      intro id hid
      simpa using hfresh' id hid
    refine ⟨by simp, ?_, ?_, List.forall_mem_append.mpr ⟨hplaceable, hplaceable'⟩⟩
    · exact List.nodup_append.mpr ⟨honce, honce', fun a ha b hb hab => (hapart b hb).1 (hab ▸ ha)⟩
    · exact List.forall_mem_append.mpr ⟨hfresh, fun id hid => (hapart id hid).2⟩
  · rintro ⟨rfl, honce, hfresh, hplaceable⟩
    obtain ⟨hfirst, hsecond, hapart⟩ := List.nodup_append.mp honce
    obtain ⟨hfresh, hfresh'⟩ := List.forall_mem_append.mp hfresh
    obtain ⟨hplaceable, hplaceable'⟩ := List.forall_mem_append.mp hplaceable
    refine ⟨_, ⟨rfl, hfirst, hfresh, hplaceable⟩, by simp, hsecond, fun id hid => ?_, hplaceable'⟩
    simpa [hfresh' id hid] using fun h => hapart id h id hid rfl

theorem clean_validateLayout {layout : QString × BarLayout} {placed out : List QString} :
    Clean (validateLayout number unicode catalog configuration placed layout) out ↔
      Placing number unicode catalog configuration layout.1 placed (layoutInstances layout.2) out := by
  unfold validateLayout layoutInstances
  simp only [clean_bind, clean_validateRegion]
  rw [← placing_append]
  constructor
  · rintro ⟨first, hstart, second, hcenter, hend⟩
    exact ⟨second, placing_append.mp ⟨first, hstart, hcenter⟩, hend⟩
  · rintro ⟨second, h, hend⟩
    obtain ⟨first, hstart, hcenter⟩ := placing_append.mpr h
    exact ⟨first, hstart, second, hcenter, hend⟩

/-- The layouts one after another. -/
theorem clean_validateLayouts {bars : QMap BarLayout} {placed out : List QString} :
    Clean (bars.foldlM (validateLayout number unicode catalog configuration) placed) out ↔
      out = (bars.flatMap fun layout => layoutInstances layout.2).reverse ++ placed ∧
      (bars.flatMap fun layout => layoutInstances layout.2).Nodup ∧
      (∀ id ∈ bars.flatMap fun layout => layoutInstances layout.2, id ∉ placed) ∧
      ∀ layout ∈ bars, ∀ id ∈ layoutInstances layout.2, Placeable number unicode catalog configuration layout.1 id := by
  induction bars generalizing placed with
  | nil => simp [clean_pure, eq_comm]
  | cons layout rest ih =>
    simp only [List.foldlM_cons, clean_bind, clean_validateLayout, ih, List.flatMap_cons]
    constructor
    · rintro ⟨_, ⟨rfl, honce, hfresh, hplaceable⟩, rfl, honce', hfresh', hplaceable'⟩
      have hapart : ∀ id ∈ rest.flatMap fun layout => layoutInstances layout.2, id ∉ layoutInstances layout.2 ∧ id ∉ placed := by
        intro id hid
        simpa using hfresh' id hid
      refine ⟨by simp, ?_, ?_, List.forall_mem_cons.mpr ⟨hplaceable, hplaceable'⟩⟩
      · exact List.nodup_append.mpr ⟨honce, honce', fun a ha b hb hab => (hapart b hb).1 (hab ▸ ha)⟩
      · exact List.forall_mem_append.mpr ⟨hfresh, fun id hid => (hapart id hid).2⟩
    · rintro ⟨rfl, honce, hfresh, hplaceable⟩
      obtain ⟨hfirst, hsecond, hapart⟩ := List.nodup_append.mp honce
      obtain ⟨hfresh, hfresh'⟩ := List.forall_mem_append.mp hfresh
      obtain ⟨hplaceable, hplaceable'⟩ := List.forall_mem_cons.mp hplaceable
      refine ⟨_, ⟨rfl, hfirst, hfresh, hplaceable⟩, by simp, hsecond, fun id hid => ?_, hplaceable'⟩
      simpa [hfresh' id hid] using fun h => hapart id h id hid rfl

theorem clean_validatePlacements {u : Unit} : Clean (validatePlacements number unicode catalog configuration) u ↔
    SoundPlacements number unicode catalog configuration := by
  unfold validatePlacements
  simp only [clean_bind, clean_validateLayouts, clean_reportAll, map_eq_nil_filter]
  constructor
  · rintro ⟨_, ⟨rfl, honce, -, hplaceable⟩, hall⟩
    exact ⟨honce, fun id hid => by simpa [placements] using hall id hid, hplaceable⟩
  · rintro ⟨honce, hall, hplaceable⟩
    exact ⟨_, ⟨rfl, honce, by simp, hplaceable⟩, fun id hid => by simpa [placements] using hall id hid⟩

end Placements

section Documents
variable {number : NumberText} {unicode : UnicodeTables} {catalog : ConfigurationCatalog} {root : QJsonObject}
  {configuration : ComponentConfiguration}

/-- What a written configuration is accepted as: live settings normalized, everything else as it is. -/
structure Admits (number : NumberText) (unicode : UnicodeTables) (catalog : ConfigurationCatalog)
    (raw configuration : ComponentConfiguration) : Prop where
  revision : configuration.revision = raw.revision
  components : raw.components.Sorted ∧ raw.components.length ≤ maximumComponents ∧
    List.Forall₂ (AdmittedAs (AdmitsComponent number unicode catalog)) raw.components configuration.components
  instances : raw.instances.Sorted ∧ raw.instances.length ≤ maximumInstances ∧
    List.Forall₂ (AdmittedAs (AdmitsInstance number unicode catalog configuration.components)) raw.instances configuration.instances
  bars : configuration.bars = raw.bars ∧ raw.bars.Sorted ∧ raw.bars.length ≤ maximumBarLayouts ∧
    ∀ layout ∈ raw.bars, SoundLayout unicode layout.1 layout.2
  placements : SoundPlacements number unicode catalog configuration

theorem parseConfigurationRevision_string {text : QString} : parseConfigurationRevision (.string text) =
    if text = [] || (1 < text.length && text.head? = some (unit '0')) || !text.all isDigit then none
    else (toULongLong text).map UInt64.ofNat := rfl

theorem parseConfigurationRevision_iff {value : QJsonValue} {revision : UInt64} :
    parseConfigurationRevision value = some revision ↔ value = .string (decimal revision.toNat) := by
  cases value with
  | string text =>
    rw [parseConfigurationRevision_string, QJsonValue.string.injEq]
    split_ifs with h
    · refine iff_of_false (by simp) ?_
      rintro rfl
      have := decimal_head revision
      simp_all [decimal_ne_nil, decimal_digits]
    · simp only [Bool.or_eq_true, Bool.and_eq_true, decide_eq_true_eq, not_or] at h
      exact toULongLong_map h.1.2 h.1.1
  | _ => simp [parseConfigurationRevision, QJsonValue.isString]

theorem clean_checkConfigurationFormat {format : QJsonValue} {u : Unit} :
    Clean (checkConfigurationFormat format) u ↔ format = .double (.finite 1) := by
  unfold checkConfigurationFormat
  cases hformat : format.finite? with
  | none =>
    refine iff_of_false clean_addError ?_
    rintro rfl
    cases hformat
  | some version =>
    have hone : format = .double (.finite 1) ↔ version = 1 := by
      cases format with
      | double x =>
        cases x with
        | finite q =>
          obtain rfl := Option.some_inj.mp hformat
          simp
        | _ => cases hformat
      | _ => cases hformat
    rw [hone]
    dsimp only
    split_ifs with hnewer
    · refine iff_of_false clean_addError ?_
      rintro rfl
      simp at hnewer
    · simp

theorem parseComponentRecord_some {key : QString} {value : QJsonValue} :
    ¬ Clean (parseComponentRecord number unicode catalog key value) none := by
  unfold parseComponentRecord
  dsimp only
  split_ifs <;> simp [clean_bind]

theorem parseInstanceRecord_some {components : QMap DesiredComponent} {key : QString} {value : QJsonValue} :
    ¬ Clean (parseInstanceRecord number unicode catalog components key value) none := by
  unfold parseInstanceRecord
  dsimp only
  split_ifs <;> simp [clean_bind]

theorem parseBarLayout_some {key : QString} {value : QJsonValue} : ¬ Clean (parseBarLayout unicode key value) none := by
  unfold parseBarLayout
  dsimp only
  by_cases hshape : (!isLayoutId key || !value.isObject) = true
  · rw [if_pos hshape]
    simp
  · rw [if_neg hshape]
    simp only [clean_bind, not_exists, not_and]
    intro _ _ _ _
    split_ifs <;> simp [clean_bind]

theorem recordsObject_length {α : Type} {write : α → QJsonObject} {raw : QMap α} (h : raw.Sorted) :
    (recordsObject write raw).length = raw.length := by
  rw [recordsObject_sorted h, List.length_map]

theorem clean_parseRecords {α β : Type} {read : QString → QJsonValue → Reads (Option α)} {write : β → QJsonObject}
    {admits : QString → β → α → Prop} {value : QJsonValue} {maximumCount : Nat} {error : ValidationError} {m : QMap α}
    (hread : ∀ k v r, Regular v → (Clean (read k v) r ↔ ∃ raw a, r = some a ∧ v = .object (write raw) ∧ admits k raw a))
    (hvalue : value ≠ .undefined → Regular value) (hsome : ∀ k v, ¬ Clean (read k v) none) :
    Clean (parseRecords read value maximumCount error) m ↔ ∃ raw : QMap β, raw.Sorted ∧ raw.length ≤ maximumCount ∧
      value = .object (recordsObject write raw) ∧ List.Forall₂ (AdmittedAs admits) raw m := by
  unfold parseRecords
  cases value with
  | object inner =>
    rw [show (QJsonValue.object inner).toObject = inner from rfl, show (QJsonValue.object inner).isObject = true from rfl,
      Bool.not_true, Bool.false_or]
    by_cases hcount : maximumCount < inner.length
    · rw [if_pos (decide_eq_true hcount)]
      refine iff_of_false (by simp) ?_
      rintro ⟨raw, hsorted, hlength, hobject, -⟩
      rw [QJsonValue.object.inj hobject, recordsObject_length hsorted] at hcount
      omega
    · rw [if_neg (by simpa using hcount), clean_parseEntries_records hread (hvalue QJsonValue.noConfusion) hsome]
      refine exists_congr fun raw => ?_
      rw [QJsonValue.object.injEq]
      constructor
      · rintro ⟨hsorted, rfl, h⟩
        rw [recordsObject_length hsorted] at hcount
        exact ⟨hsorted, Nat.not_lt.mp hcount, rfl, h⟩
      · rintro ⟨hsorted, -, rfl, h⟩
        exact ⟨hsorted, rfl, h⟩
  | _ => simp [QJsonValue.isObject]

theorem forall₂_same {α : Type} {sound : QString → α → Prop} {raw entries : QMap α} :
    List.Forall₂ (AdmittedAs fun key r a => a = r ∧ sound key r) raw entries ↔
      entries = raw ∧ ∀ entry ∈ raw, sound entry.1 entry.2 := by
  constructor
  · intro h
    induction h with
    | nil => exact ⟨rfl, by simp⟩
    | cons he _ ih =>
      obtain ⟨rfl, hall⟩ := ih
      obtain ⟨hkey, hvalue, hsound⟩ := he
      exact ⟨congrArg₂ _ (Prod.ext hkey hvalue) rfl, List.forall_mem_cons.mpr ⟨hsound, hall⟩⟩
  · rintro ⟨rfl, hall⟩
    exact List.forall₂_same.mpr fun entry he => ⟨rfl, rfl, hall entry he⟩

theorem layoutsObject_value (bars : QMap BarLayout) (k : QString) : (layoutsObject bars).value k = (List.lookup k [
    (qstr "bars", QJsonValue.object (recordsObject layoutObject bars)), (qstr "desktops", .object [])]).getD .undefined :=
  QJsonObject.value_ofList (by simp) (by simp) k

theorem clean_parseLayouts {value : QJsonValue} {bars : QMap BarLayout} (hvalue : value ≠ .undefined → Regular value) :
    Clean (parseLayouts unicode value) bars ↔ value = .object (layoutsObject bars) ∧ bars.Sorted ∧
      bars.length ≤ maximumBarLayouts ∧ ∀ layout ∈ bars, SoundLayout unicode layout.1 layout.2 := by
  have hbars {value : QJsonValue} (hvalue : value ≠ .undefined → Regular value) :
      Clean (parseRecords (parseBarLayout unicode) value maximumBarLayouts (issue (qstr "$.layouts.bars")
        "component-config.invalid-bar-layouts" "bars must contain at most 32 layouts.")) bars ↔
      value = .object (recordsObject layoutObject bars) ∧ bars.Sorted ∧ bars.length ≤ maximumBarLayouts ∧
        ∀ layout ∈ bars, SoundLayout unicode layout.1 layout.2 := by
    rw [@clean_parseRecords _ _ _ _ (fun key r a => a = r ∧ SoundLayout unicode key r) _ _ _ _ ?_ hvalue fun _ _ => parseBarLayout_some]
    · simp only [forall₂_same]
      constructor
      · rintro ⟨_, hsorted, hlength, hobject, rfl, hall⟩
        exact ⟨hobject, hsorted, hlength, hall⟩
      · rintro ⟨hobject, hsorted, hlength, hall⟩
        exact ⟨bars, hsorted, hlength, hobject, rfl, hall⟩
    · intro k v r hv
      rw [clean_parseBarLayout hv]
      constructor
      · rintro ⟨layout, hr, hobject, hsound⟩
        exact ⟨layout, layout, hr, hobject, rfl, hsound⟩
      · rintro ⟨_, _, hr, hobject, rfl, hsound⟩
        exact ⟨_, hr, hobject, hsound⟩
  unfold parseLayouts
  cases value with
  | object inner =>
    have hsorted : Regular (.object inner) := hvalue QJsonValue.noConfusion
    have hinner : QJsonObject.value inner (qstr "bars") ≠ .undefined → Regular (QJsonObject.value inner (qstr "bars")) :=
      hsorted.value rfl
    rw [if_neg (by simp [QJsonValue.isObject])]
    rw [show (QJsonValue.object inner).toObject = inner from rfl]
    simp only [clean_bind, clean_unknownFields, clean_rejectIf, hbars hinner]
    constructor
    · rintro ⟨_, hknown, _, hdesktops, hobject, hrest⟩
      refine ⟨congrArg _ (ofList_of_fields hsorted.sorted hknown ?_), hrest⟩
      simp only [List.forall_mem_cons, List.not_mem_nil, false_implies, implies_true, and_true]
      refine ⟨⟨hobject, by simp⟩, ⟨?_, by simp⟩⟩
      rw [Bool.or_eq_false_iff, Bool.not_eq_false'] at hdesktops
      rw [eq_object hdesktops.1, not_not.mp (of_decide_eq_false hdesktops.2)]
    · rintro ⟨hobject, hrest⟩
      obtain rfl := QJsonValue.object.inj hobject
      refine ⟨(), fun k hk => (QJsonObject.keys_ofList (by simp) (by simp)).subset hk, (), ?_, ?_, hrest⟩
      · simp [layoutsObject_value, lookup_cons_ite, QJsonValue.isObject]
        rfl
      · simp [layoutsObject_value]
  | _ => simp [QJsonValue.isObject]

theorem configurationObject_value (c : ComponentConfiguration) (k : QString) : (configurationObject c).value k = (List.lookup k [
    (qstr "formatVersion", QJsonValue.double (.finite 1)), (qstr "revision", .string (decimal c.revision.toNat)),
    (qstr "components", .object (recordsObject componentObject c.components)),
    (qstr "instances", .object (recordsObject instanceObject c.instances)),
    (qstr "layouts", .object (layoutsObject c.bars))]).getD .undefined :=
  QJsonObject.value_ofList (by simp) (by simp) k

/-- An accepted document is the one written for some configuration that the catalog admits. -/
theorem clean_parseConfigurationRoot (hroot : Regular (.object root)) :
    Clean (parseConfigurationRoot number unicode catalog root) configuration ↔
      ∃ raw, root = configurationObject raw ∧ Admits number unicode catalog raw configuration := by
  have hinner (k : QString) : root.value k ≠ .undefined → Regular (root.value k) := hroot.value rfl
  have hcomponents (error : ValidationError) (m : QMap DesiredComponent) :
      Clean (parseRecords (parseComponentRecord number unicode catalog) (root.value (qstr "components")) maximumComponents error) m ↔
        ∃ raw : QMap DesiredComponent, raw.Sorted ∧ raw.length ≤ maximumComponents ∧
          root.value (qstr "components") = .object (recordsObject componentObject raw) ∧
          List.Forall₂ (AdmittedAs (AdmitsComponent number unicode catalog)) raw m :=
    clean_parseRecords (fun _ _ _ hv => clean_parseComponentRecord hv) (hinner _) fun _ _ => parseComponentRecord_some
  have hinstances (components : QMap DesiredComponent) (error : ValidationError) (m : QMap ComponentInstance) :
      Clean (parseRecords (parseInstanceRecord number unicode catalog components) (root.value (qstr "instances")) maximumInstances error) m ↔
        ∃ raw : QMap ComponentInstance, raw.Sorted ∧ raw.length ≤ maximumInstances ∧
          root.value (qstr "instances") = .object (recordsObject instanceObject raw) ∧
          List.Forall₂ (AdmittedAs (AdmitsInstance number unicode catalog components)) raw m :=
    clean_parseRecords (fun _ _ _ hv => clean_parseInstanceRecord hv) (hinner _) fun _ _ => parseInstanceRecord_some
  unfold parseConfigurationRoot
  dsimp only
  simp only [clean_bind, clean_unknownFields, clean_checkConfigurationFormat, clean_rejectIf, clean_pure, hcomponents, hinstances,
    clean_parseLayouts (hinner _), clean_validatePlacements]
  constructor
  · rintro ⟨_, hknown, _, hformat, _, hrevision, components, ⟨rawComponents, hsorted, hlength, hcomponents, hadmits⟩, instances,
      ⟨rawInstances, hsorted', hlength', hinstances, hadmits'⟩, bars, ⟨hlayouts, hbars⟩, _, hplacements, rfl⟩
    rw [Option.isNone_eq_false_iff, Option.isSome_iff_exists] at hrevision
    obtain ⟨revision, hrevision⟩ := hrevision
    rw [hrevision, Option.getD_some] at hplacements ⊢
    refine ⟨⟨revision, rawComponents, rawInstances, bars⟩, ofList_of_fields hroot.sorted hknown ?_,
      ⟨rfl, ⟨hsorted, hlength, hadmits⟩, ⟨hsorted', hlength', hadmits'⟩, ⟨rfl, hbars⟩, hplacements⟩⟩
    simp only [List.forall_mem_cons, List.not_mem_nil, false_implies, implies_true, and_true]
    exact ⟨⟨hformat, by simp⟩, ⟨parseConfigurationRevision_iff.mp hrevision, by simp⟩, ⟨hcomponents, by simp⟩,
      ⟨hinstances, by simp⟩, ⟨hlayouts, by simp⟩⟩
  · rintro ⟨raw, rfl, hrevision, ⟨hsorted, hlength, hadmits⟩, ⟨hsorted', hlength', hadmits'⟩, ⟨hbars, hsound⟩, hplacements⟩
    obtain ⟨revision, components, instances, bars⟩ := configuration
    obtain rfl : bars = raw.bars := hbars
    obtain rfl : revision = raw.revision := hrevision
    have hread : parseConfigurationRevision ((configurationObject raw).value (qstr "revision")) = some raw.revision := by
      rw [parseConfigurationRevision_iff]
      simp [configurationObject_value, lookup_cons_ite]
    refine ⟨(), fun k hk => (QJsonObject.keys_ofList (by simp) (by simp)).subset hk, (), ?_, (), by rw [hread]; rfl, components,
      ⟨_, hsorted, hlength, ?_, hadmits⟩, instances, ⟨_, hsorted', hlength', ?_, hadmits'⟩, raw.bars, ⟨?_, hsound⟩, (), ?_, ?_⟩
    · simp [configurationObject_value]
    · simp [configurationObject_value, lookup_cons_ite]
    · simp [configurationObject_value, lookup_cons_ite]
    · simp [configurationObject_value, lookup_cons_ite]
    · rw [hread]
      exact hplacements
    · rw [hread]
      rfl

theorem parseComponentConfiguration_root {bytes : QByteArray} :
    (parseComponentConfiguration number unicode catalog bytes).value = some configuration ↔
      ∃ root, (parseStrictJsonObject number bytes configurationLimits).value = some root ∧
        Clean (parseConfigurationRoot number unicode catalog root) configuration := by
  unfold parseComponentConfiguration
  dsimp only
  cases (parseStrictJsonObject number bytes configurationLimits).value with
  | none => simp
  | some root => simp [result_iff]

theorem regular_parsed {bytes : QByteArray} (h : (parseStrictJsonObject number bytes configurationLimits).value = some root) :
    Regular (.object root) := (parseStrictJsonObject_sound h).1.mono (fun _ _ => trivial) fun _ _ => trivial

/-- The reader accepts the texts of configurations that the catalog admits: records, instances and
layouts are sound, every instance is placed once, live settings are normalized and dormant ones kept. -/
theorem parseComponentConfiguration_admits (bytes : QByteArray) :
    (parseComponentConfiguration number unicode catalog bytes).value = some configuration ↔
      ∃ raw, (parseStrictJsonObject number bytes configurationLimits).value = some (configurationObject raw) ∧
        Admits number unicode catalog raw configuration := by
  rw [parseComponentConfiguration_root]
  constructor
  · rintro ⟨root, hroot, hclean⟩
    obtain ⟨raw, rfl, hadmits⟩ := (clean_parseConfigurationRoot (regular_parsed hroot)).mp hclean
    exact ⟨raw, hroot, hadmits⟩
  · rintro ⟨raw, hroot, hadmits⟩
    exact ⟨_, hroot, (clean_parseConfigurationRoot (regular_parsed hroot)).mpr ⟨raw, rfl, hadmits⟩⟩

end Documents

end HyprShelld.Configuration
