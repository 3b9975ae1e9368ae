import HyprShelld.Json.Object
import HyprShelld.Surface.Plan

/-! What the plan reader accepts, and that it reads back the plans that were written. -/
namespace HyprShelld.Components

section Instance
variable (number : NumberText) (unicode : UnicodeTables)

/-- An instance of the protected built-in. -/
structure SurfaceInstance.Builtin (i : SurfaceInstance) : Prop where
  kind : i.runtimeKind = builtinKind
  componentId : i.componentId = workspaceSwitcherId
  factory : i.factory = workspaceSwitcherFactory
  settings : isValidWorkspaceSwitcherSettings i.settings = true
  text : i.declarativeText = []
  tooltip : i.declarativeTooltip = []
  width : i.declarativeMaximumWidth = 0

/-- An instance of a third-party text pill. -/
structure SurfaceInstance.Declarative (i : SurfaceInstance) : Prop where
  kind : i.runtimeKind = declarativeKind
  factory : i.factory = []
  text : isValidDeclarativeResolvedText unicode i.declarativeText = true
  tooltip : i.declarativeTooltip.length ≤ maximumDeclarativeTooltipLength
  wide : minimumDeclarativeMaximumWidth ≤ i.declarativeMaximumWidth.toNat
  narrow : i.declarativeMaximumWidth.toNat ≤ maximumDeclarativeMaximumWidth
  settings : i.settings = []
  document : (parseDeclarativeDocument number unicode (serializeDeclarativeDocument number
    (resolvedDocument i.declarativeText i.declarativeTooltip i.declarativeMaximumWidth)) none).ok = true

structure SurfaceInstance.Sound (i : SurfaceInstance) : Prop where
  componentId : isValidComponentId i.componentId = true
  componentType : i.componentType = qstr "bar-widget"
  packageDigest : hasMatch surfacePlanDigest i.packageDigest = true
  few : i.settings.length ≤ 128
  runtime : i.Builtin ∨ i.Declarative number unicode

variable {number unicode}

theorem toInteger_natCast {n : Nat} (h : n < 2 ^ 63) (fallback : Int) :
    (QJsonValue.double (.finite (n : ℚ))).toInteger fallback = n := by
  have hn : ((n : ℚ)).num = n := Rat.num_natCast n
  have hd : ((n : ℚ)).den = 1 := Rat.den_natCast n
  simp only [QJsonValue.toInteger, QJsonValue.finite?, hn, hd]
  rw [if_pos ⟨trivial, by omega, by omega⟩]

theorem parseBuiltinRuntime_ok {runtime settings : QJsonObject} {componentId path runtimePath : QString}
    {fields : RuntimeFields}
    (h : parseBuiltinRuntime runtime componentId settings path runtimePath = .ok fields) :
    componentId = workspaceSwitcherId ∧ isValidWorkspaceSwitcherSettings settings = true ∧
      fields = { factory := workspaceSwitcherFactory } := by
  simp only [parseBuiltinRuntime, requireExactKeys, bind_ok_iff, require_ok_iff, exists_const, pure_ok_iff, Bool.and_eq_true,
    decide_eq_true_eq] at h
  obtain ⟨_, _, ⟨⟨hid, hfactory⟩, hsettings⟩, rfl⟩ := h
  exact ⟨hid, hsettings, by rw [hfactory]⟩

theorem parseDeclarativeRuntime_ok {runtime settings : QJsonObject} {runtimePath : QString} {fields : RuntimeFields}
    (h : parseDeclarativeRuntime number unicode runtime settings runtimePath = .ok fields) :
    fields.factory = [] ∧ isValidDeclarativeResolvedText unicode fields.declarativeText = true ∧
      fields.declarativeTooltip.length ≤ maximumDeclarativeTooltipLength ∧
      minimumDeclarativeMaximumWidth ≤ fields.declarativeMaximumWidth.toNat ∧
      fields.declarativeMaximumWidth.toNat ≤ maximumDeclarativeMaximumWidth ∧ settings = [] ∧
      (parseDeclarativeDocument number unicode (serializeDeclarativeDocument number (resolvedDocument
        fields.declarativeText fields.declarativeTooltip fields.declarativeMaximumWidth)) none).ok = true := by
  simp only [parseDeclarativeRuntime, requireExactKeys, bind_ok_iff, require_ok_iff, exists_const, pure_ok_iff, Bool.and_eq_true,
    decide_eq_true_eq] at h
  obtain ⟨_, ⟨⟨⟨⟨⟨⟨⟨⟨_, htext⟩, _⟩, htooltip⟩, _⟩, _⟩, hwide⟩, hnarrow⟩, hsettings⟩, hdocument, rfl⟩ := h
  simp only [minimumDeclarativeMaximumWidth, maximumDeclarativeMaximumWidth] at hwide hnarrow ⊢
  refine ⟨trivial, htext, htooltip, ?_, ?_, hsettings, hdocument⟩
  · simp only [UInt32.toNat_ofNat']
    omega
  · simp only [UInt32.toNat_ofNat']
    omega

/-- The reader accepts sound instances only. -/
theorem parseInstance_sound {o : QJsonObject} {path : QString} {i : SurfaceInstance}
    (h : parseInstance number unicode o path = .ok i) : i.Sound number unicode := by
  simp only [parseInstance, requireExactKeys, bind_ok_iff, require_ok_iff, exists_const, pure_ok_iff, Bool.and_eq_true,
    decide_eq_true_eq] at h
  obtain ⟨_, ⟨_, hid⟩, ⟨_, htype⟩, ⟨_, hdigest⟩, _, _, ⟨_, hfew⟩, fields, hfields, rfl⟩ := h
  refine ⟨hid, htype, hdigest, hfew, ?_⟩
  split_ifs at hfields with hbuiltin hdeclarative
  · obtain ⟨hws, hsettings, rfl⟩ := parseBuiltinRuntime_ok hfields
    exact .inl ⟨hbuiltin, hws, rfl, hsettings, rfl, rfl, rfl⟩
  · obtain ⟨hfactory, htext, htooltip, hwide, hnarrow, hsettings, hdocument⟩ := parseDeclarativeRuntime_ok hfields
    exact .inr ⟨hdeclarative, hfactory, htext, htooltip, hwide, hnarrow, hsettings, hdocument⟩

theorem hasExactKeys_ofList {members : List (QString × QJsonValue)} {expected : List QString}
    (hk : members.map (·.1) = expected) (hn : expected.Nodup) (hd : ∀ m ∈ members, m.2 ≠ .undefined) :
    hasExactKeys (QJsonObject.ofList members) expected = true := by
  subst hk
  exact List.isPerm_iff.mpr (QJsonObject.keys_ofList hn hd)

theorem instanceObject_value (i : SurfaceInstance) (k : QString) :
    (instanceObject i).value k = (List.lookup k [
      (qstr "componentId", .string i.componentId), (qstr "componentType", .string i.componentType),
      (qstr "packageDigest", .string i.packageDigest), (qstr "runtime", .object (runtimeObject i)),
      (qstr "settings", .object i.settings)]).getD .undefined :=
  QJsonObject.value_ofList (by simp) (by simp) k

theorem builtinKind_ne_declarativeKind : builtinKind ≠ declarativeKind := by
  simp [builtinKind, declarativeKind]

theorem runtimeObject_builtin {i : SurfaceInstance} (h : i.runtimeKind = builtinKind) :
    runtimeObject i = QJsonObject.ofList [(qstr "kind", .string i.runtimeKind), (qstr "factory", .string i.factory)] := by
  rw [runtimeObject, if_pos h]

theorem runtimeObject_declarative {i : SurfaceInstance} (h : i.runtimeKind = declarativeKind) :
    runtimeObject i = QJsonObject.ofList [
      (qstr "kind", .string i.runtimeKind), (qstr "text", .string i.declarativeText),
      (qstr "tooltip", .string i.declarativeTooltip),
      (qstr "maximumWidth", .double (.finite i.declarativeMaximumWidth.toNat))] := by
  rw [runtimeObject, if_neg (by rw [h]; exact builtinKind_ne_declarativeKind.symm)]

theorem parseBuiltinRuntime_complete {i : SurfaceInstance} (h : i.Builtin) (path runtimePath : QString) :
    parseBuiltinRuntime (runtimeObject i) i.componentId i.settings path runtimePath =
      .ok { factory := i.factory } := by
  have hvalue : QJsonObject.value (runtimeObject i) (qstr "factory") = .string i.factory := by
    rw [runtimeObject_builtin h.kind, QJsonObject.value_ofList (by simp) (by simp)]
    simp [QJsonObject.lookup_cons_ite]
  have hkeys : hasExactKeys (runtimeObject i) [qstr "kind", qstr "factory"] = true := by
    rw [runtimeObject_builtin h.kind]
    exact hasExactKeys_ofList rfl (by simp) (by simp)
  have hfactory : isValidFactory workspaceSwitcherFactory = true := by decide +kernel
  simp only [parseBuiltinRuntime, requireExactKeys, bind_ok_iff, require_ok_iff, exists_const, pure_ok_iff,
    hvalue, QJsonValue.isString, QJsonValue.toString, hfactory, h.componentId, h.factory, h.settings]
  simp [hkeys]

/-- Which fields the runtime of an instance leaves empty. -/
structure SurfaceInstance.Canonical (i : SurfaceInstance) : Prop where
  builtin : i.runtimeKind = builtinKind →
    i.declarativeText = [] ∧ i.declarativeTooltip = [] ∧ i.declarativeMaximumWidth = 0
  other : i.runtimeKind ≠ builtinKind → i.factory = []

theorem SurfaceInstance.Sound.canonical {i : SurfaceInstance} (h : i.Sound number unicode) : i.Canonical := by
  rcases h.runtime with hb | hd
  · exact ⟨fun _ => ⟨hb.text, hb.tooltip, hb.width⟩, fun hk => absurd hb.kind hk⟩
  · exact ⟨fun hk => absurd (hd.kind.symm.trans hk) builtinKind_ne_declarativeKind.symm, fun _ => hd.factory⟩

section Runtime
variable {i : SurfaceInstance}

theorem runtimeObject_builtin_value (h : i.runtimeKind = builtinKind) (k : QString) :
    QJsonObject.value (runtimeObject i) k = (List.lookup k [
      (qstr "kind", .string i.runtimeKind), (qstr "factory", .string i.factory)]).getD .undefined := by
  rw [runtimeObject_builtin h, QJsonObject.value_ofList (by simp) (by simp)]

theorem runtimeObject_declarative_value (h : i.runtimeKind = declarativeKind) (k : QString) :
    QJsonObject.value (runtimeObject i) k = (List.lookup k [
      (qstr "kind", .string i.runtimeKind), (qstr "text", .string i.declarativeText),
      (qstr "tooltip", .string i.declarativeTooltip),
      (qstr "maximumWidth", .double (.finite i.declarativeMaximumWidth.toNat))]).getD .undefined := by
  rw [runtimeObject_declarative h, QJsonObject.value_ofList (by simp) (by simp)]

theorem runtimeObject_kind (i : SurfaceInstance) :
    QJsonObject.value (runtimeObject i) (qstr "kind") = .string i.runtimeKind := by
  unfold runtimeObject
  split_ifs <;> rw [QJsonObject.value_ofList (by simp) (by simp)] <;> simp

theorem parseDeclarativeRuntime_exact {fields : RuntimeFields} {runtimePath : QString}
    (hkind : i.runtimeKind = declarativeKind)
    (h : parseDeclarativeRuntime number unicode (runtimeObject i) i.settings runtimePath = .ok fields) :
    fields = {
      declarativeText := i.declarativeText
      declarativeTooltip := i.declarativeTooltip
      declarativeMaximumWidth := i.declarativeMaximumWidth } := by
  have hwidth := toInteger_natCast (n := i.declarativeMaximumWidth.toNat)
    (lt_of_lt_of_le i.declarativeMaximumWidth.toNat_lt (by norm_num)) (-1)
  simp only [parseDeclarativeRuntime, requireExactKeys, bind_ok_iff, require_ok_iff, exists_const, pure_ok_iff,
    runtimeObject_declarative_value hkind] at h
  simp only [QJsonObject.lookup_cons_ite, qstr_inj, String.reduceEq, if_false, if_true, Option.getD_some, hwidth,
    QJsonValue.toString, Int.toNat_natCast, UInt32.ofNat_toNat] at h
  exact h.2.2.2.symm

end Runtime

theorem parseDeclarativeRuntime_complete {i : SurfaceInstance} (h : i.Declarative number unicode)
    (runtimePath : QString) :
    parseDeclarativeRuntime number unicode (runtimeObject i) i.settings runtimePath = .ok {
      declarativeText := i.declarativeText
      declarativeTooltip := i.declarativeTooltip
      declarativeMaximumWidth := i.declarativeMaximumWidth } := by
  have hkeys : hasExactKeys (runtimeObject i) [qstr "kind", qstr "text", qstr "tooltip", qstr "maximumWidth"] = true := by
    rw [runtimeObject_declarative h.kind]
    exact hasExactKeys_ofList rfl (by simp) (by simp)
  have hwidth := toInteger_natCast (n := i.declarativeMaximumWidth.toNat)
    (lt_of_lt_of_le i.declarativeMaximumWidth.toNat_lt (by norm_num)) (-1)
  have hwide := h.wide
  have hnarrow := h.narrow
  simp only [minimumDeclarativeMaximumWidth, maximumDeclarativeMaximumWidth] at hwide hnarrow
  simp only [parseDeclarativeRuntime, requireExactKeys, bind_ok_iff, require_ok_iff, exists_const, pure_ok_iff,
    runtimeObject_declarative_value h.kind]
  simp only [QJsonObject.lookup_cons_ite, qstr_inj, String.reduceEq, if_false, if_true, Option.getD_some, hwidth,
    QJsonValue.isString, QJsonValue.toString, QJsonValue.isDouble, QJsonValue.toDouble, Int.toNat_natCast,
    UInt32.ofNat_toNat]
  simp [hkeys, h.text, h.tooltip, h.document, h.settings, minimumDeclarativeMaximumWidth,
    maximumDeclarativeMaximumWidth, hwide, hnarrow]

/-- Every sound instance is read back from what is written for it. -/
theorem parseInstance_complete {i : SurfaceInstance} (h : i.Sound number unicode) (path : QString) :
    parseInstance number unicode (instanceObject i) path = .ok i := by
  have hkeys : hasExactKeys (instanceObject i) ([("componentId" : String), "componentType", "packageDigest", "runtime",
      "settings"].map qstr) = true := hasExactKeys_ofList rfl (by simp) (by simp)
  simp only [parseInstance, requireExactKeys, bind_ok_iff, require_ok_iff, exists_const, pure_ok_iff, instanceObject_value]
  simp only [QJsonObject.lookup_cons_ite, qstr_inj, String.reduceEq, if_false, if_true, Option.getD_some,
    QJsonValue.isString, QJsonValue.toString, QJsonValue.isObject, QJsonValue.toObject, runtimeObject_kind]
  refine ⟨hkeys, by simp [h.componentId], by simp [h.componentType], by simp [h.packageDigest], trivial, trivial,
    by simp [h.few], ?_⟩
  rcases h.runtime with hb | hd
  · rw [if_pos hb.kind]
    refine ⟨_, parseBuiltinRuntime_complete hb _ _, ?_⟩
    cases i
    cases hb
    simp_all
  · rw [if_neg (by rw [hd.kind]; exact builtinKind_ne_declarativeKind.symm), if_pos hd.kind]
    refine ⟨_, parseDeclarativeRuntime_complete hd _, ?_⟩
    simp [← hd.factory]

/-- What is read back from a canonical instance is that instance. -/
theorem parseInstance_exact {i j : SurfaceInstance} {path : QString} (hi : i.Canonical)
    (h : parseInstance number unicode (instanceObject i) path = .ok j) : j = i := by
  simp only [parseInstance, requireExactKeys, bind_ok_iff, require_ok_iff, exists_const, pure_ok_iff,
    instanceObject_value] at h
  simp only [QJsonObject.lookup_cons_ite, qstr_inj, String.reduceEq, if_false, if_true, Option.getD_some,
    QJsonValue.isString, QJsonValue.toString, QJsonValue.isObject, QJsonValue.toObject, runtimeObject_kind] at h
  obtain ⟨_, _, _, _, _, _, _, fields, hfields, rfl⟩ := h
  split_ifs at hfields with hb hd
  · have hfactory : fields.factory = i.factory := by
      simp only [parseBuiltinRuntime, requireExactKeys, bind_ok_iff, require_ok_iff, exists_const, pure_ok_iff,
        runtimeObject_builtin_value hb] at hfields
      simp only [QJsonObject.lookup_cons_ite, qstr_inj, String.reduceEq, if_false, if_true, Option.getD_some,
        QJsonValue.toString] at hfields
      rw [← hfields.2.2.2]
    obtain ⟨_, _, rfl⟩ := parseBuiltinRuntime_ok hfields
    obtain ⟨ht, hp, hw⟩ := hi.builtin hb
    cases i
    simp_all
  · rw [parseDeclarativeRuntime_exact hd hfields]
    have hf := hi.other hb
    cases i
    simp_all

end Instance
section Layout

/-- The instance IDs a region may hold. -/
def RegionIds (ids : List QString) : Prop :=
  ids.length ≤ maximumSurfacePlanInstances ∧ ∀ id ∈ ids, hasMatch surfacePlanUuidV4 id = true

structure SurfaceBarLayout.Sound (l : SurfaceBarLayout) : Prop where
  outputMode : l.outputMode = qstr "all"
  start : RegionIds l.start
  center : RegionIds l.center
  «end» : RegionIds l.end

theorem parseInstanceIds_ok {path : QString} {index : Nat} {values : List QJsonValue} {ids : List QString}
    (h : parseInstanceIds path index values = .ok ids) :
    ids = values.map QJsonValue.toString ∧ ∀ id ∈ ids, hasMatch surfacePlanUuidV4 id = true := by
  induction values generalizing index ids with
  | nil =>
    cases h
    exact ⟨rfl, by simp⟩
  | cons v values ih =>
    simp only [parseInstanceIds, bind_ok_iff, require_ok_iff, exists_const, pure_ok_iff, Bool.and_eq_true] at h
    obtain ⟨hv, rest, hrest, rfl⟩ := h
    obtain ⟨rfl, hids⟩ := ih hrest
    refine ⟨rfl, ?_⟩
    intro id hm
    rcases List.mem_cons.mp hm with rfl | hm
    · exact hv.2
    · exact hids id hm

theorem parseInstanceIds_complete {ids : List QString} (h : ∀ id ∈ ids, hasMatch surfacePlanUuidV4 id = true)
    (path : QString) (index : Nat) : parseInstanceIds path index (ids.map .string) = .ok ids := by
  induction ids generalizing index with
  | nil => rfl
  | cons id ids ih =>
    simp only [List.map_cons, parseInstanceIds, bind_ok_iff, require_ok_iff, exists_const, pure_ok_iff]
    exact ⟨by simp [QJsonValue.isString, QJsonValue.toString, h id List.mem_cons_self],
      ids, ih (fun other hm => h other (List.mem_cons_of_mem _ hm)) _, rfl⟩

theorem parseStringArray_ok {value : QJsonValue} {path : QString} {ids : List QString}
    (h : parseStringArray value path = .ok ids) : ids = value.toArray.map QJsonValue.toString ∧ RegionIds ids := by
  simp only [parseStringArray, bind_ok_iff, require_ok_iff, exists_const, decide_eq_true_eq] at h
  obtain ⟨_, hlength, hids⟩ := h
  obtain ⟨rfl, hall⟩ := parseInstanceIds_ok hids
  exact ⟨rfl, by simpa using hlength, hall⟩

theorem parseStringArray_complete {ids : List QString} (h : RegionIds ids) (path : QString) :
    parseStringArray (stringArray ids) path = .ok ids := by
  simp only [parseStringArray, stringArray, bind_ok_iff, require_ok_iff, exists_const]
  exact ⟨rfl, by simpa [QJsonValue.toArray] using h.1, parseInstanceIds_complete h.2 _ _⟩

theorem toArray_stringArray (ids : List QString) : (stringArray ids).toArray.map QJsonValue.toString = ids := by
  simp [stringArray, QJsonValue.toArray, Function.comp_def, QJsonValue.toString]

theorem parseBarLayout_sound {o : QJsonObject} {path : QString} {l : SurfaceBarLayout}
    (h : parseBarLayout o path = .ok l) : l.Sound := by
  simp only [parseBarLayout, requireExactKeys, bind_ok_iff, require_ok_iff, exists_const, pure_ok_iff,
    Bool.and_eq_true, decide_eq_true_eq] at h
  obtain ⟨_, _, _, ⟨_, hmode⟩, _, start, hstart, center, hcenter, last, hlast, rfl⟩ := h
  exact ⟨hmode, (parseStringArray_ok hstart).2, (parseStringArray_ok hcenter).2, (parseStringArray_ok hlast).2⟩

theorem layoutObject_value (l : SurfaceBarLayout) (k : QString) :
    (layoutObject l).value k = (List.lookup k [
      (qstr "outputs", .object (QJsonObject.ofList [(qstr "mode", .string l.outputMode)])),
      (qstr "regions", .object (QJsonObject.ofList [
        (qstr "start", stringArray l.start), (qstr "center", stringArray l.center),
        (qstr "end", stringArray l.end)]))]).getD .undefined :=
  QJsonObject.value_ofList (by simp) (by simp) k

theorem regionsObject_value (l : SurfaceBarLayout) (k : QString) :
    QJsonObject.value (QJsonObject.ofList [
        (qstr "start", stringArray l.start), (qstr "center", stringArray l.center), (qstr "end", stringArray l.end)]) k =
      (List.lookup k [(qstr "start", stringArray l.start), (qstr "center", stringArray l.center),
        (qstr "end", stringArray l.end)]).getD .undefined :=
  QJsonObject.value_ofList (by simp) (by simp [stringArray]) k

theorem outputsObject_value (mode : QString) :
    QJsonObject.value (QJsonObject.ofList [(qstr "mode", .string mode)]) (qstr "mode") = .string mode := by
  rw [QJsonObject.value_ofList (by simp) (by simp)]
  simp

theorem parseBarLayout_complete {l : SurfaceBarLayout} (h : l.Sound) (path : QString) :
    parseBarLayout (layoutObject l) path = .ok l := by
  have hkeys : hasExactKeys (layoutObject l) ([("outputs" : String), "regions"].map qstr) = true :=
    hasExactKeys_ofList rfl (by simp) (by simp)
  simp only [parseBarLayout, requireExactKeys, bind_ok_iff, require_ok_iff, exists_const, pure_ok_iff,
    layoutObject_value]
  simp only [QJsonObject.lookup_cons_ite, qstr_inj, String.reduceEq, if_false, if_true, Option.getD_some,
    QJsonValue.isObject, QJsonValue.toObject, outputsObject_value, regionsObject_value, QJsonValue.isString,
    QJsonValue.toString]
  refine ⟨hkeys, rfl, hasExactKeys_ofList rfl (by simp) (by simp), by simp [h.outputMode],
    hasExactKeys_ofList rfl (by simp) (by simp [stringArray]), _, parseStringArray_complete h.start _, _,
    parseStringArray_complete h.center _, _, parseStringArray_complete h.end _, rfl⟩

theorem parseBarLayout_exact {l m : SurfaceBarLayout} {path : QString}
    (h : parseBarLayout (layoutObject l) path = .ok m) : m = l := by
  simp only [parseBarLayout, requireExactKeys, bind_ok_iff, require_ok_iff, exists_const, pure_ok_iff,
    layoutObject_value] at h
  simp only [QJsonObject.lookup_cons_ite, qstr_inj, String.reduceEq, if_false, if_true, Option.getD_some,
    QJsonValue.isObject, QJsonValue.toObject, outputsObject_value, regionsObject_value, QJsonValue.isString,
    QJsonValue.toString] at h
  obtain ⟨_, _, _, _, _, start, hstart, center, hcenter, last, hlast, rfl⟩ := h
  rw [(parseStringArray_ok hstart).1, (parseStringArray_ok hcenter).1, (parseStringArray_ok hlast).1]
  simp only [toArray_stringArray]

end Layout
end HyprShelld.Components
