import HyprShelld.Component.ConfigurationFacts
import HyprShelld.Component.SchemaFacts

/-! Settings as the configuration stores them: what the check of dormant ones admits, and which live
ones pass it once they are normalized. -/
namespace HyprShelld.Configuration
open Components Checked QJsonObject Json

section Dormant
variable {unicode : UnicodeTables} {path : QString} {u : Unit}

/-- A value that the check admits at a depth. -/
inductive Dormant (unicode : UnicodeTables) : Nat → QJsonValue → Prop
  | bool {depth : Nat} (b : Bool) : depth ≤ 8 → Dormant unicode depth (.bool b)
  | null {depth : Nat} : depth ≤ 8 → Dormant unicode depth .null
  | undefined {depth : Nat} : depth ≤ 8 → Dormant unicode depth .undefined
  | string {depth : Nat} {text : QString} : depth ≤ 8 → isStoredText unicode text = true → Dormant unicode depth (.string text)
  | double {depth : Nat} {x : Double} : depth ≤ 8 → isStoredNumber x = true → Dormant unicode depth (.double x)
  | array {depth : Nat} {items : List QJsonValue} : depth ≤ 8 → items.length ≤ 64 →
    (∀ item ∈ items, Dormant unicode (depth + 1) item) → Dormant unicode depth (.array items)
  | object {depth : Nat} {members : List (QString × QJsonValue)} : depth ≤ 8 → members.length ≤ 64 →
    (∀ m ∈ members, m.1.length ≤ 64 ∧ hasControl m.1 = false) → (∀ m ∈ members, Dormant unicode (depth + 1) m.2) →
    Dormant unicode depth (.object members)

theorem clean_atDepth {depth : Nat} {check : Reads Unit} : Clean (atDepth depth path check) u ↔ depth ≤ 8 ∧ Clean check u := by
  unfold atDepth
  split_ifs with hdepth
  · exact iff_of_false clean_addError (by omega)
  · rw [and_iff_right (by omega)]

mutual
theorem clean_validateDormantSettingValue {depth : Nat} : ∀ {path : QString} {v : QJsonValue},
    Clean (validateDormantSettingValue unicode path depth v) u ↔ Dormant unicode depth v
  | path, .bool b => by
    rw [validateDormantSettingValue, clean_atDepth]
    exact ⟨fun h => .bool b h.1, fun h => by cases h with | bool _ hdepth => exact ⟨hdepth, rfl⟩⟩
  | path, .null => by
    rw [validateDormantSettingValue, clean_atDepth]
    exact ⟨fun h => .null h.1, fun h => by cases h with | null hdepth => exact ⟨hdepth, rfl⟩⟩
  | path, .undefined => by
    rw [validateDormantSettingValue, clean_atDepth]
    exact ⟨fun h => .undefined h.1, fun h => by cases h with | undefined hdepth => exact ⟨hdepth, rfl⟩⟩
  | path, .string text => by
    rw [validateDormantSettingValue, clean_atDepth, clean_rejectIf, Bool.not_eq_false']
    exact ⟨fun h => .string h.1 h.2, fun h => by cases h with | string hdepth htext => exact ⟨hdepth, htext⟩⟩
  | path, .double x => by
    rw [validateDormantSettingValue, clean_atDepth, clean_rejectIf, Bool.not_eq_false']
    exact ⟨fun h => .double h.1 h.2, fun h => by cases h with | double hdepth hnumber => exact ⟨hdepth, hnumber⟩⟩
  | path, .array items => by
    rw [validateDormantSettingValue, clean_atDepth]
    split_ifs with hcount
    · refine iff_of_false (fun h => clean_addError h.2) fun h => ?_
      cases h with
      | array _ hlength => omega
    · rw [clean_validateDormantItems]
      constructor
      · exact fun h => .array h.1 (by omega) h.2
      · intro h
        cases h with
        | array hdepth _ hitems => exact ⟨hdepth, hitems⟩
  | path, .object members => by
    rw [validateDormantSettingValue, clean_atDepth]
    split_ifs with hcount
    · refine iff_of_false (fun h => clean_addError h.2) fun h => ?_
      cases h with
      | object _ hlength => omega
    · rw [clean_validateDormantMembers]
      constructor
      · exact fun h => .object h.1 (by omega) (fun m hm => (h.2 m hm).1) fun m hm => (h.2 m hm).2
      · intro h
        cases h with
        | object hdepth _ hkeys hvalues => exact ⟨hdepth, fun m hm => ⟨hkeys m hm, hvalues m hm⟩⟩

theorem clean_validateDormantItems {depth : Nat} : ∀ {path : QString} {index : Nat} {items : List QJsonValue},
    Clean (validateDormantItems unicode path depth index items) u ↔ ∀ item ∈ items, Dormant unicode depth item
  | path, index, [] => by
    rw [validateDormantItems]
    simp [clean_pure]
  | path, index, item :: rest => by
    rw [validateDormantItems, clean_bind, List.forall_mem_cons]
    simp only [clean_validateDormantSettingValue, clean_validateDormantItems, exists_const]

theorem clean_validateDormantMembers {depth : Nat} : ∀ {path : QString} {members : List (QString × QJsonValue)},
    Clean (validateDormantMembers unicode path depth members) u ↔
      ∀ m ∈ members, (m.1.length ≤ 64 ∧ hasControl m.1 = false) ∧ Dormant unicode depth m.2
  | path, [] => by
    rw [validateDormantMembers]
    simp [clean_pure]
  | path, (key, v) :: rest => by
    rw [validateDormantMembers, List.forall_mem_cons]
    simp only [clean_bind, clean_rejectIf, clean_validateDormantSettingValue, clean_validateDormantMembers, exists_const,
      Bool.or_eq_false_iff, decide_eq_false_iff_not, not_lt, and_assoc]
end

/-- Settings that the check admits. -/
structure DormantSettings (unicode : UnicodeTables) (settings : QJsonObject) : Prop where
  count : settings.length ≤ 128
  values : ∀ m ∈ settings, isSettingKey m.1 = true ∧ Dormant unicode 0 m.2

theorem clean_validateDormantSettings {settings : QJsonObject} :
    Clean (validateDormantSettings unicode settings path) u ↔ DormantSettings unicode settings := by
  unfold validateDormantSettings
  split_ifs with hcount
  · refine iff_of_false clean_addError fun h => ?_
    have := h.count
    omega
  · rw [show u = () from rfl, clean_errors, forEach_errors_iff]
    have hone (m : QString × QJsonValue) : (do
        rejectIf (!isSettingKey m.1) (issue (Components.childPath path m.1) "component-config.invalid-setting-key"
          "Setting keys must use bounded lower camel-case ASCII.")
        validateDormantSettingValue unicode (Components.childPath path m.1) 0 m.2 : Reads Unit).errors = [] ↔
        isSettingKey m.1 = true ∧ Dormant unicode 0 m.2 := by
      rw [← clean_errors, clean_bind]
      simp only [clean_rejectIf, Bool.not_eq_false', clean_validateDormantSettingValue, exists_const]
    simp only [hone]
    exact ⟨fun h => ⟨by omega, h⟩, DormantSettings.values⟩

/-- Texts without control characters and numbers that keep their value. -/
abbrev Exact : QJsonValue → Prop := Valid (fun text => hasControl text = false) fun x => isStoredNumber x = true

theorem isStoredText_iff {text : QString} : isStoredText unicode text = true ↔
    text.length ≤ 4096 ∧ hasControl text = false ∧ text = unicode.normalized text := by
  simp [isStoredText, and_assoc]

theorem Dormant.exact {depth : Nat} {v : QJsonValue} (h : Dormant unicode depth v) (hv : Regular v) : Exact v := by
  induction h with
  | bool | null => trivial
  | undefined => exact hv
  | string _ htext => exact (isStoredText_iff.mp htext).2.1
  | double _ hnumber => exact hnumber
  | array _ _ _ ih => exact validItems_iff.mpr fun item hitem => ih item hitem (validItems_iff.mp hv item hitem)
  | object _ _ hkeys _ ih =>
    exact ⟨hv.1, validMembers_iff.mpr fun m hm => ⟨(hkeys m hm).2, ih m hm (validMembers_iff.mp hv.2 m hm).2⟩⟩

theorem Dormant.nesting_le {depth : Nat} {v : QJsonValue} (h : Dormant unicode depth v) : nesting v + depth ≤ 9 := by
  induction h with
  | @array depth items hdepth _ hitems ih =>
    have := @itemsNesting_le items (8 - depth) fun item hitem => by
      have := ih item hitem
      omega
    rw [nesting]
    omega
  | @object depth members hdepth _ _ hvalues ih =>
    have := @membersNesting_le members (8 - depth) fun m hm => by
      have := ih m hm
      omega
    rw [nesting]
    omega
  | _ => simp only [nesting]; omega

end Dormant

section Forms
variable {unicode : UnicodeTables} {d : SettingDefinition} {v w : QJsonValue} {path : QString}

/-- A plain text without control characters passes the check. -/
theorem dormant_string {text : QString} {depth : Nat} (hdepth : depth ≤ 8) (hlength : text.length ≤ 4096)
    (hform : text = unicode.normalized text) (hcontrol : hasControl text = false) : Dormant unicode depth (.string text) :=
  .string hdepth (isStoredText_iff.mpr ⟨hlength, hcontrol, hform⟩)

theorem colorText_units {s : QString} (h : hasMatch colorPattern s = true) : s.length ≤ 10 ∧ ∀ u ∈ s, u.toNat < 0x80 := by
  have hshape {t : List Nat} (ht : ColorText t) : t.length ≤ 9 ∧ ∀ c ∈ t, c < 0x80 := by
    obtain ⟨rest, rfl, hlength, hrest⟩ := ht
    refine ⟨by rw [List.length_cons]; omega, fun c hc => ?_⟩
    rcases List.mem_cons.mp hc with rfl | hc
    · decide
    · have := hrest c hc
      simp only [IsAnyHex, IsDigit] at this
      omega
  have hunits (hall : ∀ c ∈ units s, c < 0x80) : ∀ u ∈ s, u.toNat < 0x80 := fun u hu => hall _ (List.mem_map_of_mem hu)
  have hlength : (units s).length = s.length := List.length_map _
  rw [hasMatch_iff (fun _ => language_color) fun t ht c hc => Nat.lt_trans ((hshape ht).2 c hc) (by decide)] at h
  rcases h with h | ⟨t, ht, h⟩
  · obtain ⟨hle, hall⟩ := hshape h
    exact ⟨by omega, hunits hall⟩
  · obtain ⟨hle, hall⟩ := hshape h
    have := congrArg List.length ht
    rw [List.length_append, List.length_singleton] at this
    refine ⟨by omega, hunits ?_⟩
    rw [ht]
    exact List.forall_mem_append.mpr ⟨hall, by simp⟩

theorem canonicalModifiers_plain {modifier : QString} (h : modifier ∈ canonicalModifiers) :
    modifier.length ≤ 4096 ∧ hasControl modifier = false ∧ ∀ u ∈ modifier, u.toNat < 0x80 := by
  have hall : canonicalModifiers.all (fun m => decide (m.length ≤ 4096) && !hasControl m && m.all fun u => decide (u.toNat < 0x80)) =
      true := by decide +kernel
  simpa [and_assoc] using List.all_eq_true.mp hall modifier h

theorem keybindingValue_dormant {seen : List QString} {key : QString} (hlength : key.length ≤ 64)
    (hform : key = unicode.normalized key) (hu : unicode.Documented) (h : Exact (keybindingValue (inOrder seen) key)) :
    Dormant unicode 0 (keybindingValue (inOrder seen) key) := by
  have hmembers : (QJsonObject.ofList [(qstr "modifiers", .array ((inOrder seen).map .string)), (qstr "key", .string key)]).Perm
      [(qstr "modifiers", .array ((inOrder seen).map .string)), (qstr "key", .string key)] :=
    QJsonObject.ofList_perm (by simp) (by simp)
  obtain ⟨hknown, -, hcount⟩ := inOrder_names seen
  refine .object (by decide) (by rw [hmembers.length_eq]; simp) ?_ ?_
  · intro m hm
    simp only [hmembers.mem_iff, List.mem_cons, List.not_mem_nil, or_false] at hm
    rcases hm with rfl | rfl
    · exact (by decide : (qstr "modifiers").length ≤ 64 ∧ hasControl (qstr "modifiers") = false)
    · exact (by decide : (qstr "key").length ≤ 64 ∧ hasControl (qstr "key") = false)
  · intro m hm
    have hexact := (validMembers_iff.mp h.2 m hm).2
    simp only [hmembers.mem_iff, List.mem_cons, List.not_mem_nil, or_false] at hm
    rcases hm with rfl | rfl
    · refine .array (by decide) (by rw [List.length_map]; omega) ?_
      rintro _ hitem
      obtain ⟨modifier, hmodifier, rfl⟩ := List.mem_map.mp hitem
      obtain ⟨hshort, hcontrol, hascii⟩ := canonicalModifiers_plain (hknown _ hmodifier)
      exact dormant_string (by decide) hshort (hu.normalized_ascii _ hascii).symm hcontrol
    · exact dormant_string (by decide) (by omega) hform hexact

theorem normalizeKeybinding_length (h : (normalizeKeybinding unicode v path).value = some w) :
    v = .null ∨ (keybindingKey v).length ≤ 64 := by
  unfold normalizeKeybinding at h
  dsimp only at h
  split_ifs at h with hnull hobject herrors
  · cases v with
    | null => exact .inl rfl
    | _ => cases hnull
  · cases h
  · simp only [ne_eq, bind_errors, List.append_eq_nil_iff, rejectIf_errors, not_not] at herrors
    obtain ⟨-, -, hkey, -⟩ := herrors
    simp only [Bool.or_eq_false_iff, decide_eq_false_iff_not] at hkey
    exact .inr (not_lt.mp hkey.1.2)

/-- A value of the configuration or a default: its texts are in form C. -/
structure Settled (unicode : UnicodeTables) (d : SettingDefinition) (v : QJsonValue) : Prop where
  key : d.type = .keybinding → keybindingKey v = unicode.normalized (keybindingKey v)
  portal : d.type = .file ∨ d.type = .directory → v.toString = unicode.normalized v.toString ∧ v.toString.length ≤ 4096

theorem Settled.of_dormant (hu : unicode.Documented) (h : Dormant unicode 0 v) : Settled unicode d v := by
  have hempty : unicode.normalized [] = [] := hu.normalized_ascii [] (by simp)
  have htext {depth : Nat} {x : QJsonValue} (hx : Dormant unicode depth x) :
      x.toString = unicode.normalized x.toString ∧ x.toString.length ≤ 4096 := by
    cases hx with
    | string _ htext =>
      obtain ⟨hlength, -, hform⟩ := isStoredText_iff.mp htext
      exact ⟨hform, hlength⟩
    | _ => exact ⟨hempty.symm, by simp [QJsonValue.toString]⟩
  refine ⟨fun _ => ?_, fun _ => htext h⟩
  unfold keybindingKey
  cases h with
  | @object _ members _ _ _ hvalues =>
    rw [show (QJsonValue.object members).toObject = members from rfl]
    cases hlookup : List.lookup (qstr "key") members with
    | none => rw [show QJsonObject.value members (qstr "key") = .undefined from congrArg (Option.getD · _) hlookup]; exact hempty.symm
    | some x =>
      rw [show QJsonObject.value members (qstr "key") = x from congrArg (Option.getD · _) hlookup]
      exact (htext (hvalues _ (mem_of_lookup_eq_some hlookup))).1
  | _ => exact hempty.symm

theorem Settled.of_default (hu : unicode.Documented) (hd : SoundDefinition unicode d) : Settled unicode d d.defaultValue := by
  have hempty : unicode.normalized [] = [] := hu.normalized_ascii [] (by simp)
  refine ⟨fun htype => ?_, fun htype => ?_⟩
  · obtain ⟨v, path, hv⟩ := hd.default
    rw [normalizeSettingValue, htype] at hv
    rcases normalizeKeybinding_cases hv with ⟨-, hnull⟩ | ⟨-, -, -, seen, hkey⟩
    · rw [hnull]
      exact hempty.symm
    · rw [hkey, keybindingKey_value, hu.normalized_idem]
  · rw [hd.portal htype]
    exact ⟨hempty.symm, by simp [QJsonValue.toString]⟩

theorem Settled.bounded (hv : Settled unicode d v) (h : (normalizeSettingValue unicode d v path).value = some w) :
    BoundedInFormC unicode d v := by
  unfold BoundedInFormC
  cases htype : d.type with
  | keybinding =>
    dsimp only
    rw [← hv.key htype]
    rw [normalizeSettingValue, htype] at h
    rcases normalizeKeybinding_length h with rfl | hlength
    · exact Nat.zero_le _
    · exact hlength
  | file =>
    dsimp only
    obtain ⟨hform, hlength⟩ := hv.portal (.inl htype)
    rwa [← hform]
  | directory =>
    dsimp only
    obtain ⟨hform, hlength⟩ := hv.portal (.inr htype)
    rwa [← hform]
  | _ => trivial

/-- A normal form passes the check of dormant values if its texts and numbers are exact. -/
theorem Settled.dormant (hu : unicode.Documented) (hd : SoundDefinition unicode d) (hv : Settled unicode d v)
    (h : (normalizeSettingValue unicode d v path).value = some w) (hw : Exact w) : Dormant unicode 0 w := by
  cases normalizeSettingValue_iff.mp h with
  | boolean b _ => exact .bool b (by decide)
  | number _ _ _ _ _ _ => exact .double (by decide) hw
  | @string s least most htype hleast hmost _ hshort _ =>
    obtain ⟨_, most', -, hmost', -, -, hlimit⟩ := hd.length htype
    obtain rfl := Option.some_inj.mp (hmost.symm.trans hmost')
    exact dormant_string (by decide) (hshort.trans hlimit) (hu.normalized_idem s).symm hw
  | @enumeration s htype hoption =>
    obtain ⟨option, hmem, heq⟩ := List.any_eq_true.mp hoption
    have hlength := ((hd.options htype).texts option hmem).1.length
    rw [of_decide_eq_true heq] at hlength
    exact dormant_string (by decide) (by omega) (hu.normalized_idem s).symm hw
  | color _ hcolor =>
    obtain ⟨hlength, hascii⟩ := colorText_units (isColor_upper hcolor)
    exact dormant_string (by decide) (by omega) (hu.normalized_ascii _ hascii).symm hw
  | keybinding htype hkeybinding =>
    have hbounded := hv.bounded h
    rw [BoundedInFormC, htype] at hbounded
    rcases normalizeKeybinding_cases hkeybinding with ⟨-, rfl⟩ | ⟨-, -, -, seen, rfl⟩
    · exact .null (by decide)
    · exact keybindingValue_dormant hbounded (hu.normalized_idem _).symm hu hw
  | noSelection _ => exact .null (by decide)
  | @selection s htype hlength _ =>
    obtain ⟨hform, -⟩ := hv.portal htype
    have hform : s = unicode.normalized s := hform
    rw [← hform] at hw ⊢
    exact dormant_string (by decide) hlength hform hw

end Forms

section Runs
variable {unicode : UnicodeTables} {schema : SettingsSchema} {scope : SettingScope} {raw n : QJsonObject} {applyDefaults : Bool}

theorem soundSettings_keys {settings : List SettingDefinition} (h : SoundSettings unicode settings) :
    (settings.map (·.key)).Nodup ∧ ∀ d ∈ settings, SoundDefinition unicode d := by
  induction h with
  | nil => simp
  | snoc _ hnew hsound _ ih =>
    rw [List.map_append, List.nodup_append]
    refine ⟨⟨ih.1, List.nodup_singleton _, ?_⟩, ?_⟩
    · rintro k hk l hl rfl
      obtain ⟨e, he, rfl⟩ := List.mem_map.mp hk
      exact hnew e he (by simpa using hl)
    · intro e he
      rcases List.mem_append.mp he with he | he
      · exact ih.2 e he
      · exact List.mem_singleton.mp he ▸ hsound

/-- Each value of normalized settings is the normal form of a settled one. -/
theorem normalized_members (hu : unicode.Documented) (hschema : SoundSchema unicode schema) (hraw : DormantSettings unicode raw)
    (h : (normalizeSettings unicode schema scope raw applyDefaults).value = some n) :
    n.Sorted ∧ ∀ k w, n.lookup k = some w → ∃ d ∈ schema.inScope scope, d.key = k ∧ ∃ v,
      usedValue raw applyDefaults d = some v ∧ Settled unicode d v ∧ normalForm unicode d v = some w := by
  obtain ⟨hkeys, hsound⟩ := soundSettings_keys hschema.settings
  have hrun := filled (inScope_keys hkeys) ((normalizeSettings_iff hkeys).mp h).2
  refine ⟨hrun.sorted sorted_nil, fun k w hlookup => ?_⟩
  by_cases hk : k ∈ (schema.inScope scope).map (·.key)
  · obtain ⟨d, hd, rfl⟩ := List.mem_map.mp hk
    cases hused : usedValue raw applyDefaults d with
    | none =>
      rw [hrun.unused d hd hused] at hlookup
      cases hlookup
    | some v =>
      obtain ⟨w', hw, hlookup'⟩ := hrun.used d hd v hused
      obtain rfl := Option.some_inj.mp (hlookup'.symm.trans hlookup)
      refine ⟨d, hd, rfl, v, hused, ?_, hw⟩
      unfold usedValue at hused
      split_ifs at hused with hcontains hdefaults
      · obtain rfl := Option.some_inj.mp hused
        obtain ⟨x, hx⟩ := Option.isSome_iff_exists.mp hcontains
        rw [value_of_lookup hx]
        exact .of_dormant hu (hraw.values _ (mem_of_lookup_eq_some hx)).2
      · obtain rfl := Option.some_inj.mp hused
        exact .of_default hu (hsound d (mem_inScope.mp hd).1)
  · rw [hrun.others k hk] at hlookup
    cases hlookup

/-- Normalized settings are kept when they are normalized again. -/
theorem normalizeSettings_kept (hu : unicode.Documented) (hk : unicode.KeepsText) (hschema : SoundSchema unicode schema)
    (hraw : DormantSettings unicode raw) (h : (normalizeSettings unicode schema scope raw applyDefaults).value = some n) :
    (normalizeSettings unicode schema scope n applyDefaults).value = some n := by
  obtain ⟨hkeys, -⟩ := soundSettings_keys hschema.settings
  refine (normalizeSettings_again hu hk hkeys h).mpr ⟨rfl, fun d hd v hused => ?_⟩
  have hrun := filled (inScope_keys hkeys) ((normalizeSettings_iff hkeys).mp h).2
  obtain ⟨w, hw, hlookup⟩ := hrun.used d hd v hused
  obtain ⟨e, he, hkey, v', hused', hsettled, hw'⟩ := (normalized_members hu hschema hraw h).2 _ _ hlookup
  obtain rfl := List.inj_on_of_nodup_map (inScope_keys hkeys) he hd hkey
  obtain rfl := Option.some_inj.mp (hused'.symm.trans hused)
  exact hsettled.bounded hw'

/-- They pass the check of dormant ones exactly when their texts and numbers are exact. -/
theorem normalizeSettings_dormant (hu : unicode.Documented) (hschema : SoundSchema unicode schema)
    (hraw : DormantSettings unicode raw) (h : (normalizeSettings unicode schema scope raw applyDefaults).value = some n)
    (hn : Regular (.object n)) : DormantSettings unicode n ↔ ∀ m ∈ n, Exact m.2 := by
  obtain ⟨-, hsound⟩ := soundSettings_keys hschema.settings
  obtain ⟨hsorted, hmembers⟩ := normalized_members hu hschema hraw h
  constructor
  · exact fun hdormant m hm => (hdormant.values m hm).2.exact (validMembers_iff.mp hn.2 m hm).2
  · intro hexact
    refine ⟨?_, fun m hm => ?_⟩
    · have hsubset : n.keys ⊆ (schema.inScope scope).map (·.key) := by
        intro k hk
        obtain ⟨w, hw⟩ := Option.ne_none_iff_exists'.mp (mem_keys.mp hk)
        obtain ⟨d, hd, rfl, -⟩ := hmembers k w hw
        exact List.mem_map_of_mem hd
      have hlength := (List.subperm_of_subset (keys_nodup hsorted) hsubset).length_le
      rw [keys, List.length_map, List.length_map] at hlength
      exact hlength.trans ((List.length_filter_le _ _).trans hschema.count)
    · obtain ⟨d, hd, hkey, v, -, hsettled, hw⟩ := hmembers m.1 m.2 (lookup_eq_some_of_mem hsorted hm)
      have hd := hsound d (mem_inScope.mp hd).1
      exact ⟨hkey ▸ hd.key, hsettled.dormant hu hd hw (hexact m hm)⟩

end Runs

section Texts
variable {number : NumberText} {unicode : UnicodeTables} {d : SettingDefinition} {v w : QJsonValue} {path : QString}

theorem isText_ascii {s : QString} (h : ∀ u ∈ s, u.toNat < 0x80) : IsText s := by
  refine isText_plain fun u hu => ?_
  have := h u hu
  simp only [isHighSurrogate, isLowSurrogate, Bool.and_eq_false_imp, decide_eq_true_eq, decide_eq_false_iff_not]
  omega

theorem isText_keybindingKey (hv : Persistable number v) : IsText (keybindingKey v) := by
  unfold keybindingKey
  cases v with
  | object members =>
    rw [show (QJsonValue.object members).toObject = members from rfl]
    cases hlookup : List.lookup (qstr "key") members with
    | none =>
      rw [show QJsonObject.value members (qstr "key") = .undefined from congrArg (Option.getD · _) hlookup]
      exact isText_nil
    | some x =>
      rw [show QJsonObject.value members (qstr "key") = x from congrArg (Option.getD · _) hlookup]
      have hx : Persistable number x := (validMembers_iff.mp hv.2 _ (mem_of_lookup_eq_some hlookup)).2
      cases x with
      | string text => exact hx
      | _ => exact isText_nil
  | _ => exact isText_nil

/-- What can be written and read again can be after it is normalized. -/
theorem normalForm_persistable (hu : unicode.Documented) (h : (normalizeSettingValue unicode d v path).value = some w)
    (hv : Persistable number v) : Persistable number w := by
  cases normalizeSettingValue_iff.mp h with
  | boolean _ _ | noSelection _ => trivial
  | number _ _ _ _ _ _ => exact hv
  | string _ _ _ _ _ _ | enumeration _ _ | selection _ _ _ => exact hu.normalized_text _ hv
  | color _ hcolor => exact isText_ascii (colorText_units (isColor_upper hcolor)).2
  | keybinding _ hkeybinding =>
    rcases normalizeKeybinding_cases hkeybinding with ⟨-, rfl⟩ | ⟨-, -, -, seen, rfl⟩
    · trivial
    · refine valid_ofList ?_
      simp only [List.forall_mem_cons, List.not_mem_nil, false_implies, implies_true, and_true]
      refine ⟨⟨isText_qstr _, validItems_iff.mpr ?_⟩, isText_qstr _, hu.normalized_text _ (isText_keybindingKey hv)⟩
      rintro _ hitem
      obtain ⟨modifier, hmodifier, rfl⟩ := List.mem_map.mp hitem
      exact isText_ascii (canonicalModifiers_plain ((inOrder_names seen).1 _ hmodifier)).2.2

theorem settingKey_ascii {key : QString} (h : isSettingKey key = true) : ∀ u ∈ key, u.toNat < 0x80 := by
  have hascii (t : List Nat) (ht : settingKeyPattern.Language t) : ∀ c ∈ t, c < 0x80 := by
    obtain ⟨first, rest, rfl, hfirst, hrest⟩ := ht
    have hclass (c : Nat) (hc : Pattern.among [('A', 'Z'), ('a', 'z'), ('0', '9')] c = true) : c < 0x80 := by
      simp only [Pattern.among, List.any_cons, List.any_nil, Bool.or_false, Bool.or_eq_true, Bool.and_eq_true, decide_eq_true_eq,
        show 'Z'.toNat = 0x5a from rfl, show 'z'.toNat = 0x7a from rfl, show '9'.toNat = 0x39 from rfl] at hc
      omega
    have hlower (c : Nat) (hc : Pattern.among [('a', 'z')] c = true) : c < 0x80 := by
      simp only [Pattern.among, List.any_cons, List.any_nil, Bool.or_false, Bool.and_eq_true, decide_eq_true_eq,
        show 'z'.toNat = 0x7a from rfl] at hc
      omega
    exact List.forall_mem_append.mpr ⟨fun c hc => hlower c (hfirst.1 c hc), fun c hc => hclass c (hrest.1 c hc)⟩
  have hunits (hall : ∀ c ∈ units key, c < 0x80) : ∀ u ∈ key, u.toNat < 0x80 := fun u hu => hall _ (List.mem_map_of_mem hu)
  rw [isSettingKey, hasMatch_iff (fun _ => Iff.rfl) fun t ht c hc => Nat.lt_trans (hascii t ht c hc) (by decide)] at h
  rcases h with h | ⟨t, ht, h⟩
  · exact hunits (hascii _ h)
  · refine hunits ?_
    rw [ht]
    exact List.forall_mem_append.mpr ⟨hascii t h, by simp⟩

/-- Defaults that can be written and read again. -/
def PersistableDefaults (number : NumberText) (schema : SettingsSchema) : Prop :=
  ∀ d ∈ schema.settings, Persistable number d.defaultValue

theorem normalizeSettingValue_undefined : (normalizeSettingValue unicode d .undefined path).value = none := by
  unfold normalizeSettingValue
  cases d.type <;> rfl

theorem parseSettingsSchema_persistable {bytes : QByteArray} {schema : SettingsSchema} (hu : unicode.Documented)
    (h : (parseSettingsSchema unicode number bytes).value = some schema) : PersistableDefaults number schema := by
  obtain ⟨-, root, hroot, hdefaults⟩ := parseSettingsSchema_object h
  intro d hd
  obtain ⟨item, hitem, path, hdefault⟩ := hdefaults d hd
  refine normalForm_persistable hu hdefault ?_
  have hvalue {o : QJsonObject} (ho : Persistable number (.object o)) (k : QString) (hdefined : o.value k ≠ .undefined) :
      Persistable number (o.value k) :=
    (validMembers_iff.mp ho.2 _ (mem_of_lookup_eq_some (lookup_of_value rfl hdefined))).2
  have hitem : Persistable number item := by
    cases hsettings : root.value (qstr "settings") with
    | array items =>
      rw [hsettings] at hitem
      have := hvalue hroot (qstr "settings") (by rw [hsettings]; simp)
      rw [hsettings] at this
      exact validItems_iff.mp this item hitem
    | _ =>
      rw [hsettings] at hitem
      cases hitem
  cases item with
  | object members =>
    refine hvalue hitem _ fun hundefined => ?_
    rw [show (QJsonValue.object members).toObject = members from rfl, hundefined, normalizeSettingValue_undefined] at hdefault
    cases hdefault
  | _ =>
    rw [show QJsonObject.value _ (qstr "default") = .undefined from rfl, normalizeSettingValue_undefined] at hdefault
    cases hdefault

theorem normalizeSettings_persistable {schema : SettingsSchema} {scope : SettingScope} {raw n : QJsonObject} {applyDefaults : Bool}
    (hu : unicode.Documented) (hschema : SoundSchema unicode schema) (hdefaults : PersistableDefaults number schema)
    (hdormant : DormantSettings unicode raw) (hraw : Persistable number (.object raw))
    (h : (normalizeSettings unicode schema scope raw applyDefaults).value = some n) : Persistable number (.object n) := by
  obtain ⟨-, hsound⟩ := soundSettings_keys hschema.settings
  obtain ⟨hsorted, hmembers⟩ := normalized_members hu hschema hdormant h
  refine ⟨hsorted, validMembers_iff.mpr fun m hm => ?_⟩
  obtain ⟨d, hd, hkey, v, hused, -, hw⟩ := hmembers m.1 m.2 (lookup_eq_some_of_mem hsorted hm)
  have hd := (mem_inScope.mp hd).1
  refine ⟨hkey ▸ isText_ascii (settingKey_ascii (hsound d hd).key), normalForm_persistable hu hw ?_⟩
  unfold usedValue at hused
  split_ifs at hused with hcontains happly
  · obtain rfl := Option.some_inj.mp hused
    obtain ⟨x, hx⟩ := Option.isSome_iff_exists.mp hcontains
    rw [value_of_lookup hx]
    exact (validMembers_iff.mp hraw.2 _ (mem_of_lookup_eq_some hx)).2
  · exact Option.some_inj.mp hused ▸ hdefaults d hd

end Texts

end HyprShelld.Configuration
