import HyprShelld.Component.Identifiers
import HyprShelld.Component.SchemaParser

/-! Settings that were normalized once: what becomes of them when they are normalized again. -/
namespace HyprShelld.Components
open QJsonObject

/-- What the Unicode standard promises of normalization form C besides: a text does not vanish, and
no control character comes in. -/
structure UnicodeTables.KeepsText (t : UnicodeTables) : Prop where
  nonempty : ∀ s, s ≠ [] → t.normalized s ≠ []
  control : ∀ s, hasControl s = false → hasControl (t.normalized s) = false

section Colors

def upperCode (c : Nat) : Nat := if 0x61 ≤ c ∧ c ≤ 0x7a then c - 0x20 else c

theorem units_upperColor (s : QString) : units (upperColor s) = (units s).map upperCode := by
  simp only [units, upperColor, List.map_map]
  refine List.map_congr_left fun u _ => ?_
  simp only [Function.comp_apply, upperCode]
  split_ifs with h
  · rw [UInt16.toNat_sub_of_le]
    · rfl
    · rw [UInt16.le_iff_toNat_le]
      exact Nat.le_trans (by decide) h.1
  · rfl

theorem upperColor_upperColor (s : QString) : upperColor (upperColor s) = upperColor s := by
  have hcode (c : Nat) : upperCode (upperCode c) = upperCode c := by
    unfold upperCode
    split_ifs <;> omega
  refine (List.map_injective_iff.mpr fun _ _ => UInt16.toNat_inj.mp) ?_
  change units (upperColor (upperColor s)) = units (upperColor s)
  rw [units_upperColor, units_upperColor, List.map_map]
  exact List.map_congr_left fun c _ => hcode c

def IsAnyHex (c : Nat) : Prop := IsDigit c ∨ 0x41 ≤ c ∧ c ≤ 0x46 ∨ 0x61 ≤ c ∧ c ≤ 0x66

/-- A hash sign and six or eight hexadecimal digits. -/
def ColorText (t : List Nat) : Prop := ∃ rest, t = 0x23 :: rest ∧ (rest.length = 6 ∨ rest.length = 8) ∧ ∀ c ∈ rest, IsAnyHex c

theorem language_color {t : List Nat} : colorPattern.Language t ↔ ColorText t := by
  have hhex (c : Nat) : Pattern.among [('0', '9'), ('A', 'F'), ('a', 'f')] c = true ↔ IsAnyHex c := by
    simp [Pattern.among, IsAnyHex, IsDigit]
  simp only [colorPattern, Pattern.sequenceOf, List.foldr_cons, List.foldr_nil, Pattern.optional]
  simp only [Pattern.Language, Pattern.text, language_exact, hhex]
  constructor
  · rintro ⟨_, _, rfl, rfl, a, _, rfl, ⟨ha, hahex⟩, b, _, rfl, hb, rfl⟩
    rcases hb with ⟨hb, hbhex⟩ | rfl
    · refine ⟨a ++ b, by simp, .inr (by simp [ha, hb]), fun c hc => ?_⟩
      exact (List.mem_append.mp hc).elim (hahex c) (hbhex c)
    · exact ⟨a, by simp, .inl ha, hahex⟩
  · rintro ⟨rest, rfl, hlength, hrest⟩
    refine ⟨[0x23], rest, rfl, rfl, rest.take 6, rest.drop 6, (List.take_append_drop 6 rest).symm, ⟨?_, fun c hc => ?_⟩,
      rest.drop 6, [], (List.append_nil _).symm, ?_, rfl⟩
    · rw [List.length_take]
      omega
    · exact hrest c (List.mem_of_mem_take hc)
    · rcases hlength with hlength | hlength
      · exact .inr (List.drop_eq_nil_of_le hlength.le)
      · exact .inl ⟨by rw [List.length_drop, hlength], fun c hc => hrest c (List.mem_of_mem_drop hc)⟩

theorem isColor_upper {s : QString} (h : hasMatch colorPattern s = true) : hasMatch colorPattern (upperColor s) = true := by
  have hbasic (t : List Nat) (ht : ColorText t) : ∀ c ∈ t, c < 0xd800 := by
    obtain ⟨rest, rfl, -, hrest⟩ := ht
    intro c hc
    rcases List.mem_cons.mp hc with rfl | hc
    · decide
    · have := hrest c hc
      simp only [IsAnyHex, IsDigit] at this
      omega
  have hupper (t : List Nat) (ht : ColorText t) : ColorText (t.map upperCode) := by
    obtain ⟨rest, rfl, hlength, hrest⟩ := ht
    refine ⟨rest.map upperCode, rfl, by rwa [List.length_map], fun d hd => ?_⟩
    obtain ⟨c, hc, rfl⟩ := List.mem_map.mp hd
    have := hrest c hc
    simp only [IsAnyHex, IsDigit, upperCode] at this ⊢
    split_ifs <;> omega
  rw [hasMatch_iff (fun _ => language_color) hbasic] at h ⊢
  rw [units_upperColor]
  rcases h with h | ⟨u, hu, h⟩
  · exact .inl (hupper _ h)
  · exact .inr ⟨u.map upperCode, by rw [hu, List.map_append]; rfl, hupper u h⟩

end Colors

section Keybindings
variable {unicode : UnicodeTables}

/-- Names of modifiers, each once, are read as they are. -/
theorem checkModifiers_names {path : QString} {index : Nat} {seen names : List QString}
    (hknown : ∀ m ∈ names, m ∈ canonicalModifiers) (hnodup : names.Nodup) (hnew : ∀ m ∈ names, m ∉ seen) :
    checkModifiers path index seen (names.map .string) = ⟨names.reverse ++ seen, []⟩ := by
  induction names generalizing index seen with
  | nil => rfl
  | cons m rest ih =>
    obtain ⟨hm, hknown⟩ := List.forall_mem_cons.mp hknown
    obtain ⟨hmnew, hnew⟩ := List.forall_mem_cons.mp hnew
    rw [List.nodup_cons] at hnodup
    have hrest := @ih (index + 1) (m :: seen) hknown hnodup.2 fun x hx => by
      rw [List.mem_cons, not_or]
      exact ⟨fun h => hnodup.1 (h ▸ hx), hnew x hx⟩
    have hcontains : canonicalModifiers.contains m = true := List.contains_iff_mem.mpr hm
    have hfresh : seen.contains m = false := by simpa using hmnew
    rw [List.map_cons, checkModifiers]
    simp only [QJsonValue.isString, QJsonValue.toString, hcontains, hfresh, Bool.not_true, Bool.false_eq_true, if_false, hrest]
    rw [List.reverse_cons, List.append_assoc]
    rfl

def keybindingValue (names : List QString) (key : QString) : QJsonValue :=
  .object (QJsonObject.ofList [(qstr "modifiers", .array (names.map .string)), (qstr "key", .string key)])

def keybindingKey (value : QJsonValue) : QString := (QJsonObject.value value.toObject (qstr "key")).toString

/-- The names of modifiers in their canonical order. -/
def inOrder (seen : List QString) : List QString := canonicalModifiers.filter (List.contains seen)

/-- What a keybinding is normalized to. -/
theorem normalizeKeybinding_cases {value w : QJsonValue} {path : QString} (h : (normalizeKeybinding unicode value path).value = some w) :
    value = .null ∧ w = .null ∨ value ≠ .null ∧ keybindingKey value ≠ [] ∧ hasControl (keybindingKey value) = false ∧
      ∃ seen, w = keybindingValue (inOrder seen) (unicode.normalized (keybindingKey value)) := by
  unfold normalizeKeybinding at h
  dsimp only at h
  split_ifs at h with hnull hobject herrors
  · cases value with
    | null => exact .inl ⟨rfl, (Option.some_inj.mp h).symm⟩
    | _ => cases hnull
  · cases h
  · refine .inr ⟨?_, ?_⟩
    · rintro rfl
      exact hnull rfl
    · simp only [ne_eq, Checked.bind_errors, List.append_eq_nil_iff, Checked.rejectIf_errors, not_not] at herrors
      obtain ⟨-, -, hkey, -⟩ := herrors
      simp only [Bool.or_eq_false_iff, decide_eq_false_iff_not] at hkey
      exact ⟨hkey.1.1.2, hkey.2, _, (Option.some_inj.mp h).symm⟩

theorem inOrder_names (seen : List QString) :
    (∀ m ∈ inOrder seen, m ∈ canonicalModifiers) ∧ (inOrder seen).Nodup ∧ (inOrder seen).length ≤ 5 := by
  have hnodup : canonicalModifiers.Nodup := by decide
  exact ⟨fun m hm => (List.mem_filter.mp hm).1, hnodup.filter _, List.length_filter_le _ _⟩

/-- The modifiers read from names in order are those names. -/
theorem inOrder_inOrder (seen : List QString) : inOrder (inOrder seen).reverse = inOrder seen := by
  refine List.filter_congr fun m hm => ?_
  rw [List.contains_eq_mem, List.contains_eq_mem]
  refine decide_eq_decide.mpr ?_
  rw [List.mem_reverse, inOrder, List.mem_filter, List.contains_iff_mem, and_iff_right hm]

theorem keybindingValue_members (names : List QString) (key : QString) :
    ∃ object : QJsonObject, keybindingValue names key = .object object ∧
      object.value (qstr "modifiers") = .array (names.map .string) ∧ object.value (qstr "key") = .string key ∧
      ∀ k ∈ object.keys, k ∈ [qstr "modifiers", qstr "key"] := by
  have hkeys : ([(qstr "modifiers", QJsonValue.array (names.map .string)), (qstr "key", .string key)].map (·.1)).Nodup := by
    simp only [List.map_cons, List.map_nil]
    decide
  have hdefined : ∀ m ∈ [(qstr "modifiers", QJsonValue.array (names.map .string)), (qstr "key", .string key)], m.2 ≠ .undefined := by
    simp
  refine ⟨_, rfl, ?_, ?_, fun k hk => ?_⟩
  · rw [value_ofList hkeys hdefined, lookup_cons_ite, if_pos rfl]
    rfl
  · rw [value_ofList hkeys hdefined, lookup_cons_ite, if_neg (by decide), lookup_cons_ite, if_pos rfl]
    rfl
  · exact (keys_ofList hkeys hdefined).subset hk

/-- A keybinding in normal form is read as it is, except for the length of its key. -/
theorem normalizeKeybinding_inOrder {seen : List QString} {key path : QString} (hkey : key ≠ []) (hcontrol : hasControl key = false) :
    (normalizeKeybinding unicode (keybindingValue (inOrder seen) key) path).value =
      if key.length ≤ 64 then some (keybindingValue (inOrder seen) (unicode.normalized key)) else none := by
  obtain ⟨object, hobject, hmodifiers, hvalue, hfields⟩ := keybindingValue_members (inOrder seen) key
  obtain ⟨hknown, hnodup, hlength⟩ := inOrder_names seen
  have hread := @checkModifiers_names path 0 [] _ hknown hnodup (by simp)
  have hunknown : (rejectUnknownSettingFields object [qstr "modifiers", qstr "key"] path).errors = [] := by
    rw [rejectUnknownSettingFields, Checked.reportAll_errors, List.map_eq_nil_iff, List.filter_eq_nil_iff]
    intro k hk
    simpa [or_iff_not_imp_left] using hfields k hk
  rw [hobject]
  unfold normalizeKeybinding
  rw [if_neg (by simp [QJsonValue.isNull]), if_neg (by simp [QJsonValue.isObject])]
  dsimp only [QJsonValue.toObject]
  have hstring : (object.value (qstr "key")).isString = true := by rw [hvalue]; rfl
  have htext : (object.value (qstr "key")).toString = key := by rw [hvalue]; rfl
  have harray : (object.value (qstr "modifiers")).isArray = true := by rw [hmodifiers]; rfl
  have hitems : (object.value (qstr "modifiers")).toArray = (inOrder seen).map QJsonValue.string := by rw [hmodifiers]; rfl
  simp only [hstring, htext, harray, hitems, hread, Checked.bind_errors, Checked.bind_value, hunknown]
  have hmap : ¬5 < ((inOrder seen).map QJsonValue.string).length := by rw [List.length_map]; omega
  simp only [Bool.not_true, Bool.false_or, List.append_nil, List.nil_append, ne_eq, List.append_eq_nil_iff, Checked.rejectIf_errors,
    decide_eq_false_iff_not, Bool.or_eq_false_iff, hmap, hkey, hcontrol, not_false_eq_true, true_and, and_true]
  by_cases hlength : key.length ≤ 64
  · rw [if_neg (not_not.mpr (not_lt.mpr hlength)), if_pos hlength]
    change some (keybindingValue (inOrder (inOrder seen).reverse) _) = _
    rw [inOrder_inOrder]
  · rw [if_pos (not_not.mpr (not_le.mp hlength)), if_neg hlength]

end Keybindings

section Values
variable {unicode : UnicodeTables} {definition : SettingDefinition} {v w w' : QJsonValue} {path path' s : QString}

/-- The limit that a value is held to before it is brought into form C holds of form C as well. -/
def BoundedInFormC (unicode : UnicodeTables) (definition : SettingDefinition) (v : QJsonValue) : Prop :=
  match definition.type with
  | .keybinding => (unicode.normalized (keybindingKey v)).length ≤ 64
  | .file | .directory => (unicode.normalized v.toString).length ≤ 4096
  | .boolean | .integer | .number | .string | .enumeration | .color => True

/-- Each type's values, with what they are normalized to. -/
inductive Normalizes (unicode : UnicodeTables) (definition : SettingDefinition) (path : QString) : QJsonValue → QJsonValue → Prop
  | boolean (b : Bool) : definition.type = .boolean → Normalizes unicode definition path (.bool b) (.bool b)
  | number {q least most : ℚ} : definition.type = .integer ∨ definition.type = .number →
    ¬ (definition.type = .integer ∧ !isExactJsonInteger q) → definition.minimum = some least → definition.maximum = some most →
    ¬ (q < least ∨ most < q) → ¬ definition.step.elim false (stepMismatch definition.type q least) = true →
    Normalizes unicode definition path (.double (.finite q)) (.double (.finite q))
  | string {s : QString} {least most : Nat} : definition.type = .string → definition.minimumLength = some least →
    definition.maximumLength = some most → least ≤ (unicode.normalized s).length → (unicode.normalized s).length ≤ most →
    hasControl (unicode.normalized s) = false → Normalizes unicode definition path (.string s) (.string (unicode.normalized s))
  | enumeration {s : QString} : definition.type = .enumeration → (definition.options.any (·.value = unicode.normalized s)) = true →
    Normalizes unicode definition path (.string s) (.string (unicode.normalized s))
  | color {s : QString} : definition.type = .color → hasMatch colorPattern s = true →
    Normalizes unicode definition path (.string s) (.string (upperColor s))
  | keybinding {v w : QJsonValue} : definition.type = .keybinding → (normalizeKeybinding unicode v path).value = some w →
    Normalizes unicode definition path v w
  | noSelection : definition.type = .file ∨ definition.type = .directory → Normalizes unicode definition path .null .null
  | selection {s : QString} : definition.type = .file ∨ definition.type = .directory → s.length ≤ 4096 → hasControl s = false →
    Normalizes unicode definition path (.string s) (.string (unicode.normalized s))

theorem normalizes_number (htype : definition.type = .integer ∨ definition.type = .number)
    (h : (normalizeNumber definition v path).value = some w) : Normalizes unicode definition path v w := by
  unfold normalizeNumber at h
  split at h
  · cases h
  · rename_i q hq
    split_ifs at h with hexact
    · cases h
    · split at h
      · rename_i least most hleast hmost
        split_ifs at h with hrange hstep
        · cases h
        · cases h
        · obtain rfl := Option.some_inj.mp h
          rw [QJsonValue.finite?_eq_some.mp hq]
          exact .number htype hexact hleast hmost hrange hstep
      · cases h

theorem normalizes_text (htype : definition.type = .string) (h : (normalizeText unicode definition v path).value = some w) :
    Normalizes unicode definition path v w := by
  unfold normalizeText at h
  dsimp only at h
  split_ifs at h with hstring hadmitted
  · cases h
  · cases h
  · obtain rfl := Option.some_inj.mp h
    simp only [Bool.or_eq_true, Bool.not_eq_true', not_or, Bool.not_eq_true, Bool.not_eq_false] at hadmitted
    obtain ⟨hcontrol, hlengths⟩ := hadmitted
    split at hlengths
    · rename_i least most hleast hmost
      simp only [Bool.and_eq_true, decide_eq_true_eq] at hlengths
      cases v with
      | string s => exact .string htype hleast hmost hlengths.1 hlengths.2 hcontrol
      | _ => exact absurd rfl hstring
    · cases hlengths

theorem normalizes_portal (htype : definition.type = .file ∨ definition.type = .directory)
    (h : (if v.isNull then acceptedValue .null
      else if !v.isString || 4096 < v.toString.length || hasControl v.toString then
        invalidValue path "settings-value.invalid-portal-selection" "A bounded portal selection string or null is required."
      else acceptedValue (.string (unicode.normalized v.toString))).value = some w) : Normalizes unicode definition path v w := by
  split_ifs at h with hnull hselection
  · obtain rfl := Option.some_inj.mp h
    cases v with
    | null => exact .noSelection htype
    | _ => cases hnull
  · cases h
  · obtain rfl := Option.some_inj.mp h
    simp only [Bool.or_eq_true, Bool.not_eq_true', decide_eq_true_eq, not_or, Bool.not_eq_false, Bool.not_eq_true] at hselection
    cases v with
    | string s => exact .selection htype (not_lt.mp hselection.1.2) hselection.2
    | _ => cases hselection.1.1

/-- The values that normalization takes, type by type. -/
theorem normalizeSettingValue_iff :
    (normalizeSettingValue unicode definition v path).value = some w ↔ Normalizes unicode definition path v w := by
  constructor
  · intro h
    cases htype : definition.type with
    | boolean =>
      rw [normalizeSettingValue, htype] at h
      dsimp only at h
      split_ifs at h with hbool
      · cases h
      · obtain rfl := Option.some_inj.mp h
        cases v with
        | bool b => exact .boolean b htype
        | _ => exact absurd rfl hbool
    | integer =>
      rw [normalizeSettingValue, htype] at h
      exact normalizes_number (.inl htype) h
    | number =>
      rw [normalizeSettingValue, htype] at h
      exact normalizes_number (.inr htype) h
    | string =>
      rw [normalizeSettingValue, htype] at h
      exact normalizes_text htype h
    | enumeration =>
      rw [normalizeSettingValue, htype] at h
      dsimp only at h
      split_ifs at h with hstring hoption
      · cases h
      · cases h
      · obtain rfl := Option.some_inj.mp h
        simp only [Bool.not_eq_true', Bool.not_eq_false] at hoption
        cases v with
        | string s => exact .enumeration htype hoption
        | _ => exact absurd rfl hstring
    | color =>
      rw [normalizeSettingValue, htype] at h
      dsimp only at h
      split_ifs at h with hcolor
      · cases h
      · obtain rfl := Option.some_inj.mp h
        simp only [Bool.or_eq_true, not_or, Bool.not_eq_true', Bool.not_eq_false] at hcolor
        cases v with
        | string s => exact .color htype hcolor.2
        | _ => cases hcolor.1
    | keybinding =>
      rw [normalizeSettingValue, htype] at h
      exact .keybinding htype h
    | file =>
      rw [normalizeSettingValue, htype] at h
      exact normalizes_portal (.inl htype) h
    | directory =>
      rw [normalizeSettingValue, htype] at h
      exact normalizes_portal (.inr htype) h
  · intro h
    unfold normalizeSettingValue
    cases h with
    | boolean b htype => rw [htype]; rfl
    | number htype hexact hleast hmost hrange hstep =>
      have hnumber {q : ℚ} : (QJsonValue.double (.finite q)).finite? = some q := rfl
      rcases id htype with htype | htype <;>
      · rw [htype]
        dsimp only [normalizeNumber]
        rw [hnumber]
        dsimp only
        rw [if_neg hexact, hleast, hmost]
        dsimp only
        rw [if_neg hrange, if_neg hstep]
        rfl
    | @string s least most htype hleast hmost hlong hshort hcontrol =>
      rw [htype]
      dsimp only [normalizeText]
      rw [hleast, hmost, show (QJsonValue.string s).toString = s from rfl, if_neg (by simp [QJsonValue.isString]),
        if_neg (by simp [hcontrol, hlong, hshort])]
      rfl
    | @enumeration s htype hoption =>
      rw [htype]
      dsimp only
      rw [show (QJsonValue.string s).toString = s from rfl, if_neg (by simp [QJsonValue.isString]), if_neg (by simpa using hoption)]
      rfl
    | @color s htype hcolor =>
      rw [htype]
      dsimp only
      rw [show (QJsonValue.string s).toString = s from rfl, if_neg (by simp [QJsonValue.isString, hcolor])]
      rfl
    | keybinding htype h =>
      rw [htype]
      exact h
    | noSelection htype => rcases htype with htype | htype <;> rw [htype] <;> rfl
    | @selection s htype hlength hcontrol =>
      have hportal : (if (QJsonValue.string s).isNull then acceptedValue .null
          else if !(QJsonValue.string s).isString || 4096 < s.length || hasControl s then
            invalidValue path "settings-value.invalid-portal-selection" "A bounded portal selection string or null is required."
          else acceptedValue (.string (unicode.normalized s))).value = some (.string (unicode.normalized s)) := by
        rw [if_neg (by simp [QJsonValue.isNull]), if_neg (by simp [QJsonValue.isString, hlength, hcontrol])]
        rfl
      rcases htype with htype | htype <;>
      · rw [htype]
        exact hportal

theorem normalizeKeybinding_again (hu : unicode.Documented) (hk : unicode.KeepsText)
    (h : (normalizeKeybinding unicode v path).value = some w) :
    (normalizeKeybinding unicode w path').value = some w' ↔ w' = w ∧ (unicode.normalized (keybindingKey v)).length ≤ 64 := by
  rcases normalizeKeybinding_cases h with ⟨rfl, rfl⟩ | ⟨-, hkey, hcontrol, seen, rfl⟩
  · have hempty : unicode.normalized (keybindingKey .null) = [] := hu.normalized_ascii [] (by simp)
    rw [hempty]
    simp [normalizeKeybinding, QJsonValue.isNull, acceptedValue, eq_comm]
  · rw [normalizeKeybinding_inOrder (hk.nonempty _ hkey) (hk.control _ hcontrol), hu.normalized_idem]
    split_ifs with hlength
    · simp [hlength, eq_comm]
    · simp [hlength]

/-- A selection in form C is read as it is, except for its length. -/
theorem normalizes_selection (hform : s = unicode.normalized s) (hcontrol : hasControl s = false)
    (htype : definition.type = .file ∨ definition.type = .directory) :
    Normalizes unicode definition path (.string s) w ↔ w = .string s ∧ s.length ≤ 4096 := by
  constructor
  · intro h
    generalize hv : QJsonValue.string s = v at h
    cases h with
    | selection _ hlength _ =>
      obtain rfl := QJsonValue.string.inj hv
      exact ⟨congrArg QJsonValue.string hform.symm, hlength⟩
    | noSelection _ => cases hv
    | boolean _ hother | string hother | enumeration hother | color hother | keybinding hother =>
      rcases htype with htype | htype <;> cases htype.symm.trans hother
    | number _ => cases hv
  · rintro ⟨rfl, hlength⟩
    have h : Normalizes unicode definition path (.string s) (.string (unicode.normalized s)) := .selection htype hlength hcontrol
    rwa [← hform] at h

/-- A value in normal form is its own normal form, unless form C made it too long. -/
theorem normalizeSettingValue_again (hu : unicode.Documented) (hk : unicode.KeepsText)
    (h : (normalizeSettingValue unicode definition v path).value = some w) :
    (normalizeSettingValue unicode definition w path').value = some w' ↔ w' = w ∧ BoundedInFormC unicode definition v := by
  have hsettled (h' : Normalizes unicode definition path' w w) (hbounded : BoundedInFormC unicode definition v) :
      (normalizeSettingValue unicode definition w path').value = some w' ↔ w' = w ∧ BoundedInFormC unicode definition v := by
    rw [normalizeSettingValue_iff.mpr h', and_iff_left hbounded, Option.some_inj, eq_comm]
  cases normalizeSettingValue_iff.mp h with
  | boolean b htype => exact hsettled (.boolean b htype) (by rw [BoundedInFormC, htype]; trivial)
  | number htype hexact hleast hmost hrange hstep =>
    refine hsettled (.number htype hexact hleast hmost hrange hstep) ?_
    rcases htype with htype | htype <;> rw [BoundedInFormC, htype] <;> trivial
  | @string s _ _ htype hleast hmost hlong hshort hcontrol =>
    have hidem := hu.normalized_idem s
    refine hsettled ?_ (by rw [BoundedInFormC, htype]; trivial)
    rw [← hidem] at hlong hshort hcontrol
    have h' := @Normalizes.string unicode definition path' _ _ _ htype hleast hmost hlong hshort hcontrol
    rwa [hidem] at h'
  | @enumeration s htype hoption =>
    have hidem := hu.normalized_idem s
    refine hsettled ?_ (by rw [BoundedInFormC, htype]; trivial)
    rw [← hidem] at hoption
    have h' := @Normalizes.enumeration unicode definition path' _ htype hoption
    rwa [hidem] at h'
  | @color s htype hcolor =>
    refine hsettled ?_ (by rw [BoundedInFormC, htype]; trivial)
    have h' := @Normalizes.color unicode definition path' _ htype (isColor_upper hcolor)
    rwa [upperColor_upperColor] at h'
  | keybinding htype h =>
    rw [normalizeSettingValue, BoundedInFormC, htype]
    exact normalizeKeybinding_again hu hk h
  | noSelection htype =>
    refine hsettled (.noSelection htype) ?_
    have hempty : unicode.normalized QJsonValue.null.toString = [] := hu.normalized_ascii [] (by simp)
    rcases htype with htype | htype <;> rw [BoundedInFormC, htype] <;> simp [hempty]
  | @selection s htype _ hcontrol =>
    rw [normalizeSettingValue_iff, normalizes_selection (hu.normalized_idem s).symm (hk.control s hcontrol) htype]
    rcases htype with htype | htype <;> rw [BoundedInFormC, htype] <;> rfl

theorem keybindingKey_value (names : List QString) (key : QString) : keybindingKey (keybindingValue names key) = key := by
  obtain ⟨object, hobject, -, hkey, -⟩ := keybindingValue_members names key
  rw [hobject, keybindingKey, QJsonValue.toObject, hkey]
  rfl

/-- Normal forms have the same form C as what they come from. -/
theorem boundedInFormC_normal (hu : unicode.Documented) (h : (normalizeSettingValue unicode definition v path).value = some w) :
    BoundedInFormC unicode definition w ↔ BoundedInFormC unicode definition v := by
  cases normalizeSettingValue_iff.mp h with
  | boolean _ _ | number _ _ _ _ _ _ | noSelection _ => rfl
  | string htype | enumeration htype | color htype => rw [BoundedInFormC, BoundedInFormC, htype]
  | keybinding htype h =>
    rw [BoundedInFormC, BoundedInFormC, htype]
    rcases normalizeKeybinding_cases h with ⟨rfl, rfl⟩ | ⟨-, -, -, seen, rfl⟩
    · rfl
    · dsimp only
      rw [keybindingKey_value, hu.normalized_idem]
  | selection htype _ _ =>
    rcases htype with htype | htype <;>
    · rw [BoundedInFormC, BoundedInFormC, htype]
      dsimp only [QJsonValue.toString]
      rw [hu.normalized_idem]

/-- Either errors and no value, or a value and no errors. -/
def Decided (r : ValidationResult QJsonValue) : Prop :=
  r.value = none ∧ r.errors ≠ [] ∨ ∃ w, r = acceptedValue w ∧ w ≠ .undefined

theorem decided_invalid (path : QString) (code message : String) : Decided (invalidValue path code message) :=
  .inl ⟨rfl, List.cons_ne_nil _ _⟩

theorem decided_accepted (hw : w ≠ .undefined) : Decided (acceptedValue w) := .inr ⟨w, rfl, hw⟩

theorem Decided.defined {r : ValidationResult QJsonValue} (h : Decided r) (hw : r.value = some w) : w ≠ .undefined := by
  rcases h with ⟨hnone, -⟩ | ⟨x, rfl, hx⟩
  · rw [hnone] at hw
    cases hw
  · exact Option.some_inj.mp hw ▸ hx

theorem normalizeNumber_decided : Decided (normalizeNumber definition v path) := by
  unfold normalizeNumber
  split
  · exact decided_invalid _ _ _
  · split_ifs
    · exact decided_invalid _ _ _
    · split
      · split_ifs
        · exact decided_invalid _ _ _
        · exact decided_invalid _ _ _
        · exact decided_accepted (by simp)
      · exact decided_invalid _ _ _

theorem normalizeKeybinding_decided : Decided (normalizeKeybinding unicode v path) := by
  unfold normalizeKeybinding
  dsimp only
  split_ifs with hnull hobject herrors
  · exact decided_accepted (by simp)
  · exact decided_invalid _ _ _
  · exact .inl ⟨rfl, herrors⟩
  · exact decided_accepted (by simp)

theorem normalizeSettingValue_decided : Decided (normalizeSettingValue unicode definition v path) := by
  unfold normalizeSettingValue
  cases definition.type with
  | boolean =>
    dsimp only
    split_ifs with hbool
    · exact decided_invalid _ _ _
    · refine decided_accepted ?_
      rintro rfl
      exact hbool rfl
  | integer => exact normalizeNumber_decided
  | number => exact normalizeNumber_decided
  | keybinding => exact normalizeKeybinding_decided
  | string =>
    dsimp only [normalizeText]
    split_ifs
    · exact decided_invalid _ _ _
    · exact decided_invalid _ _ _
    · exact decided_accepted (by simp)
  | enumeration =>
    dsimp only
    split_ifs
    · exact decided_invalid _ _ _
    · exact decided_invalid _ _ _
    · exact decided_accepted (by simp)
  | color =>
    dsimp only
    split_ifs
    · exact decided_invalid _ _ _
    · exact decided_accepted (by simp)
  | file =>
    dsimp only
    split_ifs
    · exact decided_accepted (by simp)
    · exact decided_invalid _ _ _
    · exact decided_accepted (by simp)
  | directory =>
    dsimp only
    split_ifs
    · exact decided_accepted (by simp)
    · exact decided_invalid _ _ _
    · exact decided_accepted (by simp)

end Values

section Runs
variable {unicode : UnicodeTables} {values normalized n : QJsonObject} {applyDefaults : Bool}
  {definition : SettingDefinition} {definitions : List SettingDefinition}

/-- The value that a definition is given: one of the object's own, else the default. -/
def usedValue (values : QJsonObject) (applyDefaults : Bool) (definition : SettingDefinition) : Option QJsonValue :=
  if values.contains definition.key then some (values.value definition.key)
  else if applyDefaults then some definition.defaultValue else none

def normalForm (unicode : UnicodeTables) (definition : SettingDefinition) (v : QJsonValue) : Option QJsonValue :=
  (normalizeSettingValue unicode definition v (qstr "$." ++ definition.key)).value

theorem normalizeDefinition_unused (h : usedValue values applyDefaults definition = none) :
    normalizeDefinition unicode values applyDefaults normalized definition = pure normalized := by
  unfold usedValue at h
  unfold normalizeDefinition
  split_ifs at h with hcontains hdefaults
  rw [if_pos (by simp [hcontains, hdefaults])]

theorem normalizeDefinition_used {v : QJsonValue} (h : usedValue values applyDefaults definition = some v) :
    Checked.Clean (normalizeDefinition unicode values applyDefaults normalized definition) n ↔
      ∃ w, normalForm unicode definition v = some w ∧ normalized.insert definition.key w = n := by
  unfold usedValue at h
  have hused : (!values.contains definition.key && !applyDefaults) = false := by
    split_ifs at h with hcontains hdefaults
    · simp [hcontains]
    · simp [hdefaults]
  have hvalue : (if values.contains definition.key then values.value definition.key else definition.defaultValue) = v := by
    split_ifs at h with hcontains hdefaults <;> simpa [hcontains] using h
  unfold normalizeDefinition
  rw [hused, if_neg Bool.false_ne_true]
  dsimp only
  rw [hvalue]
  unfold normalForm
  rcases @normalizeSettingValue_decided unicode definition v (qstr "$." ++ definition.key) with ⟨hnone, herrors⟩ | ⟨w, hw, -⟩
  · rw [hnone]
    refine iff_of_false (fun hclean => herrors ?_) (by simp)
    simpa using hclean.errors
  · rw [hw]
    simp [acceptedValue]

/-- What a run over definitions leaves: the normal form of every value used, and the rest as it was. -/
structure Filled (unicode : UnicodeTables) (values : QJsonObject) (applyDefaults : Bool) (definitions : List SettingDefinition)
    (normalized n : QJsonObject) : Prop where
  used : ∀ d ∈ definitions, ∀ v, usedValue values applyDefaults d = some v →
    ∃ w, normalForm unicode d v = some w ∧ n.lookup d.key = some w
  unused : ∀ d ∈ definitions, usedValue values applyDefaults d = none → n.lookup d.key = normalized.lookup d.key
  others : ∀ k ∉ definitions.map (·.key), n.lookup k = normalized.lookup k
  sorted : normalized.Sorted → n.Sorted

theorem fill_total (h : ∀ d ∈ definitions, ∀ v, usedValue values applyDefaults d = some v → ∃ w, normalForm unicode d v = some w)
    (normalized : QJsonObject) : ∃ n, Checked.Clean (definitions.foldlM (normalizeDefinition unicode values applyDefaults) normalized) n := by
  induction definitions generalizing normalized with
  | nil => exact ⟨normalized, rfl⟩
  | cons d rest ih =>
    obtain ⟨hd, hrest⟩ := List.forall_mem_cons.mp h
    obtain ⟨after, hafter⟩ : ∃ after, Checked.Clean (normalizeDefinition unicode values applyDefaults normalized d) after := by
      cases hused : usedValue values applyDefaults d with
      | none =>
        rw [normalizeDefinition_unused hused]
        exact ⟨normalized, rfl⟩
      | some v =>
        obtain ⟨w, hw⟩ := hd v hused
        exact ⟨_, (normalizeDefinition_used hused).mpr ⟨w, hw, rfl⟩⟩
    obtain ⟨n, hn⟩ := ih hrest after
    exact ⟨n, by rw [List.foldlM_cons, Checked.clean_bind]; exact ⟨after, hafter, hn⟩⟩

theorem filled (hkeys : (definitions.map (·.key)).Nodup)
    (h : Checked.Clean (definitions.foldlM (normalizeDefinition unicode values applyDefaults) normalized) n) :
    Filled unicode values applyDefaults definitions normalized n := by
  induction definitions generalizing normalized with
  | nil =>
    obtain rfl := Checked.clean_pure.mp h
    exact ⟨by simp, by simp, fun _ _ => rfl, id⟩
  | cons d rest ih =>
    rw [List.map_cons, List.nodup_cons] at hkeys
    rw [List.foldlM_cons, Checked.clean_bind] at h
    obtain ⟨after, hafter, hrest⟩ := h
    have later := ih hkeys.2 hrest
    have hkeep := later.others d.key hkeys.1
    have hother (e : SettingDefinition) (he : e ∈ rest) : e.key ≠ d.key := fun hkey => hkeys.1 (hkey ▸ List.mem_map_of_mem he)
    cases hused : usedValue values applyDefaults d with
    | none =>
      rw [normalizeDefinition_unused hused] at hafter
      obtain rfl := Checked.clean_pure.mp hafter
      refine ⟨?_, ?_, fun k hk => later.others k fun hrest => hk (List.mem_cons_of_mem _ hrest), later.sorted⟩
      · rintro e he v hv
        rcases List.mem_cons.mp he with rfl | he
        · rw [hused] at hv
          cases hv
        · exact later.used e he v hv
      · rintro e he hnone
        rcases List.mem_cons.mp he with rfl | he
        · exact hkeep
        · exact later.unused e he hnone
    | some v =>
      obtain ⟨w, hw, rfl⟩ := (normalizeDefinition_used hused).mp hafter
      have hlookup (k : QString) : (normalized.insert d.key w).lookup k = if k = d.key then some w else normalized.lookup k :=
        QJsonObject.lookup_insert _ _ _ (normalizeSettingValue_decided.defined hw)
      refine ⟨?_, ?_, ?_, fun hsorted => later.sorted (sorted_insert hsorted _ _)⟩
      · rintro e he x hx
        rcases List.mem_cons.mp he with rfl | he
        · rw [hused] at hx
          obtain rfl := Option.some_inj.mp hx
          exact ⟨w, hw, by rw [hkeep, hlookup, if_pos rfl]⟩
        · exact later.used e he x hx
      · rintro e he hnone
        rcases List.mem_cons.mp he with rfl | he
        · rw [hused] at hnone
          cases hnone
        · rw [later.unused e he hnone, hlookup, if_neg (hother e he)]
      · intro k hk
        rw [List.map_cons, List.mem_cons, not_or] at hk
        rw [later.others k hk.2, hlookup, if_neg hk.1]

end Runs

end HyprShelld.Components
