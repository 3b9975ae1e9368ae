import HyprShelld.Component.SettingsAgain

/-! What an accepted schema has: keys apart, bounds in order, options apart, and conditions that name
an earlier setting and a value of it. -/
namespace HyprShelld.Components
open QJsonObject Checked

section Texts
variable {unicode : UnicodeTables} {object : QJsonObject} {key path : QString} {maximumLength : Nat}

structure AdmittedText (unicode : UnicodeTables) (maximumLength : Nat) (text : QString) : Prop where
  nonempty : text ≠ []
  length : text.length ≤ maximumLength
  spaces : text = trimmed text
  visible : hasDisallowedControl unicode text = false

theorem clean_requiredText {text : QString} : Clean (requiredText unicode object key path maximumLength) text ↔
    AdmittedText unicode maximumLength text ∧ ∃ raw, object.value key = .string raw ∧ text = unicode.normalized raw := by
  unfold requiredText
  dsimp only
  cases hvalue : object.value key with
  | string raw =>
    rw [show (QJsonValue.string raw).toString = raw from rfl, if_neg (by simp [QJsonValue.isString])]
    split_ifs with hbad
    · refine iff_of_false (fun h => absurd h.errors (List.cons_ne_nil _ _)) ?_
      rintro ⟨⟨hnonempty, hlength, hspaces, hvisible⟩, _, h, rfl⟩
      obtain rfl := QJsonValue.string.inj h
      simp [hnonempty, hlength.not_gt, ← hspaces, hvisible] at hbad
    · rw [clean_pure]
      simp only [Bool.or_eq_true, decide_eq_true_eq, not_or, not_lt, not_not, Bool.not_eq_true] at hbad
      constructor
      · rintro rfl
        exact ⟨⟨hbad.1.1.1, hbad.1.1.2, hbad.1.2, hbad.2⟩, raw, rfl, rfl⟩
      · rintro ⟨-, _, h, rfl⟩
        rw [QJsonValue.string.inj h]
  | _ =>
    refine iff_of_false (fun h => absurd h.errors (List.cons_ne_nil _ _)) ?_
    rintro ⟨-, _, h, -⟩
    cases h

theorem clean_requiredFiniteNumber {number : Option ℚ} (h : Clean (requiredFiniteNumber object key path) number) :
    ∃ q, number = some q ∧ object.value key = .double (.finite q) := by
  unfold requiredFiniteNumber at h
  split at h
  · rename_i q hq
    exact ⟨q, (clean_pure.mp h).symm, QJsonValue.finite?_eq_some.mp hq⟩
  · exact absurd h.errors (List.cons_ne_nil _ _)

theorem clean_requiredInteger {minimum maximum : Int} {number : Option Int}
    (h : Clean (requiredInteger object key path minimum maximum) number) : ∃ n, number = some n ∧ minimum ≤ n ∧ n ≤ maximum := by
  unfold requiredInteger at h
  rw [clean_bind] at h
  obtain ⟨_, hq, h⟩ := h
  obtain ⟨q, rfl, -⟩ := clean_requiredFiniteNumber hq
  dsimp only at h
  split_ifs at h with hbounds
  · exact absurd h.errors (List.cons_ne_nil _ _)
  · simp only [Bool.or_eq_true, decide_eq_true_eq, not_or, not_lt, Bool.not_eq_true', Bool.not_eq_false] at hbounds
    obtain ⟨⟨hexact, hleast⟩, hmost⟩ := hbounds
    have hwhole : (q.num : ℚ) = q := Rat.coe_int_num_of_den_eq_one (by
      unfold isExactJsonInteger at hexact
      simpa using (Bool.and_eq_true_iff.mp hexact).1)
    rw [← hwhole] at hleast hmost
    exact ⟨q.num, (clean_pure.mp h).symm, by exact_mod_cast hleast, by exact_mod_cast hmost⟩

end Texts

section Definitions
variable {unicode : UnicodeTables} {object : QJsonObject} {path : QString}

/-- The bounds of a numeric setting; those of integers are exact. -/
structure NumberBounds (d : SettingDefinition) : Prop where
  range : ∃ least most, d.minimum = some least ∧ d.maximum = some most ∧ least ≤ most ∧
    (d.type = .integer → isExactJsonInteger least = true ∧ isExactJsonInteger most = true)
  step : ∀ step, d.step = some step → 0 < step ∧ (d.type = .integer → isExactJsonInteger step = true)

def LengthBounds (d : SettingDefinition) : Prop :=
  ∃ least most, d.minimumLength = some least ∧ d.maximumLength = some most ∧ least ≤ most ∧ 1 ≤ most ∧ most ≤ 4096

/-- One to sixty-four options with values apart. -/
structure SoundOptions (unicode : UnicodeTables) (options : List EnumOption) : Prop where
  count : options ≠ [] ∧ options.length ≤ 64
  distinct : (options.map (·.value)).Nodup
  texts : ∀ option ∈ options, AdmittedText unicode 128 option.value ∧ AdmittedText unicode 128 option.label

/-- What settings of one type have. -/
structure SoundFields (unicode : UnicodeTables) (d : SettingDefinition) : Prop where
  number : d.type = .integer ∨ d.type = .number → NumberBounds d
  length : d.type = .string → LengthBounds d
  options : d.type = .enumeration → SoundOptions unicode d.options

theorem SoundFields.kept {d : SettingDefinition} (h : SoundFields unicode d) (defaultValue : QJsonValue)
    (visibleWhen : Option VisibilityCondition) : SoundFields unicode { d with defaultValue, visibleWhen } :=
  ⟨fun htype => ⟨(h.number htype).range, (h.number htype).step⟩, h.length, h.options⟩

structure SoundDefinition (unicode : UnicodeTables) (d : SettingDefinition) : Prop extends SoundFields unicode d where
  key : isSettingKey d.key = true
  default : NormalDefault unicode d
  portal : d.type = .file ∨ d.type = .directory → d.defaultValue = .null

theorem clean_parseEnumOption {index : Nat} {values : List QString} {items : List QJsonValue} {options : List EnumOption}
    (h : Clean (parseEnumOption unicode path index values items) options) :
    options.length = items.length ∧ (options.map (·.value)).Nodup ∧ (∀ option ∈ options, option.value ∉ values) ∧
      ∀ option ∈ options, AdmittedText unicode 128 option.value ∧ AdmittedText unicode 128 option.label := by
  induction items generalizing index values options with
  | nil =>
    obtain rfl := clean_pure.mp h
    simp
  | cons item rest ih =>
    rw [parseEnumOption] at h
    dsimp only at h
    split_ifs at h with hobject
    · obtain ⟨_, hreport, -⟩ := clean_bind.mp h
      exact absurd hreport clean_report
    · simp only [clean_bind, clean_rejectIf, clean_requiredText] at h
      obtain ⟨_, -, value, ⟨hvalue, -⟩, label, ⟨hlabel, -⟩, _, hfresh, options, hrest, h⟩ := h
      obtain rfl := clean_pure.mp h
      obtain ⟨hlength, hdistinct, hapart, htexts⟩ := ih hrest
      have hnew : value ∉ values := by simpa using hfresh
      refine ⟨by simp [hlength], List.nodup_cons.mpr ⟨fun hmem => ?_, hdistinct⟩, ?_, ?_⟩
      · obtain ⟨option, hoption, hvalue⟩ := List.mem_map.mp hmem
        exact hapart option hoption (hvalue ▸ List.mem_cons_self)
      · exact List.forall_mem_cons.mpr ⟨hnew, fun option hoption hmem => hapart option hoption (List.mem_cons_of_mem _ hmem)⟩
      · exact List.forall_mem_cons.mpr ⟨⟨hvalue, hlabel⟩, htexts⟩

theorem clean_parseEnumOptions {value : QJsonValue} {options : List EnumOption}
    (h : Clean (parseEnumOptions unicode value path) options) : SoundOptions unicode options := by
  unfold parseEnumOptions at h
  split_ifs at h with hbounds
  · exact absurd h.errors (List.cons_ne_nil _ _)
  · simp only [Bool.or_eq_true, decide_eq_true_eq, not_or, not_lt, Bool.not_eq_true', List.isEmpty_iff] at hbounds
    obtain ⟨hlength, hdistinct, -, htexts⟩ := clean_parseEnumOption h
    refine ⟨⟨?_, hlength ▸ hbounds.2⟩, hdistinct, htexts⟩
    rintro rfl
    exact hbounds.1.2 (List.length_eq_zero_iff.mp hlength.symm)

theorem clean_readNumberBounds {type : SettingType} {definition d : SettingDefinition} (htype : definition.type = type)
    (h : Clean (readNumberBounds object path type definition) d) :
    NumberBounds d ∧ ∃ minimum maximum step, d = { definition with minimum, maximum, step } := by
  subst htype
  unfold readNumberBounds at h
  simp only [clean_bind, clean_rejectIf] at h
  obtain ⟨_, hleast, _, hmost, _, hrange, _, hexact, step, -, _, hstep, h⟩ := h
  obtain rfl := clean_pure.mp h
  obtain ⟨least, rfl, -⟩ := clean_requiredFiniteNumber hleast
  obtain ⟨most, rfl, -⟩ := clean_requiredFiniteNumber hmost
  refine ⟨⟨⟨least, most, rfl, rfl, by simpa using hrange, fun hinteger => ?_⟩, ?_⟩, _, _, _, rfl⟩
  · change definition.type = .integer at hinteger
    simpa [hinteger] using hexact
  · rintro q rfl
    simp only [Option.any_some, Bool.or_eq_false_iff, decide_eq_false_iff_not, not_le] at hstep
    refine ⟨hstep.1, fun hinteger => ?_⟩
    change definition.type = .integer at hinteger
    simpa [hinteger] using hstep.2

theorem clean_readLengthBounds {definition d : SettingDefinition} (h : Clean (readLengthBounds object path definition) d) :
    LengthBounds d ∧ ∃ minimumLength maximumLength, d = { definition with minimumLength, maximumLength } := by
  unfold readLengthBounds at h
  simp only [clean_bind, clean_rejectIf] at h
  obtain ⟨_, hleast, _, hmost, _, hrange, h⟩ := h
  obtain rfl := clean_pure.mp h
  obtain ⟨most, rfl, hone, hmost⟩ := clean_requiredInteger hmost
  have hleast : ∃ least : Int, ‹Option Int› = some least ∧ 0 ≤ least := by
    split_ifs at hleast
    · obtain ⟨least, h, hzero, -⟩ := clean_requiredInteger hleast
      exact ⟨least, h, hzero⟩
    · exact ⟨0, (clean_pure.mp hleast).symm, le_rfl⟩
  obtain ⟨least, rfl, hzero⟩ := hleast
  have hle : least ≤ most := by simpa using hrange
  exact ⟨⟨least.toNat, most.toNat, rfl, rfl, by omega, by omega, by omega⟩, _, _, rfl⟩

theorem clean_readTypeFields {definition d : SettingDefinition} {fields : List QString}
    (h : Clean (readTypeFields unicode object path definition (some definition.type)) (d, fields)) :
    SoundFields unicode d ∧ d.key = definition.key ∧ d.type = definition.type ∧ d.defaultValue = definition.defaultValue := by
  have hplain (htype : definition.type ≠ .integer ∧ definition.type ≠ .number ∧ definition.type ≠ .string ∧
      definition.type ≠ .enumeration) : SoundFields unicode definition :=
    ⟨fun h => absurd h (not_or.mpr ⟨htype.1, htype.2.1⟩), fun h => absurd h htype.2.2.1, fun h => absurd h htype.2.2.2⟩
  have hnumbers (hnumber : definition.type = .integer ∨ definition.type = .number) {e : SettingDefinition}
      (he : Clean (readNumberBounds object path definition.type definition) e) :
      SoundFields unicode e ∧ e.key = definition.key ∧ e.type = definition.type ∧ e.defaultValue = definition.defaultValue := by
    obtain ⟨hbounds, _, _, _, rfl⟩ := clean_readNumberBounds rfl he
    refine ⟨⟨fun _ => hbounds, fun h => ?_, fun h => ?_⟩, rfl, rfl, rfl⟩ <;>
    · change definition.type = _ at h
      rw [h] at hnumber
      simp at hnumber
  cases htype : definition.type with
  | integer =>
    rw [htype] at h
    simp only [readTypeFields, clean_bind, clean_pure, Prod.mk.injEq] at h
    obtain ⟨e, he, rfl, -⟩ := h
    exact htype ▸ hnumbers (.inl htype) he
  | number =>
    rw [htype] at h
    simp only [readTypeFields, clean_bind, clean_pure, Prod.mk.injEq] at h
    obtain ⟨e, he, rfl, -⟩ := h
    exact htype ▸ hnumbers (.inr htype) he
  | string =>
    rw [htype] at h
    simp only [readTypeFields, clean_bind, clean_pure, Prod.mk.injEq] at h
    obtain ⟨d, h, rfl, -⟩ := h
    obtain ⟨hbounds, _, _, rfl⟩ := clean_readLengthBounds h
    exact ⟨⟨fun h => by simp [htype] at h, fun _ => hbounds, fun h => by simp [htype] at h⟩, rfl, htype, rfl⟩
  | enumeration =>
    rw [htype] at h
    simp only [readTypeFields, clean_bind, clean_pure, Prod.mk.injEq] at h
    obtain ⟨options, h, rfl, -⟩ := h
    exact ⟨⟨fun h => by simp [htype] at h, fun h => by simp [htype] at h, fun _ => clean_parseEnumOptions h⟩, rfl, htype, rfl⟩
  | _ =>
    rw [htype] at h
    obtain ⟨rfl, -⟩ := Prod.mk.inj (clean_pure.mp h)
    exact ⟨hplain (by simp [htype]), rfl, htype, rfl⟩

theorem clean_normalizeDefault {definition d : SettingDefinition} (h : Clean (normalizeDefault unicode path definition) d) :
    d = { definition with defaultValue := d.defaultValue } ∧
      (normalizeSettingValue unicode definition definition.defaultValue (path ++ qstr ".default")).value = some d.defaultValue ∧
      (d.type = .file ∨ d.type = .directory → d.defaultValue = .null) := by
  unfold normalizeDefault at h
  dsimp only at h
  simp only [clean_bind, clean_rejectIf] at h
  obtain ⟨e, he, _, hportal, h⟩ := h
  obtain rfl := clean_pure.mp h
  rcases @normalizeSettingValue_decided unicode definition definition.defaultValue (path ++ qstr ".default") with
    ⟨hnone, herrors⟩ | ⟨w, hw, -⟩
  · rw [hnone] at he
    exact absurd he.errors herrors
  · rw [hw] at he
    obtain rfl := clean_pure.mp he
    refine ⟨rfl, congrArg ValidationResult.value hw, fun htype => ?_⟩
    cases hdefault : w <;> simp_all [acceptedValue, QJsonValue.isNull]

/-- The default a definition is read with is what its own type makes of the one that is written. -/
theorem clean_parseDefinition {value : QJsonValue} {index : Nat} {d : SettingDefinition}
    (h : Clean (parseDefinition unicode value index) d) : SoundDefinition unicode d ∧
      ∃ path, (normalizeSettingValue unicode d (QJsonObject.value value.toObject (qstr "default")) path).value = some d.defaultValue := by
  have hnormal := parseDefinition_normal h
  unfold parseDefinition at h
  dsimp only at h
  split_ifs at h with hobject
  · exact absurd h.errors (List.cons_ne_nil _ _)
  · simp only [clean_bind, clean_rejectIf, clean_requiredText] at h
    obtain ⟨key, ⟨hkeyText, -⟩, _, hkey, scopeText, -, _, -, typeText, -, _, htype, label, -, description, -, group, -, _, -, order, -,
      _, hdefault, ⟨definition, fields⟩, hfields, _, -, visibleWhen, -, h⟩ := h
    rw [Bool.not_eq_false'] at hdefault
    obtain ⟨type, htype⟩ := Option.isSome_iff_exists.mp (Option.isNone_eq_false_iff.mp htype)
    rw [hdefault, htype, Option.isSome_some, Bool.and_self, if_pos rfl] at h
    rw [htype] at hfields
    obtain ⟨hsound, hkey', htype', hdefault'⟩ := clean_readTypeFields hfields
    obtain ⟨hd, hnormalized, hportal⟩ := clean_normalizeDefault h
    have hfields' : SoundFields unicode d := by
      rw [hd]
      exact hsound.kept _ _
    have hkeyText : isSettingKey key = true := by simpa [hkeyText.nonempty] using hkey
    refine ⟨⟨hfields', ?_, hnormal, hportal⟩, indexPath (qstr "$.settings") index ++ qstr ".default", ?_⟩
    · rw [hd]
      exact hkey' ▸ hkeyText
    · rw [hd]
      exact hdefault' ▸ hnormalized

/-- A condition names an earlier setting of the same scope and a value that it can take. -/
def SoundCondition (unicode : UnicodeTables) (earlier : List SettingDefinition) (d : SettingDefinition) : Prop :=
  ∀ condition, d.visibleWhen = some condition → ∃ previous ∈ earlier, previous.key = condition.key ∧ previous.scope = d.scope ∧
    ¬ (previous.type = .keybinding ∨ previous.type = .file ∨ previous.type = .directory) ∧
    ∃ v path, (normalizeSettingValue unicode previous v path).value = some condition.equals

/-- Definitions in their order, each with a new key. -/
inductive SoundSettings (unicode : UnicodeTables) : List SettingDefinition → Prop
  | nil : SoundSettings unicode []
  | snoc {earlier : List SettingDefinition} {d : SettingDefinition} : SoundSettings unicode earlier →
    (∀ e ∈ earlier, e.key ≠ d.key) → SoundDefinition unicode d → SoundCondition unicode earlier d → SoundSettings unicode (earlier ++ [d])

theorem clean_checkCondition {index : Nat} {settings : List SettingDefinition} {definition d : SettingDefinition}
    (h : Clean (checkCondition unicode index settings definition) d) :
    (∃ visibleWhen, d = { definition with visibleWhen }) ∧ SoundCondition unicode settings d := by
  unfold checkCondition at h
  split at h
  · rename_i hnone
    obtain rfl := clean_pure.mp h
    refine ⟨⟨none, by rw [← hnone]⟩, fun condition hcondition => ?_⟩
    rw [hnone] at hcondition
    cases hcondition
  · rename_i condition hcondition
    dsimp only at h
    split at h
    · exact absurd h.errors (List.cons_ne_nil _ _)
    · rename_i previous hprevious
      split_ifs at h with hscope htype
      · exact absurd h.errors (List.cons_ne_nil _ _)
      · exact absurd h.errors (List.cons_ne_nil _ _)
      · split at h
        · rename_i hnone
          rcases @normalizeSettingValue_decided unicode previous condition.equals
              (indexPath (qstr "$.settings") index ++ qstr ".visibleWhen" ++ qstr ".equals") with ⟨-, herrors⟩ | ⟨w, hw, -⟩
          · exact absurd h.errors herrors
          · rw [hw] at hnone
            cases hnone
        · rename_i v hv
          obtain rfl := clean_pure.mp h
          refine ⟨⟨_, rfl⟩, fun other hother => ?_⟩
          obtain rfl := Option.some_inj.mp hother
          exact ⟨previous, List.mem_of_find?_eq_some hprevious, by simpa using List.find?_some hprevious, not_not.mp hscope, htype,
            _, _, hv⟩

theorem clean_parseDefinitions {items : List QJsonValue} {index : Nat} {keys : List QString} {settings out : List SettingDefinition}
    (h : Clean (parseDefinitions unicode index keys settings items) out) (hsettings : SoundSettings unicode settings)
    (hkeys : ∀ d ∈ settings, d.key ∈ keys) : SoundSettings unicode out ∧ out.length = settings.length + items.length ∧
      ∀ d ∈ out, d ∈ settings ∨ ∃ item ∈ items, ∃ path,
        (normalizeSettingValue unicode d (QJsonObject.value item.toObject (qstr "default")) path).value = some d.defaultValue := by
  induction items generalizing index keys settings with
  | nil =>
    obtain rfl := clean_pure.mp h
    exact ⟨hsettings, rfl, fun d hd => .inl hd⟩
  | cons item rest ih =>
    rw [parseDefinitions] at h
    simp only [clean_bind, clean_rejectIf] at h
    obtain ⟨read, hread, _, hfresh, d, hd, hrest⟩ := h
    obtain ⟨hsound, path, hdefault⟩ := clean_parseDefinition hread
    obtain ⟨⟨visibleWhen, rfl⟩, hcondition⟩ := clean_checkCondition hd
    have hnew : ∀ e ∈ settings, e.key ≠ read.key := by
      intro e he heq
      have := hkeys e he
      rw [heq, ← List.contains_iff_mem, hfresh] at this
      cases this
    have hkept : SoundDefinition unicode { read with visibleWhen } :=
      ⟨hsound.kept _ _, hsound.key, hsound.default, hsound.portal⟩
    obtain ⟨hall, hlength, hfrom⟩ := ih hrest (.snoc hsettings hnew hkept hcondition) (by
      intro e he
      rcases List.mem_append.mp he with he | he
      · exact List.mem_cons_of_mem _ (hkeys e he)
      · exact List.mem_singleton.mp he ▸ List.mem_cons_self)
    refine ⟨hall, by simp [hlength]; omega, fun e he => ?_⟩
    rcases hfrom e he with he | ⟨other, hother, h⟩
    · rcases List.mem_append.mp he with he | he
      · exact .inl he
      · exact .inr ⟨item, List.mem_cons_self, path, List.mem_singleton.mp he ▸ hdefault⟩
    · exact .inr ⟨other, List.mem_cons_of_mem _ hother, h⟩

end Definitions

section Schemas
variable {unicode : UnicodeTables} {number : NumberText} {bytes : QByteArray} {schema : SettingsSchema}

structure SoundSchema (unicode : UnicodeTables) (schema : SettingsSchema) : Prop where
  count : schema.settings.length ≤ maximumSettingCount
  settings : SoundSettings unicode schema.settings

theorem parseSettingsSchema_object (h : (parseSettingsSchema unicode number bytes).value = some schema) :
    SoundSchema unicode schema ∧ ∃ root : QJsonObject, Persistable number (.object root) ∧ ∀ d ∈ schema.settings,
      ∃ item ∈ (root.value (qstr "settings")).toArray, ∃ path,
        (normalizeSettingValue unicode d (QJsonObject.value item.toObject (qstr "default")) path).value = some d.defaultValue := by
  unfold parseSettingsSchema at h
  dsimp only at h
  split at h
  · cases h
  · rename_i root hroot
    rw [result_value] at h
    obtain ⟨herrors, rfl⟩ := h
    have hclean := clean_self herrors
    generalize (parseSchemaObject unicode root).value = schema at hclean ⊢
    unfold parseSchemaObject at hclean
    simp only [clean_bind] at hclean
    obtain ⟨_, -, _, -, hclean⟩ := hclean
    split_ifs at hclean with hbounds
    · exact absurd hclean.errors (List.cons_ne_nil _ _)
    · obtain ⟨settings, hsettings, hschema⟩ := clean_bind.mp hclean
      obtain rfl := clean_pure.mp hschema
      simp only [Bool.or_eq_true, decide_eq_true_eq, not_or, not_lt] at hbounds
      obtain ⟨hsound, hlength, hfrom⟩ := clean_parseDefinitions hsettings .nil (by simp)
      refine ⟨⟨?_, hsound⟩, root, (parseStrictJsonObject_sound hroot).1, fun d hd => (hfrom d hd).resolve_left (by simp)⟩
      rw [hlength, List.length_nil, Nat.zero_add]
      exact hbounds.2

/-- An accepted schema is well formed: keys, bounds, options and defaults are sound, and a condition
names an earlier setting. -/
theorem parseSettingsSchema_wellFormed (h : (parseSettingsSchema unicode number bytes).value = some schema) :
    SoundSchema unicode schema := (parseSettingsSchema_object h).1

theorem chordSchema_wellFormed : SoundSchema qaTables chordSchema := parseSettingsSchema_wellFormed chordSchema_parsed

end Schemas

end HyprShelld.Components
