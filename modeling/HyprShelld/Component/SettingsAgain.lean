import HyprShelld.Component.SettledSettings
import HyprShelld.Canonical.Exact
import HyprShelld.Json.ExactDecimal

/-! Stored settings read again: they are kept as they are unless form C took a text past the limit
it was held to before. -/
namespace HyprShelld.Components
open QJsonObject

section Again
variable {unicode : UnicodeTables} {schema : SettingsSchema} {scope : SettingScope} {values n n' : QJsonObject} {applyDefaults : Bool}

def SettingsSchema.inScope (schema : SettingsSchema) (scope : SettingScope) : List SettingDefinition :=
  schema.settings.filter (·.scope = scope)

theorem mem_inScope {d : SettingDefinition} : d ∈ schema.inScope scope ↔ d ∈ schema.settings ∧ d.scope = scope := by
  rw [SettingsSchema.inScope, List.mem_filter, decide_eq_true_eq]

theorem find_scope (hkeys : (schema.settings.map (·.key)).Nodup) (k : QString) :
    (schema.find k).elim true (fun d => decide (d.scope ≠ scope)) = false ↔ k ∈ (schema.inScope scope).map (·.key) := by
  unfold SettingsSchema.find
  cases hfind : schema.settings.find? (·.key = k) with
  | none =>
    refine iff_of_false (by simp) fun hk => ?_
    obtain ⟨d, hd, rfl⟩ := List.mem_map.mp hk
    exact absurd (List.find?_eq_none.mp hfind d (mem_inScope.mp hd).1) (by simp)
  | some d =>
    have hkey : d.key = k := by simpa using List.find?_some hfind
    have hmem : d ∈ schema.settings := List.mem_of_find?_eq_some hfind
    rw [Option.elim_some, decide_eq_false_iff_not, not_not]
    constructor
    · intro hscope
      exact List.mem_map.mpr ⟨d, mem_inScope.mpr ⟨hmem, hscope⟩, hkey⟩
    · intro hk
      obtain ⟨e, he, hek⟩ := List.mem_map.mp hk
      obtain ⟨he, hscope⟩ := mem_inScope.mp he
      rwa [List.inj_on_of_nodup_map hkeys hmem he (hkey.trans hek.symm)]

theorem normalizeSettings_iff (hkeys : (schema.settings.map (·.key)).Nodup) :
    (normalizeSettings unicode schema scope values applyDefaults).value = some n ↔
      (∀ k ∈ values.keys, k ∈ (schema.inScope scope).map (·.key)) ∧
      Checked.Clean ((schema.inScope scope).foldlM (normalizeDefinition unicode values applyDefaults) []) n := by
  unfold normalizeSettings
  rw [Checked.result_value]
  have hknown : ((values.keys.filter fun key => (schema.find key).elim true fun d => decide (d.scope ≠ scope)).map fun key =>
      issue (qstr "$." ++ key) "settings-value.unknown-or-wrong-scope"
        "The setting key is unknown or belongs to another scope.") = [] ↔
      ∀ k ∈ values.keys, k ∈ (schema.inScope scope).map (·.key) := by
    rw [List.map_eq_nil_iff, List.filter_eq_nil_iff]
    refine forall₂_congr fun k _ => ?_
    rw [Bool.not_eq_true, find_scope hkeys]
  rw [Checked.bind_errors, Checked.bind_value, Checked.reportAll_errors, List.append_eq_nil_iff, hknown, and_assoc]
  refine and_congr_right fun _ => ?_
  constructor
  · rintro ⟨herrors, rfl⟩
    exact Checked.clean_self herrors
  · intro hclean
    exact ⟨hclean.errors, congrArg Checked.value hclean⟩

theorem inScope_keys (hkeys : (schema.settings.map (·.key)).Nodup) : ((schema.inScope scope).map (·.key)).Nodup :=
  hkeys.sublist (List.filter_sublist.map _)

/-- What is used the second time is the normal form of what was used the first time. -/
theorem usedValue_filled {definitions : List SettingDefinition} (h : Filled unicode values applyDefaults definitions [] n)
    {d : SettingDefinition} (hd : d ∈ definitions) :
    usedValue n applyDefaults d = (usedValue values applyDefaults d).bind (normalForm unicode d) := by
  cases hused : usedValue values applyDefaults d with
  | none =>
    have hlookup : n.lookup d.key = none := h.unused d hd hused
    have hdefaults : applyDefaults = false := by
      unfold usedValue at hused
      split_ifs at hused with hcontains hdefaults
      exact Bool.not_eq_true _ ▸ hdefaults
    simp [usedValue, QJsonObject.contains, hlookup, hdefaults]
  | some v =>
    obtain ⟨w, hw, hlookup⟩ := h.used d hd v hused
    simp [usedValue, QJsonObject.contains, QJsonObject.value, hlookup, hw]

theorem normalForm_again (hu : unicode.Documented) (hk : unicode.KeepsText) {d : SettingDefinition} {v w w' : QJsonValue}
    (h : normalForm unicode d v = some w) : normalForm unicode d w = some w' ↔ w' = w ∧ BoundedInFormC unicode d v :=
  normalizeSettingValue_again hu hk h

/-- A second run that is clean changes nothing. -/
theorem filled_again (hu : unicode.Documented) (hk : unicode.KeepsText) {definitions : List SettingDefinition}
    (first : Filled unicode values applyDefaults definitions [] n) (second : Filled unicode n applyDefaults definitions [] n') :
    n' = n := by
  refine ext_lookup (second.sorted sorted_nil) (first.sorted sorted_nil) fun k => ?_
  by_cases hk' : k ∈ definitions.map (·.key)
  · obtain ⟨d, hd, rfl⟩ := List.mem_map.mp hk'
    have hagain := usedValue_filled first hd
    cases hused : usedValue values applyDefaults d with
    | none =>
      rw [hused] at hagain
      rw [second.unused d hd hagain, first.unused d hd hused]
    | some v =>
      obtain ⟨w, hw, hlookup⟩ := first.used d hd v hused
      rw [hused, Option.bind_some, hw] at hagain
      obtain ⟨w', hw', hlookup'⟩ := second.used d hd w hagain
      obtain ⟨rfl, -⟩ := (normalForm_again hu hk hw).mp hw'
      rw [hlookup, hlookup']
  · rw [second.others k hk', first.others k hk']

theorem normalizeSettings_again (hu : unicode.Documented) (hk : unicode.KeepsText) (hkeys : (schema.settings.map (·.key)).Nodup)
    (h : (normalizeSettings unicode schema scope values applyDefaults).value = some n) :
    (normalizeSettings unicode schema scope n applyDefaults).value = some n' ↔ n' = n ∧
      ∀ d ∈ schema.inScope scope, ∀ v, usedValue values applyDefaults d = some v → BoundedInFormC unicode d v := by
  obtain ⟨-, hfirst⟩ := (normalizeSettings_iff hkeys).mp h
  have first := filled (inScope_keys hkeys) hfirst
  have hknown : ∀ k ∈ n.keys, k ∈ (schema.inScope scope).map (·.key) := by
    intro k hk
    by_contra hnot
    rw [mem_keys, first.others k hnot] at hk
    exact hk rfl
  rw [normalizeSettings_iff hkeys, and_iff_right hknown]
  constructor
  · intro hsecond
    have second := filled (inScope_keys hkeys) hsecond
    refine ⟨filled_again hu hk first second, fun d hd v hused => ?_⟩
    obtain ⟨w, hw, -⟩ := first.used d hd v hused
    have hagain : usedValue n applyDefaults d = some w := by rw [usedValue_filled first hd, hused, Option.bind_some, hw]
    obtain ⟨w', hw', -⟩ := second.used d hd w hagain
    exact ((normalForm_again hu hk hw).mp hw').2
  · rintro ⟨rfl, hbounded⟩
    have htotal : ∀ d ∈ schema.inScope scope, ∀ w, usedValue n' applyDefaults d = some w → ∃ w', normalForm unicode d w = some w' := by
      intro d hd w hagain
      rw [usedValue_filled first hd] at hagain
      obtain ⟨v, hused, hw⟩ := Option.bind_eq_some_iff.mp hagain
      exact ⟨w, (normalForm_again hu hk hw).mpr ⟨rfl, hbounded d hd v hused⟩⟩
    obtain ⟨m, hm⟩ := fill_total htotal []
    obtain rfl := filled_again hu hk first (filled (inScope_keys hkeys) hm)
    exact hm

end Again

section Schemas
variable {unicode : UnicodeTables} {schema : SettingsSchema}

/-- The default is what the definition normalizes some value to. -/
def NormalDefault (unicode : UnicodeTables) (d : SettingDefinition) : Prop :=
  ∃ v path, (normalizeSettingValue unicode d v path).value = some d.defaultValue

theorem normalizeDefault_normal {path : QString} {definition d : SettingDefinition}
    (h : Checked.Clean (normalizeDefault unicode path definition) d) : NormalDefault unicode d ∧ d.key = definition.key := by
  unfold normalizeDefault at h
  dsimp only at h
  rw [Checked.clean_bind] at h
  obtain ⟨e, he, h⟩ := h
  obtain ⟨_, -, h⟩ := Checked.clean_bind.mp h
  obtain rfl := Checked.clean_pure.mp h
  rcases @normalizeSettingValue_decided unicode definition definition.defaultValue (path ++ qstr ".default") with
    ⟨hnone, herrors⟩ | ⟨w, hw, -⟩
  · rw [hnone] at he
    exact absurd he.errors herrors
  · rw [hw] at he
    obtain rfl := Checked.clean_pure.mp he
    exact ⟨⟨definition.defaultValue, _, congrArg ValidationResult.value hw⟩, rfl⟩

theorem checkCondition_kept {index : Nat} {settings : List SettingDefinition} {definition d : SettingDefinition}
    (h : Checked.Clean (checkCondition unicode index settings definition) d) (hd : NormalDefault unicode definition) :
    NormalDefault unicode d ∧ d.key = definition.key := by
  have hsame (condition : Option VisibilityCondition) :
      NormalDefault unicode { definition with visibleWhen := condition } := hd
  unfold checkCondition at h
  split at h
  · exact Checked.clean_pure.mp h ▸ ⟨hd, rfl⟩
  · rename_i condition hcondition
    dsimp only at h
    split at h
    · exact absurd h.errors (List.cons_ne_nil _ _)
    · rename_i previous hprevious
      split_ifs at h with hscope htype
      · exact absurd h.errors (List.cons_ne_nil _ _)
      · exact absurd h.errors (List.cons_ne_nil _ _)
      · split at h
        · rename_i hnone
          rcases @normalizeSettingValue_decided unicode previous condition.equals
              (indexPath (qstr "$.settings") index ++ qstr ".visibleWhen" ++ qstr ".equals") with ⟨-, herrors⟩ | ⟨w, hw, -⟩
          · exact absurd h.errors herrors
          · rw [hw] at hnone
            cases hnone
        · exact Checked.clean_pure.mp h ▸ ⟨hsame _, rfl⟩

theorem parseDefinition_normal {value : QJsonValue} {index : Nat} {d : SettingDefinition}
    (h : Checked.Clean (parseDefinition unicode value index) d) : NormalDefault unicode d := by
  unfold parseDefinition at h
  dsimp only at h
  split_ifs at h with hobject
  · exact absurd h.errors (List.cons_ne_nil _ _)
  · simp only [Checked.clean_bind, Checked.clean_rejectIf] at h
    obtain ⟨key, -, _, -, scopeText, -, _, -, typeText, -, _, htype, label, -, description, -, group, -, _, -, order, -, _, hdefault,
      ⟨definition, fields⟩, -, _, -, visibleWhen, -, h⟩ := h
    rw [Bool.not_eq_false'] at hdefault
    rw [hdefault, Option.isNone_eq_false_iff.mp htype] at h
    exact (normalizeDefault_normal h).1

/-- The definitions read so far: keys apart, defaults in normal form. -/
def Proper (unicode : UnicodeTables) (settings : List SettingDefinition) : Prop :=
  (settings.map (·.key)).Nodup ∧ ∀ d ∈ settings, NormalDefault unicode d

theorem parseDefinitions_proper {items : List QJsonValue} {index : Nat} {keys : List QString} {settings out : List SettingDefinition}
    (h : Checked.Clean (parseDefinitions unicode index keys settings items) out) (hsettings : Proper unicode settings)
    (hkeys : ∀ d ∈ settings, d.key ∈ keys) : Proper unicode out := by
  induction items generalizing index keys settings with
  | nil => exact Checked.clean_pure.mp h ▸ hsettings
  | cons value rest ih =>
    rw [parseDefinitions] at h
    simp only [Checked.clean_bind, Checked.clean_rejectIf] at h
    obtain ⟨read, hread, _, hfresh, d, hd, hrest⟩ := h
    obtain ⟨hnormal, hkey⟩ := checkCondition_kept hd (parseDefinition_normal hread)
    have hnew : ∀ e ∈ settings, e.key ≠ d.key := by
      intro e he heq
      have := hkeys e he
      rw [heq, hkey, ← List.contains_iff_mem, hfresh] at this
      cases this
    refine ih hrest ⟨?_, ?_⟩ ?_
    · rw [List.map_append, List.nodup_append]
      refine ⟨hsettings.1, List.nodup_singleton _, ?_⟩
      rintro k hk l hl rfl
      obtain ⟨e, he, rfl⟩ := List.mem_map.mp hk
      exact hnew e he (by simpa using hl)
    · intro e he
      rcases List.mem_append.mp he with he | he
      · exact hsettings.2 e he
      · exact List.mem_singleton.mp he ▸ hnormal
    · intro e he
      rcases List.mem_append.mp he with he | he
      · exact List.mem_cons_of_mem _ (hkeys e he)
      · exact List.mem_singleton.mp he ▸ List.mem_cons_self

theorem parseSettingsSchema_proper {number : NumberText} {bytes : QByteArray}
    (h : (parseSettingsSchema unicode number bytes).value = some schema) : Proper unicode schema.settings := by
  unfold parseSettingsSchema at h
  dsimp only at h
  split at h
  · cases h
  · rw [Checked.result_value] at h
    obtain ⟨herrors, rfl⟩ := h
    have hclean := Checked.clean_self herrors
    generalize (parseSchemaObject unicode _).value = schema at hclean ⊢
    unfold parseSchemaObject at hclean
    simp only [Checked.clean_bind] at hclean
    obtain ⟨_, -, _, -, hclean⟩ := hclean
    split_ifs at hclean with hbounds
    · exact absurd hclean.errors (List.cons_ne_nil _ _)
    · obtain ⟨settings, hsettings, hschema⟩ := Checked.clean_bind.mp hclean
      obtain rfl := Checked.clean_pure.mp hschema
      exact parseDefinitions_proper hsettings ⟨List.nodup_nil, by simp⟩ (by simp)

/-- A schema that fits is read back from its durable form. -/
theorem parseSettingsSchema_compactJson {number : NumberText} {o : QJsonObject} (ho : Persistable number (.object o))
    (hd : (Json.nesting (.object o) : Int) ≤ maximumSchemaDepth)
    (hb : ((compactJson number (.object o) ++ [0x0a]).length : Int) ≤ maximumSchemaBytes) :
    parseSettingsSchema unicode number (compactJson number (.object o) ++ [0x0a]) = (parseSchemaObject unicode o).result := by
  unfold parseSettingsSchema
  rw [parseStrictJsonObject_compactJson ⟨maximumSchemaBytes, maximumSchemaDepth⟩ ho hd hb]

/-- Defaults are accepted, and stored settings kept, exactly where form C stays within the limits that
keybinding keys and selected paths were held to before it. -/
theorem storedSettings_stable {number : NumberText} {bytes : QByteArray} (hu : unicode.Documented) (hk : unicode.KeepsText)
    (h : (parseSettingsSchema unicode number bytes).value = some schema) (scope : SettingScope) :
    ((normalizeSettings unicode schema scope [] true).value.isSome = true ↔
      ∀ d ∈ schema.inScope scope, BoundedInFormC unicode d d.defaultValue) ∧
    ∀ values applyDefaults n, (normalizeSettings unicode schema scope values applyDefaults).value = some n →
      ((normalizeSettings unicode schema scope n applyDefaults).value = some n ↔
        ∀ d ∈ schema.inScope scope, ∀ v, usedValue values applyDefaults d = some v → BoundedInFormC unicode d v) := by
  obtain ⟨hkeys, hnormal⟩ := parseSettingsSchema_proper h
  refine ⟨?_, fun values applyDefaults n hn => ?_⟩
  · have hused (d : SettingDefinition) : usedValue [] true d = some d.defaultValue := rfl
    have hagain (d : SettingDefinition) (hd : d ∈ schema.inScope scope) :
        (∃ w, normalForm unicode d d.defaultValue = some w) ↔ BoundedInFormC unicode d d.defaultValue := by
      obtain ⟨v, path, hv⟩ := hnormal d (mem_inScope.mp hd).1
      rw [boundedInFormC_normal hu hv]
      constructor
      · rintro ⟨w, hw⟩
        exact ((normalizeSettingValue_again hu hk hv).mp hw).2
      · intro hbounded
        exact ⟨_, (normalizeSettingValue_again hu hk hv).mpr ⟨rfl, hbounded⟩⟩
    rw [Option.isSome_iff_exists]
    constructor
    · rintro ⟨n, hn⟩ d hd
      have hrun := filled (inScope_keys hkeys) ((normalizeSettings_iff hkeys).mp hn).2
      obtain ⟨w, hw, -⟩ := hrun.used d hd _ (hused d)
      exact (hagain d hd).mp ⟨w, hw⟩
    · intro hbounded
      obtain ⟨n, hn⟩ := @fill_total unicode [] true (schema.inScope scope) (fun d hd v hv => by
        obtain rfl := Option.some_inj.mp ((hused d).symm.trans hv)
        exact (hagain d hd).mpr (hbounded d hd)) []
      exact ⟨n, (normalizeSettings_iff hkeys).mpr ⟨by simp [QJsonObject.keys], hn⟩⟩
  · rw [normalizeSettings_again hu hk hkeys hn, and_iff_right rfl]

end Schemas

section Sample

def decomposedUnit (u : UInt16) : QString := if u = 0x958 then [0x915, 0x93c] else [u]

/-- Form C of texts whose only decomposed character is the letter qa, which stays decomposed. -/
def qaTables : UnicodeTables :=
  { CanonicalJson.plainUnicode with
    normalizationFormC := fun s => s.flatMap decomposedUnit
    isUnassigned := fun _ => false }

theorem qaTables_documented : qaTables.Documented where
  normalized_idem s := by
    have hunit (u : UInt16) : (decomposedUnit u).flatMap decomposedUnit = decomposedUnit u := by
      unfold decomposedUnit
      split_ifs with hu
      · decide
      · simp [hu]
    change (s.flatMap decomposedUnit).flatMap decomposedUnit = s.flatMap decomposedUnit
    rw [List.flatMap_assoc]
    exact List.flatMap_congr fun u _ => hunit u
  normalized_text s hs := by
    change IsText (s.flatMap decomposedUnit)
    have hsurrogate (u : UInt16) (hu : isHighSurrogate u = true ∨ isLowSurrogate u = true) : decomposedUnit u = [u] := by
      refine if_neg ?_
      rintro rfl
      exact absurd hu (by decide)
    -- the surrogates stay where they are, and no unit that comes in is one
    induction s using scalars.induct with
    | case1 => exact isText_nil
    | case2 u hu => exact absurd hs (by simp [isText_iff, scalars, hu])
    | case3 u hu v rest hv ih =>
      rw [isText_cons_pair hu hv] at hs
      rw [List.flatMap_cons, List.flatMap_cons, hsurrogate u (.inl hu), hsurrogate v (.inr hv)]
      exact (isText_cons_pair hu hv).mpr (ih hs)
    | case4 u hu v rest hv => exact absurd hs (by simp [isText_iff, scalars, hu, hv])
    | case5 u rest hu hl => exact absurd hs (by rw [isText_iff, scalars.eq_def]; simp [hu, hl])
    | case6 u rest hu hl ih =>
      rw [Bool.not_eq_true] at hu hl
      rw [isText_cons_single hu hl] at hs
      rw [List.flatMap_cons]
      unfold decomposedUnit
      split_ifs with hqa
      · exact IsText.append (by decide) (ih hs)
      · exact (isText_cons_single hu hl).mpr (ih hs)
  normalized_ascii s hs := by
    change s.flatMap decomposedUnit = s
    refine Eq.trans (List.flatMap_congr fun u hu => ?_) (List.flatMap_singleton' s)
    refine if_neg ?_
    rintro rfl
    exact absurd (hs _ hu) (by decide)

theorem qaTables_keepsText : qaTables.KeepsText where
  nonempty s hs h := by
    obtain ⟨u, rest, rfl⟩ := List.exists_cons_of_ne_nil hs
    have hunit : decomposedUnit u ++ rest.flatMap decomposedUnit = [] := h
    have hnil := (List.append_eq_nil_iff.mp hunit).1
    unfold decomposedUnit at hnil
    split_ifs at hnil
  control s hs := by
    have hunits : ∀ u ∈ s, isControl u.toNat = false := by simpa [hasControl] using hs
    refine List.any_eq_false.mpr fun v hv => ?_
    obtain ⟨u, hu, hv⟩ := List.mem_flatMap.mp hv
    have huc := hunits u hu
    unfold decomposedUnit at hv
    split_ifs at hv with hqa
    · rcases List.mem_pair.mp hv with rfl | rfl <;> decide
    · rw [List.mem_singleton.mp hv, huc]
      exact Bool.false_ne_true

def longKey : QString := List.replicate 64 0x958

def chordObject : QJsonObject := [
  (qstr "schemaVersion", .double (.finite 1)),
  (qstr "settings", .array [.object [
    (qstr "default", keybindingValue [] longKey),
    (qstr "description", .string (qstr "Chord")),
    (qstr "group", .string (qstr "keys")),
    (qstr "key", .string (qstr "chord")),
    (qstr "label", .string (qstr "Chord")),
    (qstr "order", .double (.finite 0)),
    (qstr "scope", .string (qstr "component")),
    (qstr "type", .string (qstr "keybinding"))]])]

def chordBytes : QByteArray := compactJson exactDecimal (.object chordObject) ++ [0x0a]

def chordSchema : SettingsSchema := ⟨[{
  key := qstr "chord"
  scope := .componentScope
  type := .keybinding
  label := qstr "Chord"
  description := qstr "Chord"
  group := qstr "keys"
  defaultValue := keybindingValue [] (qaTables.normalized longKey) }]⟩

def chordSettings : QJsonObject := [(qstr "chord", keybindingValue [] longKey)]

def storedChord : QJsonObject := [(qstr "chord", keybindingValue [] (qaTables.normalized longKey))]

theorem chord_evaluated :
    (Persistable exactDecimal (.object chordObject) ∧ (Json.nesting (.object chordObject) : Int) ≤ maximumSchemaDepth ∧
      (chordBytes.length : Int) ≤ maximumSchemaBytes) ∧
    (parseSchemaObject qaTables chordObject).result.value = some chordSchema ∧
    (normalizeSettings qaTables chordSchema .componentScope [] true).value = none ∧
    (normalizeSettings qaTables chordSchema .componentScope chordSettings true).value = some storedChord ∧
    (normalizeSettings qaTables chordSchema .componentScope storedChord true).value = none := by
  decide +kernel

theorem chordSchema_parsed : (parseSettingsSchema qaTables exactDecimal chordBytes).value = some chordSchema := by
  obtain ⟨⟨hpersistable, hnesting, hlength⟩, hschema, -⟩ := chord_evaluated
  unfold chordBytes at hlength ⊢
  rw [parseSettingsSchema_compactJson hpersistable hnesting hlength]
  exact hschema

/-- Sixty-four letters fit; what they become in form C does not. -/
theorem chordSettings_unstable : qaTables.Documented ∧ qaTables.KeepsText ∧
    (parseSettingsSchema qaTables exactDecimal chordBytes).value = some chordSchema ∧
    (normalizeSettings qaTables chordSchema .componentScope [] true).value = none ∧
    (normalizeSettings qaTables chordSchema .componentScope chordSettings true).value = some storedChord ∧
    (normalizeSettings qaTables chordSchema .componentScope storedChord true).value = none :=
  ⟨qaTables_documented, qaTables_keepsText, chordSchema_parsed, chord_evaluated.2.2⟩

theorem storedSettings_stable_sample :
    ((normalizeSettings qaTables chordSchema .componentScope [] true).value.isSome = true ↔
      ∀ d ∈ chordSchema.inScope .componentScope, BoundedInFormC qaTables d d.defaultValue) ∧
    ∀ values applyDefaults n, (normalizeSettings qaTables chordSchema .componentScope values applyDefaults).value = some n →
      ((normalizeSettings qaTables chordSchema .componentScope n applyDefaults).value = some n ↔
        ∀ d ∈ chordSchema.inScope .componentScope, ∀ v, usedValue values applyDefaults d = some v → BoundedInFormC qaTables d v) :=
  storedSettings_stable qaTables_documented qaTables_keepsText chordSchema_parsed .componentScope

end Sample

end HyprShelld.Components
