import HyprShelld.Client.OptionEdit

/-! An edit of option values in an accepted snapshot: what is in the candidate, and the same edit once more. -/
namespace HyprShelld.Client
open Hyprland QJsonObject Json

section Readable
variable {p : Platform} {catalog : Catalog} {original overrides kept : QJsonObject}

theorem resolvedOptionValues_of_settles (hvalid : ValidOptions p catalog) {options : List OptionDefinition}
    (h : ∀ option ∈ options, option ∈ catalog.options ∧ ∃ v, Settles p catalog overrides option v) :
    ∃ values, resolvedOptionValues p catalog overrides options = .ok values := by
  induction options with
  | nil => exact ⟨[], rfl⟩
  | cons option rest ih =>
    obtain ⟨⟨hoption, v, hv⟩, hrest⟩ := List.forall_mem_cons.mp h
    obtain ⟨others, hothers⟩ := ih hrest
    exact ⟨_, bind_ok_iff.mpr ⟨v, (resolved_iff hvalid hoption).mpr hv, bind_ok_iff.mpr ⟨others, hothers, rfl⟩⟩⟩

/-- No option that inherits its default is constrained beyond its type. -/
def InheritsFreely (catalog : Catalog) : Prop :=
  ∀ option ∈ catalog.options, option.inheritedDefaultFrom ≠ none → option.constraints = {}

/-- Such an option takes every value of an option of its type. -/
theorem validValue_of_type {option source : OptionDefinition} (htype : source.type = option.type) (hfree : option.constraints = {})
    {v : QJsonValue} (hv : ValidValue p source v) : ValidValue p option v := by
  have hallowed : constraintAllowsValue p option v = true := by
    simp [constraintAllowsValue, hfree, componentAllowed]
  simp only [ValidValue, validateOptionValue, htype, Checked.bind_errors, List.append_eq_nil_iff, Checked.rejectIf_errors] at hv ⊢
  exact ⟨hv.1, by rw [hallowed, Bool.not_true, Bool.and_false]⟩

theorem settles_of_overrides (hvalid : ValidOptions p catalog) (hfree : InheritsFreely catalog)
    (hoverrides : ∀ option ∈ catalog.options, ∀ v, overrides.lookup option.id = some v → ValidValue p option v)
    {option : OptionDefinition} (hoption : option ∈ catalog.options) : ∃ v, Settles p catalog overrides option v := by
  induction hvalid.grounded option hoption with
  | intro option _ ih =>
    cases hown : overrides.lookup option.id with
    | some v => exact ⟨v, .override hown (hoverrides option hoption v hown)⟩
    | none =>
      by_cases hfrom : option.inheritedDefaultFrom = none
      · refine ⟨_, .default hown ?_ (hvalid.default option hoption hfrom _)⟩
        rw [parentOption, hfrom]
        rfl
      · obtain ⟨source, hsource, hparent, htype⟩ := hvalid.source option hoption hfrom
        obtain ⟨v, hv⟩ := ih source hparent hsource
        exact ⟨v, .inherited hown hparent hv (validValue_of_type htype (hfree option hoption hfrom) hv.isValid)⟩

end Readable

section Authority
variable {snapshot : QJsonObject} {revision : UInt64} {catalogDigest actionCatalogDigest : QString}

/-- Other overrides leave a snapshot the one of its authorities. -/
theorem snapshotMatchesAuthority_overrides (kept : QJsonObject)
    (h : snapshotMatchesAuthority snapshot revision catalogDigest actionCatalogDigest = true) :
    snapshotMatchesAuthority (snapshot.insert (qstr "overrides") (.object kept)) revision catalogDigest actionCatalogDigest = true := by
  have hvalue (key : QString) (hkey : key ≠ qstr "overrides") :
      (snapshot.insert (qstr "overrides") (.object kept)).value key = snapshot.value key := by
    rw [value_insert (by simp), if_neg hkey]
  have hkeys (key : QString) : key ∈ (snapshot.insert (qstr "overrides") (.object kept)).keys ↔
      key = qstr "overrides" ∨ key ∈ snapshot.keys := by
    rw [mem_keys, mem_keys, lookup_insert _ _ _ (by simp)]
    split_ifs with hkey <;> simp [hkey]
  have hown : (snapshot.insert (qstr "overrides") (.object kept)).value (qstr "overrides") = .object kept := by
    rw [value_insert (by simp), if_pos rfl]
  have harrays : ∀ key ∈ arrayFields, key ≠ qstr "overrides" := by decide +kernel
  have hknown : qstr "overrides" ∈ rootFields := by decide +kernel
  simp only [snapshotMatchesAuthority, Bool.and_eq_true, List.all_eq_true, List.contains_iff_mem] at h ⊢
  rw [hvalue (qstr "formatVersion") (by decide), hvalue (qstr "revision") (by decide), hvalue (qstr "targetHyprland") (by decide),
    hvalue (qstr "catalogDigest") (by decide), hvalue (qstr "actionCatalogDigest") (by decide), hown]
  obtain ⟨⟨⟨⟨⟨⟨⟨⟨⟨⟨hall, hknows⟩, hformat⟩, hrevision⟩, htext⟩, htarget⟩, hnonempty⟩, hcatalog⟩, hactions⟩, -⟩, hfields⟩ := h
  refine ⟨⟨⟨⟨⟨⟨⟨⟨⟨⟨fun key hkey => ?_, fun key hkey => (hkeys key).mpr (.inr (hknows key hkey))⟩, hformat⟩, hrevision⟩, htext⟩,
    htarget⟩, hnonempty⟩, hcatalog⟩, hactions⟩, rfl⟩, fun key hkey => ?_⟩
  · rcases (hkeys key).mp hkey with rfl | hkey
    · exact hknown
    · exact hall key hkey
  · rw [hvalue key (harrays key hkey)]
    exact hfields key hkey

end Authority

section Whole
variable {p : Platform} {catalog : Catalog} {actionCatalog : ActionCatalog}

/-- What an option resolves to in a snapshot. -/
def effectiveOptionValue (p : Platform) (catalog : Catalog) (snapshot : QJsonObject) (option : OptionDefinition) : Except QString QJsonValue :=
  resolvedOptionValue p catalog (snapshot.value (qstr "overrides")).toObject (catalog.options.length + 1) [] option

/-- An edit has exactly the effect asked for. -/
structure ExactEdit (p : Platform) (catalog : Catalog) (actionCatalog : ActionCatalog) (snapshot : QJsonObject)
    (values : QMap QVariant) (edit : SnapshotEdit) (candidate : QJsonObject) : Prop where
  document : edit.candidate = canonicalJson p (.object candidate) ++ [0x0a]
  accepted : ∃ next, (parseDesiredState p edit.candidate catalog actionCatalog).value = some next ∧ stateObject next = candidate
  effective : ∀ e ∈ requestedValues values, ∃ option, findOption catalog e.1 = some option ∧
    effectiveOptionValue p catalog candidate option = .ok e.2
  listed : ∀ all, allOptionValues p catalog candidate = .ok all → ∀ e ∈ requestedValues values, all.lookup e.1 = some e.2
  readable : InheritsFreely catalog → (∃ all, allOptionValues p catalog snapshot = .ok all) →
    ∃ all, allOptionValues p catalog candidate = .ok all
  complete : InheritsFreely catalog → (∃ next, (parseDesiredState p edit.candidate catalog actionCatalog).value = some next ∧
    next.readOnly = false) → ∃ all, allOptionValues p catalog candidate = .ok all
  others : ∀ id, id ∉ (requestedValues values).map (·.1) →
    (candidate.value (qstr "overrides")).toObject.lookup id = (snapshot.value (qstr "overrides")).toObject.lookup id
  fields : ∀ key, key ≠ qstr "overrides" → candidate.value key = snapshot.value key
  minimal : ∀ e ∈ requestedValues values, ∀ v, (candidate.value (qstr "overrides")).toObject.lookup e.1 = some v →
    ∃ option d, findOption catalog e.1 = some option ∧ v ≠ d ∧ effectiveOptionValue p catalog
      (candidate.insert (qstr "overrides") (.object ((candidate.value (qstr "overrides")).toObject.remove e.1))) option = .ok d
  changed : edit.changed = false ↔ candidate.value (qstr "overrides") = snapshot.value (qstr "overrides")

theorem validatedCandidate_ok {candidate : QJsonObject} {changed : Bool} {edit : SnapshotEdit} :
    validatedCandidate p candidate changed catalog actionCatalog = .ok edit ↔
      (canonicalJson p (.object candidate) ++ [0x0a]).length ≤ maximumDesiredStateBytes ∧
      ∃ next, (parseDesiredState p (canonicalJson p (.object candidate) ++ [0x0a]) catalog actionCatalog).value = some next ∧
        (changed = true → validateManagedActivationSafety next catalog = []) ∧
        edit = { candidate := canonicalJson p (.object candidate) ++ [0x0a], changed } := by
  unfold validatedCandidate
  dsimp only
  constructor
  · intro h
    split_ifs at h with hlength
    split at h
    · cases h
    · rename_i next hnext
      split_ifs at h with hunsafe
      exact ⟨not_lt.mp hlength, next, hnext, fun hchanged => by simpa [hchanged] using hunsafe, (pure_ok_iff.mp h).symm⟩
  · rintro ⟨hlength, next, hnext, hsafe, rfl⟩
    rw [if_neg (not_lt.mpr hlength), hnext]
    dsimp only
    rw [if_neg]
    · rfl
    · simpa using hsafe

theorem stored_edited {original provisional kept : QJsonObject} {requested : List (QString × QJsonValue)}
    (h : Edited p catalog original provisional kept requested) (hkept : Sorted kept)
    (horiginal : Components.Stored (.object original)) (hrequested : ∀ e ∈ requested, Components.Stored e.2) :
    Components.Stored (.object kept) := by
  refine ⟨hkept, validMembers_iff.mpr fun e he => ⟨trivial, ?_⟩⟩
  have hlookup := lookup_eq_some_of_mem hkept he
  by_cases hasked : e.1 ∈ requested.map (·.1)
  · obtain ⟨e', he', hid⟩ := List.mem_map.mp hasked
    obtain ⟨-, d, -, -, -, hstored⟩ := h.stored e' he'
    rw [hid, hlookup] at hstored
    split_ifs at hstored
    rw [Option.some_inj.mp hstored]
    exact hrequested e' he'
  · rw [h.others e.1 hasked] at hlookup
    exact (validMembers_iff.mp horiginal.2 e (mem_of_lookup_eq_some hlookup)).2

theorem effectiveOptionValue_iff {snapshot overrides : QJsonObject} (hvalid : ValidOptions p catalog) {option : OptionDefinition}
    (hoption : option ∈ catalog.options) (hoverrides : snapshot.value (qstr "overrides") = .object overrides) {v : QJsonValue} :
    effectiveOptionValue p catalog snapshot option = .ok v ↔ Settles p catalog overrides option v := by
  rw [effectiveOptionValue, hoverrides]
  exact resolved_iff hvalid hoption

theorem findOption_self (hvalid : ValidOptions p catalog) {option : OptionDefinition} (hoption : option ∈ catalog.options) :
    findOption catalog option.id = some option := by
  cases h : findOption catalog option.id with
  | none => simpa using List.find?_eq_none.mp h option hoption
  | some other =>
    obtain ⟨hmem, hid⟩ := findOption_mem h
    rw [List.inj_on_of_nodup_map hvalid.ids hmem hoption hid]

theorem overrides_of_matches {snapshot : QJsonObject} {revision : UInt64} {catalogDigest actionCatalogDigest : QString}
    (h : snapshotMatchesAuthority snapshot revision catalogDigest actionCatalogDigest = true) :
    ∃ overrides, snapshot.value (qstr "overrides") = .object overrides := by
  simp only [snapshotMatchesAuthority, Bool.and_eq_true] at h
  obtain ⟨⟨-, hobject⟩, -⟩ := h
  cases hv : snapshot.value (qstr "overrides") with
  | object overrides => exact ⟨overrides, rfl⟩
  | _ =>
    rw [hv] at hobject
    cases hobject

/-- What the parser makes of a candidate it accepts. -/
theorem stateObject_candidate {candidate : QJsonObject} {next : DesiredState} (hstored : Components.Stored (.object candidate))
    (h : (parseDesiredState p (canonicalJson p (.object candidate) ++ [0x0a]) catalog actionCatalog).value = some next) :
    stateObject next = candidate := by
  obtain ⟨-, hparsed⟩ := authorities_of_parse h
  unfold parseDesiredStateForAuthorities at hparsed
  dsimp only at hparsed
  split at hparsed
  · rename_i root hroot
    obtain rfl := Components.parseStrictJsonObject_written hstored hroot
    exact stateObject_parseRoot (Components.parseStrictJsonObject_sound hroot).1 hparsed
  · cases hparsed

/-- The overrides of an accepted document that can be edited are values of their options. -/
theorem overrides_valid {bytes : QByteArray} {state : DesiredState} (hvalid : ValidOptions p catalog)
    (h : (parseDesiredState p bytes catalog actionCatalog).value = some state) (heditable : state.readOnly = false)
    {overrides : QJsonObject} (hoverrides : (stateObject state).value (qstr "overrides") = .object overrides)
    {option : OptionDefinition} (hoption : option ∈ catalog.options) {v : QJsonValue} (hv : overrides.lookup option.id = some v) :
    ValidValue p option v := by
  obtain ⟨root, -, -, hobject, hparsed⟩ := parsed_root (authorities_of_parse h).2
  rw [hobject] at hoverrides
  obtain ⟨herrors, rfl⟩ := Checked.result_value.mp (congrArg ValidationResult.value hparsed)
  simp only [Checked.bind_errors, List.append_eq_nil_iff] at herrors
  simp only [Checked.bind_value] at heditable
  split_ifs at herrors heditable with hread
  · exact absurd (hread.symm.trans heditable) (by simp)
  · simp only [parseBody, readOverrides, Checked.bind_errors, List.append_eq_nil_iff, Checked.rejectIf_errors] at herrors
    obtain ⟨-, -, -, ⟨hobject, hlength, heach⟩, -⟩ := herrors
    rw [List.take_of_length_le (by simpa using hlength)] at heach
    obtain rfl : (readObject root (qstr "overrides") (qstr "$")).value = overrides :=
      QJsonValue.object.inj ((readObject_ok hobject).symm.trans hoverrides)
    obtain ⟨found, hfound, hchecked⟩ := parseOverrides_each heach _ (mem_of_lookup_eq_some hv)
    rw [findOption_self hvalid hoption] at hfound
    obtain rfl := Option.some_inj.mp hfound
    simp only [validateOverride, Checked.bind_errors, List.append_eq_nil_iff] at hchecked
    exact validateOptionValue_path hchecked.1

/-- What is in the candidate of an edit. -/
theorem exactEdit_of {snapshot overrides candidate : QJsonObject} {values : QMap QVariant} {changed : Bool} {edit : SnapshotEdit}
    (hvalid : ValidOptions p catalog) (hvalues : QMap.Sorted values) (hsnapshot : Components.Stored (.object snapshot))
    (hoverrides : snapshot.value (qstr "overrides") = .object overrides)
    (hreplaced : replaceAllOptionValues p catalog values snapshot = .ok (candidate, changed))
    (hvalidated : validatedCandidate p candidate changed catalog actionCatalog = .ok edit) :
    ExactEdit p catalog actionCatalog snapshot values edit candidate := by
  have hstored : Components.Stored (.object overrides) := value_valid hsnapshot hoverrides (by simp)
  have hentries := strictOptionValues_ok ((replaceAllOptionValues_iff hoverrides).mp hreplaced).1
  obtain ⟨kept, hcandidate, hchanged, hkept, hedited⟩ := replaceAllOptionValues_ok hvalid hvalues hoverrides hstored.1 hreplaced
  obtain ⟨-, next, hnext, -, rfl⟩ := validatedCandidate_ok.mp hvalidated
  have hown : candidate.value (qstr "overrides") = .object kept := by
    rw [← hcandidate, value_insert (by simp), if_pos rfl]
  have heffective (e) (he : e ∈ requestedValues values) : ∃ option, findOption catalog e.1 = some option ∧
      option ∈ catalog.options ∧ Settles p catalog kept option e.2 := by
    obtain ⟨option, hoption, hid, hsettles⟩ := hedited.effective hvalid he
    exact ⟨option, hid ▸ findOption_self hvalid hoption, hoption, hsettles⟩
  have hobject : stateObject next = candidate := by
    refine stateObject_candidate ?_ hnext
    have hrequested (e) (he : e ∈ requestedValues values) : Components.Stored e.2 := by
      obtain ⟨m, hm, rfl⟩ := List.mem_map.mp he
      exact m.2.stored (hentries.2 _ he).1
    rw [← hcandidate, QJsonObject.insert, if_neg (by simp)]
    exact ⟨sorted_put hsnapshot.1 _ _, validMembers_put hsnapshot.2 trivial (stored_edited hedited hkept hstored hrequested)⟩
  have hall (hfree : InheritsFreely catalog)
      (hkeptValid : ∀ option ∈ catalog.options, ∀ v, kept.lookup option.id = some v → ValidValue p option v) :
      ∃ all, allOptionValues p catalog candidate = .ok all := by
    obtain ⟨all, hall⟩ := resolvedOptionValues_of_settles hvalid fun option hoption =>
      ⟨hoption, settles_of_overrides hvalid hfree hkeptValid hoption⟩
    refine ⟨QMap.ofList all, ?_⟩
    rw [allOptionValues, hown]
    exact bind_ok_iff.mpr ⟨all, hall, rfl⟩
  refine ⟨rfl, ⟨next, hnext, hobject⟩, fun e he => ?_, fun all hall e he => ?_, fun hfree hbefore => ?_,
    fun hfree heditable => ?_, fun id hid => ?_, fun key hkey => ?_, fun e he v hv => ?_, ?_⟩
  · obtain ⟨option, hoption, hmem, hsettles⟩ := heffective e he
    exact ⟨option, hoption, (effectiveOptionValue_iff hvalid hmem hown).mpr hsettles⟩
  · obtain ⟨option, hoption, hmem, hsettles⟩ := heffective e he
    obtain ⟨v, hv, hsettles'⟩ := allOptionValues_ok hvalid hown hall option hmem
    rw [← (findOption_mem hoption).2, hv, hsettles'.unique hsettles]
  · obtain ⟨before, hbefore⟩ := hbefore
    refine hall hfree fun option hoption v hv => ?_
    by_cases hasked : option.id ∈ (requestedValues values).map (·.1)
    · obtain ⟨e, he, hid⟩ := List.mem_map.mp hasked
      obtain ⟨found, d, hfound, hvalue, -, hlookup⟩ := hedited.stored e he
      rw [hid, findOption_self hvalid hoption] at hfound
      obtain rfl := Option.some_inj.mp hfound
      rw [hid, hv] at hlookup
      split_ifs at hlookup
      rw [Option.some_inj.mp hlookup]
      exact hvalue
    · rw [hedited.others _ hasked] at hv
      obtain ⟨w, -, hsettles⟩ := allOptionValues_ok hvalid hoverrides hbefore option hoption
      cases hsettles with
      | override hlookup hvalue => exact Option.some_inj.mp (hv.symm.trans hlookup) ▸ hvalue
      | inherited hnone _ _ _ => cases hv.symm.trans hnone
      | default hnone _ _ => cases hv.symm.trans hnone
  · obtain ⟨state, hstate, heditable⟩ := heditable
    obtain rfl := Option.some_inj.mp (hstate.symm.trans hnext)
    exact hall hfree fun option hoption v hv =>
      overrides_valid hvalid hnext heditable (hobject ▸ hown) hoption hv
  · rw [hown, hoverrides]
    exact hedited.others id hid
  · rw [← hcandidate, value_insert (by simp), if_neg hkey]
  · rw [hown] at hv ⊢
    obtain ⟨option, hoption, hid, d, hsettles, hne⟩ := hedited.minimal hvalid he hv
    exact ⟨option, d, hid ▸ findOption_self hvalid hoption, hne,
      (effectiveOptionValue_iff hvalid hoption (by rw [value_insert (by simp), if_pos rfl]; rfl)).mpr hsettles⟩
  · rw [hown, hoverrides, QJsonValue.object.injEq]
    cases changed <;> simp_all

/-- An edit that succeeds has exactly the effect asked for, and asking once more changes nothing. -/
theorem optionsEdit_exact {bytes : QByteArray} {state : DesiredState} {revision : UInt64}
    {expectedCatalogDigest expectedActionCatalogDigest : QString} {values : QMap QVariant} {edit : SnapshotEdit}
    (hcatalog : (checkCatalogOptions p catalog).errors = [])
    (hstate : (parseDesiredState p bytes catalog actionCatalog).value = some state) (hvalues : QMap.Sorted values)
    (hedit : replaceAllOptions p (stateObject state) revision expectedCatalogDigest expectedActionCatalogDigest catalog
      actionCatalog values = .ok edit) :
    ∃ candidate, ExactEdit p catalog actionCatalog (stateObject state) values edit candidate ∧
      replaceAllOptions p candidate revision expectedCatalogDigest expectedActionCatalogDigest catalog actionCatalog values =
        .ok { edit with changed := false } := by
  have hvalid := validOptions hcatalog
  obtain ⟨snapshot, hpersistable, -, hobject, -⟩ := parsed_root (authorities_of_parse hstate).2
  rw [hobject] at hedit ⊢
  unfold replaceAllOptions at hedit
  split_ifs at hedit with hstale
  obtain ⟨⟨candidate, changed⟩, hreplaced, hvalidated⟩ := bind_ok_iff.mp hedit
  have hmatches : snapshotMatchesAuthority snapshot revision expectedCatalogDigest expectedActionCatalogDigest = true := by
    simp only [Bool.or_eq_true, not_or, Bool.not_eq_true', Bool.not_eq_false] at hstale
    exact hstale.2
  obtain ⟨overrides, hoverrides⟩ := overrides_of_matches hmatches
  have hsnapshot := Components.Stored.of_persistable hpersistable
  refine ⟨candidate, exactEdit_of hvalid hvalues hsnapshot hoverrides hreplaced hvalidated, ?_⟩
  obtain ⟨hlength, next, hnext, -, rfl⟩ := validatedCandidate_ok.mp hvalidated
  have hstored : Components.Stored (.object overrides) := value_valid hsnapshot hoverrides (by simp)
  have hagain := replaceAllOptionValues_again hvalues hoverrides hstored.1 hsnapshot.1 hreplaced
  obtain ⟨kept, hcandidate, -⟩ := replaceAllOptionValues_ok hvalid hvalues hoverrides hstored.1 hreplaced
  have hstill : ¬(revision = 0xffffffffffffffff || catalog.digest ≠ expectedCatalogDigest ||
      actionCatalog.digest ≠ expectedActionCatalogDigest ||
      !snapshotMatchesAuthority candidate revision expectedCatalogDigest expectedActionCatalogDigest) = true := by
    rw [← hcandidate, snapshotMatchesAuthority_overrides kept hmatches]
    rwa [hmatches] at hstale
  unfold replaceAllOptions
  rw [if_neg hstill]
  exact bind_ok_iff.mpr ⟨_, hagain, validatedCandidate_ok.mpr ⟨hlength, next, hnext, by simp, rfl⟩⟩

end Whole

section Sample

def inheritingOption (id path source : String) (type : OptionType) : OptionDefinition where
  id := qstr id
  path := qstr path
  type := type
  defaultValue := .object [(qstr "from", .string (qstr source)), (qstr "kind", .string (qstr "inherit"))]
  inheritedDefaultFrom := some (qstr source)

def plainGradient : QJsonValue :=
  .object [(qstr "angle", integer 0), (qstr "colors", .array [.string (qstr "0xEE1A1A1A")])]

/-- The options whose defaults are inherited, and those they are inherited from. -/
def inheritingCatalog : Catalog := { sampleCatalog with
  options := [
    { id := qstr "glow.color", path := qstr "decoration:glow:color", type := .gradient, defaultValue := plainGradient },
    inheritingOption "glow.color_inactive" "decoration:glow:color_inactive" "decoration:glow:color" .gradient,
    { id := qstr "shadow.color", path := qstr "decoration:shadow:color", type := .gradient, defaultValue := plainGradient },
    inheritingOption "shadow.color_inactive" "decoration:shadow:color_inactive" "decoration:shadow:color" .gradient,
    { id := qstr "text_color", path := qstr "group:groupbar:text_color", type := .color,
      defaultValue := .string (qstr "0xFFFFFFFF") },
    inheritingOption "text_color_inactive" "group:groupbar:text_color_inactive" "group:groupbar:text_color" .color,
    inheritingOption "text_color_locked_active" "group:groupbar:text_color_locked_active" "group:groupbar:text_color" .color,
    inheritingOption "text_color_locked_inactive" "group:groupbar:text_color_locked_inactive"
      "group:groupbar:text_color_inactive" .color] }

/-- A state with overrides only. -/
def coloredState (overrides : QJsonObject) : DesiredState := { sampleState with overrides, curves := [], environment := [] }

/-- The inactive text is red. -/
def redText : QJsonObject := [(qstr "text_color_inactive", .string (qstr "0xFFFF0000"))]

def green : QJsonValue := .string (qstr "0xFF00FF00")

/-- All text is to be green. -/
def greenText : QMap QVariant :=
  QMap.ofList ([qstr "text_color", qstr "text_color_inactive"].map fun id =>
    (id, { isString := true, json := green, stored := fun _ => trivial }))

/-- The members of a colored state behind its overrides. -/
def coloredRest : List (QString × QJsonValue) := (stateMembers (coloredState [])).drop 6

theorem stateObject_coloredState (overrides overrides' : QJsonObject) : stateObject (coloredState overrides') =
    (stateObject (coloredState overrides)).insert (qstr "overrides") (.object (ofList overrides')) := by
  have hmembers (o : QJsonObject) : stateObject (coloredState o) =
      ofList ((stateMembers (coloredState [])).take 5 ++ (qstr "overrides", .object (ofList o)) :: coloredRest) := rfl
  rw [hmembers, hmembers]
  refine ofList_replace ?_ ?_ (by simp) (by simp)
  · change ((stateMembers (coloredState [])).map (·.1)).Nodup
    decide +kernel
  · decide +kernel

def greenEdit : SnapshotEdit where
  candidate := serializeDesiredState plainPlatform (coloredState [(qstr "text_color", green)])
  changed := true

theorem greenEdit_evaluated :
    (checkCatalogOptions plainPlatform inheritingCatalog).errors = [] ∧
      Evaluated plainPlatform inheritingCatalog sampleActionCatalog (coloredState redText) ∧
      Evaluated plainPlatform inheritingCatalog sampleActionCatalog (coloredState [(qstr "text_color", green)]) ∧
      snapshotMatchesAuthority (stateObject (coloredState redText)) 7 reviewedCatalogDigest reviewedActionCatalogDigest = true ∧
      (strictOptionValues plainPlatform inheritingCatalog greenText).isOk = true ∧
      (storeOverrides plainPlatform inheritingCatalog [] (provisionalOverrides greenText redText) (requestedValues greenText)
        redText).toOption = some [(qstr "text_color", green)] ∧
      validateManagedActivationSafety (coloredState [(qstr "text_color", green)]) inheritingCatalog = [] := by decide +kernel

theorem greenEdit_made :
    replaceAllOptions plainPlatform (stateObject (coloredState redText)) 7 reviewedCatalogDigest reviewedActionCatalogDigest
      inheritingCatalog sampleActionCatalog greenText = .ok greenEdit := by
  obtain ⟨-, -, hgreen, hmatches, hstrict, hkept, hsafe⟩ := greenEdit_evaluated
  have hoverrides : (stateObject (coloredState redText)).value (qstr "overrides") = .object redText := by
    rw [stateObject_coloredState [], value_insert (by simp), if_pos rfl]
    rfl
  have hmade : replaceAllOptionValues plainPlatform inheritingCatalog greenText (stateObject (coloredState redText)) =
      .ok (stateObject (coloredState [(qstr "text_color", green)]), true) := by
    refine (replaceAllOptionValues_iff hoverrides).mpr ⟨?_, [(qstr "text_color", green)], ?_, ?_, by decide +kernel⟩
    · cases hentries : strictOptionValues plainPlatform inheritingCatalog greenText with
      | error e =>
        rw [hentries] at hstrict
        cases hstrict
      | ok entries => exact congrArg _ (strictOptionValues_ok hentries).1
    · rw [storeOverrides_snapshot []]
      exact ok_of_toOption hkept
    · exact (stateObject_coloredState redText [(qstr "text_color", green)]).symm
  unfold replaceAllOptions
  rw [if_neg (by rw [hmatches]; decide +kernel)]
  exact bind_ok_iff.mpr ⟨_, hmade, validatedCandidate_ok.mpr
    ⟨hgreen.size, _, congrArg ValidationResult.value hgreen.parsed, fun _ => hsafe, rfl⟩⟩

theorem optionsEdit_exact_sample :
    ∃ candidate, ExactEdit plainPlatform inheritingCatalog sampleActionCatalog (stateObject (coloredState redText)) greenText
        greenEdit candidate ∧
      replaceAllOptions plainPlatform candidate 7 reviewedCatalogDigest reviewedActionCatalogDigest inheritingCatalog
        sampleActionCatalog greenText = .ok { greenEdit with changed := false } :=
  optionsEdit_exact greenEdit_evaluated.1 (congrArg ValidationResult.value greenEdit_evaluated.2.1.parsed)
    (QMap.sorted_ofList _) greenEdit_made

end Sample

end HyprShelld.Client
