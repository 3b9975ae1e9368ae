import HyprShelld.Client.SnapshotEditor

/-! An edit of option values has exactly the effect asked for. -/
namespace HyprShelld.Client
open Hyprland QJsonObject Json

section Resolution
variable {p : Platform} {catalog : Catalog} {overrides : QJsonObject}

/-- A value that an option accepts. -/
def ValidValue (p : Platform) (option : OptionDefinition) (v : QJsonValue) : Prop :=
  (validateOptionValue p option v (qstr "$")).errors = []

/-- What an option resolves to under overrides. -/
abbrev Settles (p : Platform) (catalog : Catalog) (overrides : QJsonObject) : OptionDefinition → QJsonValue → Prop :=
  Resolves (parentOption catalog) (·.defaultValue) (ValidValue p) fun option => overrides.lookup option.id

/-- The resolution of the client is the one of the catalog: with a round for every option it does not
run out, and no option is visited twice. -/
theorem resolvedOptionValue_iff (hvalid : ValidOptions p catalog) {rounds : Nat} {visiting : List QString}
    {option : OptionDefinition} (hoption : option ∈ catalog.options)
    (hrounds : ((catalog.options.map (·.id)).filter (· ∉ visiting)).length < rounds)
    (hnew : ∀ x, Relation.ReflTransGen (Inherits (parentOption catalog)) option x → x.id ∉ visiting) {v : QJsonValue} :
    resolvedOptionValue p catalog overrides rounds visiting option = .ok v ↔ Settles p catalog overrides option v := by
  induction rounds generalizing visiting option v with
  | zero => exact absurd hrounds (Nat.not_lt_zero _)
  | succ rounds ih =>
    have hvisit := hnew option .refl
    have hchecked (value : QJsonValue) :
        (if (validateOptionValue p option value (qstr "$")).errors = [] then pure value
          else throw (qstr "The compositor option value " ++ option.id ++ qstr " is invalid") : Except QString QJsonValue) =
            .ok v ↔ value = v ∧ ValidValue p option v := by
      split_ifs with hvalue
      · rw [pure_ok_iff, and_iff_left_of_imp]
        rintro rfl
        exact hvalue
      · refine ⟨fun h => (by cases h), ?_⟩
        rintro ⟨rfl, hvalue'⟩
        exact absurd hvalue' hvalue
    unfold resolvedOptionValue
    rw [if_neg (by simpa using hvisit)]
    simp only [bind_ok_iff, hchecked]
    cases hown : overrides.lookup option.id with
    | some value =>
      simp only [pure_ok_iff]
      constructor
      · rintro ⟨_, rfl, rfl, hvalue⟩
        exact .override hown hvalue
      · intro h
        cases h with
        | override hown' hvalue => exact ⟨v, Option.some_inj.mp (hown.symm.trans hown'), rfl, hvalue⟩
        | inherited hnone _ _ _ => cases hown.symm.trans hnone
        | default hnone _ _ => cases hown.symm.trans hnone
    | none =>
      cases hfrom : option.inheritedDefaultFrom with
      | none =>
        have hparent : parentOption catalog option = none := by rw [parentOption, hfrom]; rfl
        simp only [pure_ok_iff]
        constructor
        · rintro ⟨_, rfl, rfl, hvalue⟩
          exact .default hown hparent hvalue
        · intro h
          cases h with
          | override hown' _ => cases hown.symm.trans hown'
          | inherited _ hsome _ _ => cases hparent.symm.trans hsome
          | default _ _ hvalue => exact ⟨_, rfl, rfl, hvalue⟩
      | some path =>
        obtain ⟨source, hsource, hparent, -⟩ := hvalid.source option hoption (by simp [hfrom])
        have hfound : optionByPath catalog path = some source := by rwa [parentOption, hfrom, Option.bind_some] at hparent
        have hfewer := unvisited_lt (List.mem_map_of_mem hoption : option.id ∈ catalog.options.map (·.id)) hvisit
        have hapart (x : OptionDefinition) (hx : Relation.ReflTransGen (Inherits (parentOption catalog)) source x) :
            x.id ∉ option.id :: visiting := by
          rw [List.mem_cons, not_or]
          exact ⟨hvalid.apart hoption (.head' hparent hx), hnew x (.head hparent hx)⟩
        simp only [hfound, ih hsource (by omega) hapart]
        constructor
        · rintro ⟨_, hresolves, rfl, hvalue⟩
          exact .inherited hown hparent hresolves hvalue
        · intro h
          cases h with
          | override hown' _ => cases hown.symm.trans hown'
          | inherited _ hparent' hresolves hvalue =>
            obtain rfl := Option.some_inj.mp (hparent.symm.trans hparent')
            exact ⟨v, hresolves, rfl, hvalue⟩
          | default _ hnone _ => cases hparent.symm.trans hnone

theorem resolved_iff (hvalid : ValidOptions p catalog) {option : OptionDefinition} (hoption : option ∈ catalog.options)
    {v : QJsonValue} : resolvedOptionValue p catalog overrides (catalog.options.length + 1) [] option = .ok v ↔
      Settles p catalog overrides option v := by
  refine resolvedOptionValue_iff hvalid hoption (Nat.lt_succ_of_le ?_) (by simp)
  exact (List.length_filter_le _ _).trans_eq (List.length_map _)

theorem resolvedOptionValues_ok (hvalid : ValidOptions p catalog) {options : List OptionDefinition}
    (hoptions : ∀ option ∈ options, option ∈ catalog.options) {values : List (QString × QJsonValue)}
    (h : resolvedOptionValues p catalog overrides options = .ok values) :
    values.map (·.1) = options.map (·.id) ∧ ∀ option ∈ options, ∃ v, (option.id, v) ∈ values ∧ Settles p catalog overrides option v := by
  induction options generalizing values with
  | nil =>
    obtain rfl := pure_ok_iff.mp h
    exact ⟨rfl, by simp⟩
  | cons option rest ih =>
    obtain ⟨hoption, hrest⟩ := List.forall_mem_cons.mp hoptions
    obtain ⟨v, hv, h⟩ := bind_ok_iff.mp h
    obtain ⟨others, hothers, h⟩ := bind_ok_iff.mp h
    obtain rfl := pure_ok_iff.mp h
    obtain ⟨hkeys, hall⟩ := ih hrest hothers
    refine ⟨by simp [hkeys], List.forall_mem_cons.mpr ⟨⟨v, List.mem_cons_self, (resolved_iff hvalid hoption).mp hv⟩, ?_⟩⟩
    intro o ho
    obtain ⟨w, hw, hsettles⟩ := hall o ho
    exact ⟨w, List.mem_cons_of_mem _ hw, hsettles⟩

/-- The values of all options are those they resolve to. -/
theorem allOptionValues_ok (hvalid : ValidOptions p catalog) {snapshot : QJsonObject} {values : QMap QJsonValue}
    (hoverrides : snapshot.value (qstr "overrides") = .object overrides)
    (h : allOptionValues p catalog snapshot = .ok values) :
    ∀ option ∈ catalog.options, ∃ v, values.lookup option.id = some v ∧ Settles p catalog overrides option v := by
  unfold allOptionValues at h
  rw [hoverrides] at h
  obtain ⟨entries, hentries, h⟩ := bind_ok_iff.mp h
  obtain rfl := pure_ok_iff.mp h
  obtain ⟨hkeys, hall⟩ := resolvedOptionValues_ok hvalid (fun _ ho => ho) hentries
  intro option hoption
  obtain ⟨v, hv, hsettles⟩ := hall option hoption
  exact ⟨v, QMap.lookup_ofList_of_mem (hkeys ▸ hvalid.ids) hv, hsettles⟩

end Resolution

section Storing
variable {p : Platform} {catalog : Catalog} {snapshot provisional overrides kept : QJsonObject}
  {entries : List (QString × QJsonValue)}

theorem lookup_foldl_insert (hdefined : ∀ e ∈ entries, e.2 ≠ .undefined) (hkeys : (entries.map (·.1)).Nodup) (k : QString) :
    (entries.foldl (fun o e => o.insert e.1 e.2) overrides).lookup k = (entries.lookup k).or (overrides.lookup k) := by
  induction entries generalizing overrides with
  | nil => rfl
  | cons e rest ih =>
    obtain ⟨he, hrest⟩ := List.forall_mem_cons.mp hdefined
    rw [List.map_cons, List.nodup_cons] at hkeys
    rw [List.foldl_cons, ih hrest hkeys.2, lookup_insert _ _ _ he, lookup_cons_ite]
    by_cases hk : k = e.1
    · have hnone : rest.lookup k = none := List.lookup_eq_none_iff.mpr fun m hm => by
        rw [hk, bne_iff_ne]
        exact fun heq => hkeys.1 (heq ▸ List.mem_map_of_mem hm)
      rw [if_pos hk, if_pos hk, hnone]
      rfl
    · rw [if_neg hk, if_neg hk]

theorem sorted_foldl_insert (hsorted : Sorted overrides) : Sorted (entries.foldl (fun o e => o.insert e.1 e.2) overrides) := by
  induction entries generalizing overrides with
  | nil => exact hsorted
  | cons e rest ih => exact ih (sorted_insert hsorted e.1 e.2)

theorem findOption_mem {id : QString} {option : OptionDefinition} (h : findOption catalog id = some option) :
    option ∈ catalog.options ∧ option.id = id :=
  ⟨List.mem_of_find?_eq_some h, by simpa using List.find?_some h⟩

/-- The values asked for are kept as they are, and each is valid for a known option. -/
theorem strictOptionValues_ok {values : QMap QVariant} (h : strictOptionValues p catalog values = .ok entries) :
    entries = values.map (fun m => (m.1, m.2.json)) ∧
      ∀ e ∈ entries, e.2 ≠ .undefined ∧ ∃ option, findOption catalog e.1 = some option ∧ ValidValue p option e.2 := by
  induction values generalizing entries with
  | nil =>
    obtain rfl := pure_ok_iff.mp h
    simp
  | cons m rest ih =>
    obtain ⟨key, variant⟩ := m
    unfold strictOptionValues at h
    cases hoption : findOption catalog key with
    | none =>
      rw [hoption] at h
      cases h
    | some option =>
      rw [hoption] at h
      dsimp only at h
      split_ifs at h
      · cases h
      · simp only [hasStrictOptionValue] at h
        split_ifs at h with hstrict
        · obtain ⟨others, hothers, h⟩ := bind_ok_iff.mp h
          obtain rfl := pure_ok_iff.mp h
          obtain ⟨rfl, hall⟩ := ih hothers
          simp only [Bool.and_eq_true, decide_eq_true_eq] at hstrict
          obtain ⟨⟨⟨⟨-, hdefined⟩, -⟩, -⟩, hvalue⟩ := hstrict
          have hid := (findOption_mem hoption).2
          rw [hid]
          exact ⟨rfl, List.forall_mem_cons.mpr ⟨⟨hdefined, option, hoption, hvalue⟩, hall⟩⟩

theorem otherwiseResolved_snapshot (snapshot' : QJsonObject) (option : OptionDefinition) :
    otherwiseResolved p catalog snapshot provisional option = otherwiseResolved p catalog snapshot' provisional option := by
  have hvalue (o : QJsonObject) : (o.insert (qstr "overrides") (.object (provisional.remove option.id))).value (qstr "overrides") =
      .object (provisional.remove option.id) := by rw [value_insert (by simp), if_pos rfl]
  unfold otherwiseResolved allOptionValues
  rw [hvalue, hvalue]

theorem otherwiseResolved_ok (hvalid : ValidOptions p catalog) {option : OptionDefinition} (hoption : option ∈ catalog.options)
    {d : QJsonValue} (h : otherwiseResolved p catalog snapshot provisional option = .ok d) :
    Settles p catalog (provisional.remove option.id) option d := by
  unfold otherwiseResolved at h
  split_ifs at h with hnone
  · rw [Option.isNone_iff_eq_none] at hnone
    obtain rfl := pure_ok_iff.mp h
    refine .default ?_ ?_ (hvalid.default option hoption hnone _)
    · rw [lookup_remove, if_pos rfl]
    · rw [parentOption, hnone]
      rfl
  · obtain ⟨resolved, hresolved, h⟩ := bind_ok_iff.mp h
    obtain ⟨v, hv, hsettles⟩ := allOptionValues_ok hvalid (by rw [value_insert (by simp), if_pos rfl]) hresolved option hoption
    rw [hv] at h
    obtain rfl := pure_ok_iff.mp h
    exact hsettles

/-- What is stored of each value asked for: nothing where it is what the option would resolve to. -/
theorem storeOverrides_ok (hdefined : ∀ e ∈ entries, e.2 ≠ .undefined) (hkeys : (entries.map (·.1)).Nodup)
    (h : storeOverrides p catalog snapshot provisional entries overrides = .ok kept) :
    (∀ k, k ∉ entries.map (·.1) → kept.lookup k = overrides.lookup k) ∧
      ∀ e ∈ entries, ∃ option d, findOption catalog e.1 = some option ∧
        otherwiseResolved p catalog snapshot provisional option = .ok d ∧ kept.lookup e.1 = if e.2 = d then none else some e.2 := by
  induction entries generalizing overrides with
  | nil =>
    obtain rfl := pure_ok_iff.mp h
    simp
  | cons e rest ih =>
    obtain ⟨id, value⟩ := e
    obtain ⟨hvalue, hrest⟩ := List.forall_mem_cons.mp hdefined
    rw [List.map_cons, List.nodup_cons] at hkeys
    unfold storeOverrides at h
    cases hoption : findOption catalog id with
    | none =>
      rw [hoption] at h
      cases h
    | some option =>
      rw [hoption] at h
      obtain ⟨d, hd, h⟩ := bind_ok_iff.mp h
      obtain ⟨hothers, hstored⟩ := ih hrest hkeys.2 h
      have hid := (findOption_mem hoption).2
      have hnext (k : QString) : (if value = d then overrides.remove option.id else overrides.insert option.id value).lookup k =
          if k = id then (if value = d then none else some value) else overrides.lookup k := by
        rw [hid]
        by_cases hsame : value = d
        · rw [if_pos hsame, if_pos hsame, lookup_remove]
        · rw [if_neg hsame, if_neg hsame, lookup_insert _ _ _ hvalue]
      constructor
      · intro k hk
        rw [List.map_cons, List.mem_cons, not_or] at hk
        rw [hothers k hk.2, hnext, if_neg hk.1]
      · refine List.forall_mem_cons.mpr ⟨⟨option, d, hoption, hd, ?_⟩, hstored⟩
        rw [hothers id hkeys.1, hnext, if_pos rfl]

theorem sorted_storeOverrides (hsorted : Sorted overrides)
    (h : storeOverrides p catalog snapshot provisional entries overrides = .ok kept) : Sorted kept := by
  induction entries generalizing overrides with
  | nil =>
    obtain rfl := pure_ok_iff.mp h
    exact hsorted
  | cons e rest ih =>
    obtain ⟨id, value⟩ := e
    unfold storeOverrides at h
    split at h
    · cases h
    · obtain ⟨d, -, h⟩ := bind_ok_iff.mp h
      refine ih ?_ h
      split_ifs
      · exact sorted_remove hsorted _
      · exact sorted_insert hsorted _ _

theorem storeOverrides_snapshot (snapshot' : QJsonObject) :
    storeOverrides p catalog snapshot provisional entries overrides = storeOverrides p catalog snapshot' provisional entries overrides := by
  induction entries generalizing overrides with
  | nil => rfl
  | cons e rest ih =>
    obtain ⟨id, value⟩ := e
    simp only [storeOverrides, ih, otherwiseResolved_snapshot snapshot']

/-- Whether the values can be stored does not depend on the overrides there are. -/
theorem storeOverrides_total (snapshot' overrides' : QJsonObject)
    (h : storeOverrides p catalog snapshot provisional entries overrides = .ok kept) :
    ∃ kept', storeOverrides p catalog snapshot' provisional entries overrides' = .ok kept' := by
  induction entries generalizing overrides overrides' with
  | nil => exact ⟨overrides', rfl⟩
  | cons e rest ih =>
    obtain ⟨id, value⟩ := e
    unfold storeOverrides at h ⊢
    split at h
    · cases h
    · rename_i option hoption
      obtain ⟨d, hd, h⟩ := bind_ok_iff.mp h
      rw [otherwiseResolved_snapshot snapshot'] at hd
      obtain ⟨kept', hkept'⟩ := ih (if value = d then overrides'.remove option.id else overrides'.insert option.id value) h
      exact ⟨kept', bind_ok_iff.mpr ⟨d, hd, hkept'⟩⟩

end Storing

section Effect
variable {p : Platform} {catalog : Catalog} {original provisional kept : QJsonObject} {requested : List (QString × QJsonValue)}

/-- The overrides after an edit, with all the values asked for (`provisional`) and without the
redundant ones among them (`kept`). -/
structure Edited (p : Platform) (catalog : Catalog) (original provisional kept : QJsonObject)
    (requested : List (QString × QJsonValue)) : Prop where
  keys : (requested.map (·.1)).Nodup
  others : ∀ k, k ∉ requested.map (·.1) → kept.lookup k = original.lookup k
  all : ∀ k, provisional.lookup k = (requested.lookup k).or (original.lookup k)
  stored : ∀ e ∈ requested, ∃ option d, findOption catalog e.1 = some option ∧ ValidValue p option e.2 ∧
    Settles p catalog (provisional.remove e.1) option d ∧ kept.lookup e.1 = if e.2 = d then none else some e.2

theorem lookup_of_requested (hkeys : (requested.map (·.1)).Nodup) {e : QString × QJsonValue} (he : e ∈ requested) :
    requested.lookup e.1 = some e.2 := lookup_of_nodup hkeys he

theorem Edited.asked (h : Edited p catalog original provisional kept requested) {e : QString × QJsonValue} (he : e ∈ requested) :
    provisional.lookup e.1 = some e.2 := by
  rw [h.all, lookup_of_requested h.keys he]
  rfl

theorem Edited.unasked (h : Edited p catalog original provisional kept requested) {k : QString}
    (hk : k ∉ requested.map (·.1)) : kept.lookup k = provisional.lookup k := by
  have hnone : requested.lookup k = none := List.lookup_eq_none_iff.mpr fun m hm => by
    rw [bne_iff_ne]
    rintro rfl
    exact hk (List.mem_map_of_mem hm)
  rw [h.all, hnone, h.others k hk]
  rfl

/-- Every override that is dropped is redundant. -/
theorem Edited.dropped (h : Edited p catalog original provisional kept requested) (hvalid : ValidOptions p catalog)
    {option : OptionDefinition} (hoption : option ∈ catalog.options) :
    kept.lookup option.id = provisional.lookup option.id ∨ kept.lookup option.id = none ∧
      Redundant (parentOption catalog) (·.defaultValue) (ValidValue p) (fun x => provisional.lookup x.id) option := by
  by_cases hasked : option.id ∈ requested.map (·.1)
  · obtain ⟨e, he, hid⟩ := List.mem_map.mp hasked
    obtain ⟨found, d, hfound, -, hsettles, hkept⟩ := h.stored e he
    obtain ⟨hmem, hfoundId⟩ := findOption_mem hfound
    obtain rfl := List.inj_on_of_nodup_map hvalid.ids hmem hoption (hfoundId.trans hid)
    rw [← hid, hkept, h.asked he]
    split_ifs with hsame
    · refine .inr ⟨rfl, d, fun x => (provisional.remove e.1).lookup x.id, ?_, ?_, fun x hx => ?_, hsettles⟩
      · dsimp only
        rw [← hid, h.asked he, hsame]
      · dsimp only
        rw [lookup_remove, if_pos hid.symm]
      · dsimp only
        rw [lookup_remove, if_neg (hid ▸ hvalid.apart hoption hx)]
    · exact .inl rfl
  · exact .inl (h.unasked hasked)

/-- Every option resolves to what it resolves to with all the values asked for. -/
theorem Edited.settles (h : Edited p catalog original provisional kept requested) (hvalid : ValidOptions p catalog)
    {option : OptionDefinition} (hoption : option ∈ catalog.options) {v : QJsonValue}
    (hv : Settles p catalog provisional option v) : Settles p catalog kept option v :=
  hv.drop (hvalid.grounded option hoption) fun _ hx => h.dropped hvalid (reached_mem hoption hx)

/-- An option resolves to the value asked for. -/
theorem Edited.effective (h : Edited p catalog original provisional kept requested) (hvalid : ValidOptions p catalog)
    {e : QString × QJsonValue} (he : e ∈ requested) :
    ∃ option ∈ catalog.options, option.id = e.1 ∧ Settles p catalog kept option e.2 := by
  obtain ⟨option, d, hoption, hvalue, -⟩ := h.stored e he
  obtain ⟨hmem, hid⟩ := findOption_mem hoption
  exact ⟨option, hmem, hid, h.settles hvalid hmem (.override (by rw [hid, h.asked he]) hvalue)⟩

/-- An override that is kept differs from what its option would resolve to. -/
theorem Edited.minimal (h : Edited p catalog original provisional kept requested) (hvalid : ValidOptions p catalog)
    {e : QString × QJsonValue} (he : e ∈ requested) {v : QJsonValue} (hv : kept.lookup e.1 = some v) :
    ∃ option ∈ catalog.options, option.id = e.1 ∧ ∃ d, Settles p catalog (kept.remove e.1) option d ∧ v ≠ d := by
  obtain ⟨option, d, hoption, -, hsettles, hkept⟩ := h.stored e he
  obtain ⟨hmem, hid⟩ := findOption_mem hoption
  refine ⟨option, hmem, hid, d, ?_, ?_⟩
  · refine hsettles.drop (hvalid.grounded option hmem) fun x hx => ?_
    rcases Relation.reflTransGen_iff_eq_or_transGen.mp hx with rfl | hx
    · rw [hid, lookup_remove, lookup_remove, if_pos rfl, if_pos rfl]
      exact .inl rfl
    · have hne : x.id ≠ e.1 := hid ▸ hvalid.apart hmem hx
      rw [lookup_remove, lookup_remove, if_neg hne, if_neg hne]
      refine (h.dropped hvalid (reached_mem hmem hx.to_reflTransGen)).imp_right fun hdropped => ?_
      obtain ⟨hnone, b, without, hb, herased, hsame, hb'⟩ := hdropped
      refine ⟨hnone, b, without, ?_, herased, fun y hy => ?_, hb'⟩
      · dsimp only
        rw [lookup_remove, if_neg hne]
        exact hb
      · dsimp only
        rw [hsame y hy, lookup_remove, if_neg (hid ▸ hvalid.apart hmem (hx.trans hy))]
  · rw [hkept] at hv
    split_ifs at hv with hsame
    exact fun heq => hsame (Option.some_inj.mp hv ▸ heq)

end Effect

section Candidate
variable {p : Platform} {catalog : Catalog} {actionCatalog : ActionCatalog} {snapshot candidate : QJsonObject}
  {values : QMap QVariant} {changed : Bool}

/-- The values asked for, as JSON. -/
def requestedValues (values : QMap QVariant) : List (QString × QJsonValue) := values.map fun m => (m.1, m.2.json)

theorem requestedValues_keys (hvalues : QMap.Sorted values) : ((requestedValues values).map (·.1)).Nodup := by
  rw [requestedValues, List.map_map]
  exact QMap.nodup_of_sorted hvalues

/-- The overrides with all the values asked for. -/
def provisionalOverrides (values : QMap QVariant) (overrides : QJsonObject) : QJsonObject :=
  (requestedValues values).foldl (fun o e => o.insert e.1 e.2) overrides

theorem replaceAllOptionValues_iff {overrides : QJsonObject} (hoverrides : snapshot.value (qstr "overrides") = .object overrides) :
    replaceAllOptionValues p catalog values snapshot = .ok (candidate, changed) ↔
      strictOptionValues p catalog values = .ok (requestedValues values) ∧
        ∃ kept, storeOverrides p catalog snapshot (provisionalOverrides values overrides) (requestedValues values) overrides = .ok kept ∧
          snapshot.insert (qstr "overrides") (.object kept) = candidate ∧ decide (kept ≠ overrides) = changed := by
  unfold replaceAllOptionValues
  dsimp only
  rw [hoverrides]
  simp only [bind_ok_iff, pure_ok_iff, Prod.mk.injEq]
  constructor
  · rintro ⟨entries, hentries, hkept⟩
    obtain rfl : entries = requestedValues values := (strictOptionValues_ok hentries).1
    exact ⟨hentries, hkept⟩
  · rintro ⟨hentries, hkept⟩
    exact ⟨_, hentries, hkept⟩

/-- What an edit that succeeds has done to the overrides. -/
theorem replaceAllOptionValues_ok (hvalid : ValidOptions p catalog) (hvalues : QMap.Sorted values)
    {overrides : QJsonObject} (hoverrides : snapshot.value (qstr "overrides") = .object overrides) (hsorted : Sorted overrides)
    (h : replaceAllOptionValues p catalog values snapshot = .ok (candidate, changed)) :
    ∃ kept, snapshot.insert (qstr "overrides") (.object kept) = candidate ∧ (changed = true ↔ kept ≠ overrides) ∧ Sorted kept ∧
      Edited p catalog overrides (provisionalOverrides values overrides) kept (requestedValues values) := by
  obtain ⟨hentries, kept, hkept, hcandidate, rfl⟩ := (replaceAllOptionValues_iff hoverrides).mp h
  have hall := (strictOptionValues_ok hentries).2
  have hkeys := requestedValues_keys hvalues
  have hdefined := fun e he => (hall e he).1
  obtain ⟨hothers, hstored⟩ := storeOverrides_ok hdefined hkeys hkept
  refine ⟨kept, hcandidate, decide_eq_true_iff, sorted_storeOverrides hsorted hkept, hkeys, hothers,
    lookup_foldl_insert hdefined hkeys, fun e he => ?_⟩
  obtain ⟨option, d, hoption, hd, hlookup⟩ := hstored e he
  obtain ⟨-, option', hoption', hvalue⟩ := hall e he
  obtain rfl := Option.some_inj.mp (hoption.symm.trans hoption')
  obtain ⟨hmem, hid⟩ := findOption_mem hoption
  exact ⟨option, d, hoption, hvalue, hid ▸ otherwiseResolved_ok hvalid hmem hd, hlookup⟩

/-- The same values asked for once more leave the overrides as they are. -/
theorem replaceAllOptionValues_again (hvalues : QMap.Sorted values) {overrides : QJsonObject}
    (hoverrides : snapshot.value (qstr "overrides") = .object overrides) (hsorted : Sorted overrides) (hsnapshot : Sorted snapshot)
    (h : replaceAllOptionValues p catalog values snapshot = .ok (candidate, changed)) :
    replaceAllOptionValues p catalog values candidate = .ok (candidate, false) := by
  obtain ⟨hentries, kept, hkept, rfl, rfl⟩ := (replaceAllOptionValues_iff hoverrides).mp h
  have hkeys := requestedValues_keys hvalues
  have hdefined := fun e he => ((strictOptionValues_ok hentries).2 e he).1
  obtain ⟨hothers, hstored⟩ := storeOverrides_ok hdefined hkeys hkept
  have hkeptSorted := sorted_storeOverrides hsorted hkept
  have hprovisional : provisionalOverrides values kept = provisionalOverrides values overrides := by
    unfold provisionalOverrides
    refine ext_lookup (sorted_foldl_insert hkeptSorted) (sorted_foldl_insert hsorted) fun k => ?_
    rw [lookup_foldl_insert hdefined hkeys, lookup_foldl_insert hdefined hkeys]
    by_cases hk : k ∈ (requestedValues values).map (·.1)
    · obtain ⟨e, he, rfl⟩ := List.mem_map.mp hk
      rw [lookup_of_requested hkeys he]
      rfl
    · rw [hothers k hk]
  obtain ⟨again, hagain⟩ := storeOverrides_total (snapshot.insert (qstr "overrides") (.object kept)) kept hkept
  obtain ⟨hothers', hstored'⟩ := storeOverrides_ok hdefined hkeys hagain
  have hsame : again = kept := by
    refine ext_lookup (sorted_storeOverrides hkeptSorted hagain) hkeptSorted fun k => ?_
    by_cases hk : k ∈ (requestedValues values).map (·.1)
    · obtain ⟨e, he, rfl⟩ := List.mem_map.mp hk
      obtain ⟨option, d, hoption, hd, hlookup⟩ := hstored e he
      obtain ⟨option', d', hoption', hd', hlookup'⟩ := hstored' e he
      obtain rfl := Option.some_inj.mp (hoption.symm.trans hoption')
      rw [otherwiseResolved_snapshot snapshot, hd] at hd'
      obtain rfl := Except.ok.inj hd'
      rw [hlookup, hlookup']
    · exact hothers' k hk
  subst hsame
  refine (replaceAllOptionValues_iff (by rw [value_insert (by simp), if_pos rfl])).mpr ⟨hentries, again, ?_, ?_, by simp⟩
  · rw [hprovisional, hagain]
  · refine ext_lookup (sorted_insert (sorted_insert hsnapshot _ _) _ _) (sorted_insert hsnapshot _ _) fun k => ?_
    rw [lookup_insert _ _ _ (by simp), lookup_insert _ _ _ (by simp)]
    split_ifs <;> rfl

end Candidate

end HyprShelld.Client
