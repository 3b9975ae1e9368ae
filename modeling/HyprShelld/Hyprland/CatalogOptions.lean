import HyprShelld.Hyprland.Catalog
import HyprShelld.Support.Chains
import HyprShelld.Support.Inheritance

/-! The checks of the catalog parser on the scalar options it has read: distinct names, defaults of
their type, and inherited defaults that end. -/
namespace HyprShelld.Hyprland

section Checks
variable (p : Platform)

/-- The reviewed relationships between options and the sources of their defaults. -/
def expectedInheritedDefaults : List (QString × QString) :=
  [("decoration:glow:color_inactive", "decoration:glow:color"),
    ("decoration:shadow:color_inactive", "decoration:shadow:color"),
    ("group:groupbar:text_color_inactive", "group:groupbar:text_color"),
    ("group:groupbar:text_color_locked_active", "group:groupbar:text_color"),
    ("group:groupbar:text_color_locked_inactive", "group:groupbar:text_color_inactive")].map
      fun e => (qstr e.1, qstr e.2)

def optionPath (index : Nat) : QString := Json.elementPath (qstr "$.options") index

def checkDefault (option : OptionDefinition) (path : QString) : Reads Unit :=
  match option.inheritedDefaultFrom with
  | some _ => .rejectIf (option.type ≠ .color && option.type ≠ .gradient)
      (issue (path ++ qstr ".default") "catalog.invalid-inherited-default"
        "Only color and gradient defaults may inherit another upstream option.")
  | none => do
    let typeMatches ← valueHasOptionType option.defaultValue option.type (path ++ qstr ".default")
    .rejectIf (!typeMatches) (issue (path ++ qstr ".default") "catalog.default-type"
      "The option default does not match its declared type.")
    .rejectIf (!constraintAllowsValue p option option.defaultValue) (issue (path ++ qstr ".default")
      "catalog.default-out-of-range" "The default violates the declared constraints.")

/-- The options from an index on, after those with these ids, paths and Lua paths. -/
def checkOptions : Nat → List QString → List QString → List QString → QString → List OptionDefinition → Reads Unit
  | _, _, _, _, _, [] => pure ()
  | index, ids, paths, luaPaths, previousPath, option :: rest => do
    let path := optionPath index
    let luaPath := join option.luaPath (qstr ".")
    checkDefault p option path
    .rejectIf (ids.contains option.id)
      (issue (path ++ qstr ".id") "catalog.duplicate-id" "Option IDs must be unique.")
    .rejectIf (paths.contains option.path)
      (issue (path ++ qstr ".path") "catalog.duplicate-path" "Option paths must be unique.")
    .rejectIf (!luaPath.isEmpty && luaPaths.contains luaPath)
      (issue (path ++ qstr ".luaPath") "catalog.duplicate-lua-path" "Lua emission paths must be unique.")
    .rejectIf (!previousPath.isEmpty && !utf16Less previousPath option.path)
      (issue (path ++ qstr ".path") "catalog.non-canonical-order"
        "Scalar options must be strictly ordered by upstream path.")
    checkOptions (index + 1) (option.id :: ids) (option.path :: paths) (luaPath :: luaPaths) option.path rest

def optionByPath (catalog : Catalog) (path : QString) : Option OptionDefinition :=
  catalog.options.find? (·.path = path)

def checkInheritedDefault (catalog : Catalog) (index : Nat) (option : OptionDefinition) : Reads Unit :=
  let defaultPath := optionPath index ++ qstr ".default"
  let expected := expectedInheritedDefaults.lookup option.path
  match option.inheritedDefaultFrom with
  | none => .rejectIf expected.isSome (issue defaultPath "catalog.inherited-default-required"
      "The reviewed upstream option requires its explicit inherited-default sentinel.")
  | some source => do
    .rejectIf (expected ≠ some source) (issue defaultPath "catalog.unreviewed-inherited-default"
      "The inherited-default relationship is not part of the reviewed 0.56.1 authority.")
    if source = option.path then
      addError (defaultPath ++ qstr ".from") "catalog.inherited-default-cycle" "An option cannot inherit its own default."
    else
      match optionByPath catalog source with
      | none =>
        addError (defaultPath ++ qstr ".from") "catalog.inherited-default-missing-source"
          "The inherited default source does not exist in this catalog."
      | some definition =>
        .rejectIf (definition.type ≠ option.type)
          (issue (defaultPath ++ qstr ".from") "catalog.inherited-default-type-mismatch"
            "Inherited defaults must reference an option of the same declared type.")

/-- Where the default of the option at a path comes from. -/
def inheritedFrom (catalog : Catalog) (path : QString) : Option QString :=
  (optionByPath catalog path).bind (·.inheritedDefaultFrom)

/-- Whether the chain of sources comes to a path it has been at. -/
def inheritedChainCloses (catalog : Catalog) : Nat → List QString → QString → Bool
  | 0, _, _ => false
  | rounds + 1, chain, currentPath =>
    chain.contains currentPath || match inheritedFrom catalog currentPath with
      | none => false
      | some source => inheritedChainCloses catalog rounds (currentPath :: chain) source

def checkCatalogOptions (catalog : Catalog) : Reads Unit := do
  checkOptions p 0 [] [] [] [] catalog.options
  .forEach (checkInheritedDefault catalog) 0 catalog.options
  .forEach (fun _ expected => .rejectIf (optionByPath catalog expected.1).isNone
    (issue (qstr "$.options") "catalog.inherited-default-required"
      "A reviewed inherited-default option is missing from the catalog.")) 0 expectedInheritedDefaults
  .forEach (fun index option => .rejectIf
      (option.inheritedDefaultFrom.isSome && inheritedChainCloses catalog (catalog.options.length + 1) [] option.path)
    (issue (optionPath index ++ qstr ".default.from") "catalog.inherited-default-cycle"
      "Inherited default relationships must be acyclic.")) 0 catalog.options

end Checks

section Valid
variable {p : Platform} {catalog : Catalog}

/-- The option whose default an option takes. -/
def parentOption (catalog : Catalog) (option : OptionDefinition) : Option OptionDefinition :=
  option.inheritedDefaultFrom.bind (optionByPath catalog)

/-- What the checks establish. -/
structure ValidOptions (p : Platform) (catalog : Catalog) : Prop where
  ids : (catalog.options.map (·.id)).Nodup
  paths : (catalog.options.map (·.path)).Nodup
  default : ∀ option ∈ catalog.options, option.inheritedDefaultFrom = none →
    ∀ path, (validateOptionValue p option option.defaultValue path).errors = []
  source : ∀ option ∈ catalog.options, option.inheritedDefaultFrom ≠ none →
    ∃ s ∈ catalog.options, parentOption catalog option = some s ∧ s.type = option.type
  grounded : ∀ option ∈ catalog.options, Grounded (parentOption catalog) option

theorem checkOptions_names {index : Nat} {ids paths luaPaths : List QString} {previousPath : QString}
    {options : List OptionDefinition} (h : (checkOptions p index ids paths luaPaths previousPath options).errors = []) :
    ((options.map (·.id)).Nodup ∧ ∀ option ∈ options, option.id ∉ ids) ∧
      (options.map (·.path)).Nodup ∧ ∀ option ∈ options, option.path ∉ paths := by
  induction options generalizing index ids paths luaPaths previousPath with
  | nil => simp
  | cons option rest ih =>
    simp only [checkOptions, Checked.bind_errors, List.append_eq_nil_iff, Checked.rejectIf_errors] at h
    obtain ⟨-, hid, hpath, -, -, hrest⟩ := h
    obtain ⟨⟨hids, hnew⟩, hpaths, hnewPath⟩ := ih hrest
    simp only [List.mem_cons, not_or] at hnew hnewPath
    simp only [List.map_cons, List.nodup_cons, List.mem_map, List.forall_mem_cons]
    refine ⟨⟨⟨?_, hids⟩, by simpa using hid, fun o ho => (hnew o ho).2⟩, ⟨?_, hpaths⟩, by simpa using hpath,
      fun o ho => (hnewPath o ho).2⟩
    · rintro ⟨o, ho, he⟩
      exact (hnew o ho).1 he
    · rintro ⟨o, ho, he⟩
      exact (hnewPath o ho).1 he

theorem checkOptions_defaults {index : Nat} {ids paths luaPaths : List QString} {previousPath : QString}
    {options : List OptionDefinition} (h : (checkOptions p index ids paths luaPaths previousPath options).errors = []) :
    ∀ option ∈ options, ∃ path, (checkDefault p option path).errors = [] := by
  induction options generalizing index ids paths luaPaths previousPath with
  | nil => simp
  | cons option rest ih =>
    simp only [checkOptions, Checked.bind_errors, List.append_eq_nil_iff] at h
    exact List.forall_mem_cons.mpr ⟨⟨_, h.1⟩, ih h.2.2.2.2.2⟩

/-- The path only goes into the texts of the errors. -/
theorem validateOptionValue_path {option : OptionDefinition} {v : QJsonValue} {path path' : QString}
    (h : (validateOptionValue p option v path).errors = []) : (validateOptionValue p option v path').errors = [] := by
  simp only [validateOptionValue, valueHasOptionType, Checked.bind_errors, Checked.bind_value, Checked.pure_value,
    Checked.pure_errors, List.append_eq_nil_iff, Checked.rejectIf_errors] at h ⊢
  obtain ⟨⟨hfields, hvalid⟩, hallowed⟩ := h
  refine ⟨⟨?_, hvalid⟩, hallowed⟩
  split_ifs at hfields ⊢
  · simpa only [rejectUnknownCatalogFields, Checked.forEach_errors_iff, Checked.rejectIf_errors] using hfields
  · rfl

theorem checkDefault_valid {option : OptionDefinition} {path path' : QString} (h : (checkDefault p option path).errors = [])
    (hnone : option.inheritedDefaultFrom = none) : (validateOptionValue p option option.defaultValue path').errors = [] := by
  simp only [checkDefault, hnone, Checked.bind_errors, List.append_eq_nil_iff, Checked.rejectIf_errors] at h
  obtain ⟨htype, -, hallowed⟩ := h
  refine @validateOptionValue_path _ _ _ (path ++ qstr ".default") _ ?_
  simp only [validateOptionValue, Checked.bind_errors, List.append_eq_nil_iff, Checked.rejectIf_errors]
  exact ⟨htype, by rw [hallowed, Bool.and_false]⟩

theorem optionByPath_mem {path : QString} {option : OptionDefinition} (h : optionByPath catalog path = some option) :
    option ∈ catalog.options ∧ option.path = path :=
  ⟨List.mem_of_find?_eq_some h, by simpa using List.find?_some h⟩

theorem optionByPath_self (hpaths : (catalog.options.map (·.path)).Nodup) {option : OptionDefinition}
    (hoption : option ∈ catalog.options) : optionByPath catalog option.path = some option := by
  cases h : optionByPath catalog option.path with
  | none => simpa using List.find?_eq_none.mp h option hoption
  | some other =>
    obtain ⟨hmem, hpath⟩ := optionByPath_mem h
    rw [List.inj_on_of_nodup_map hpaths hmem hoption hpath]

theorem parentOption_mem {option s : OptionDefinition} (h : Inherits (parentOption catalog) option s) : s ∈ catalog.options := by
  obtain ⟨path, -, hs⟩ := Option.bind_eq_some_iff.mp h
  exact (optionByPath_mem hs).1

/-- A chain of sources that does not close is grounded; every round is at another path. -/
theorem inheritedChain_grounded {rounds : Nat} {chain : List QString} {path : QString}
    (hrounds : ((catalog.options.map (·.path)).filter (· ∉ chain)).length < rounds)
    (h : inheritedChainCloses catalog rounds chain path = false) : Grounded (inheritedFrom catalog) path := by
  induction rounds generalizing chain path with
  | zero => exact absurd hrounds (Nat.not_lt_zero _)
  | succ rounds ih =>
    obtain ⟨hnew, hrest⟩ := Bool.or_eq_false_iff.mp h
    refine .intro _ fun source hsource => ?_
    rw [show inheritedFrom catalog path = some source from hsource] at hrest
    obtain ⟨option, hoption, -⟩ := Option.bind_eq_some_iff.mp hsource
    obtain ⟨hmem, hpath⟩ := optionByPath_mem hoption
    have hlisted : path ∈ catalog.options.map (·.path) := List.mem_map.mpr ⟨option, hmem, hpath⟩
    have hfewer := unvisited_lt hlisted (by simpa using hnew : path ∉ chain)
    exact ih (by omega) hrest

theorem grounded_of_path (hpaths : (catalog.options.map (·.path)).Nodup) {path : QString}
    (h : Grounded (inheritedFrom catalog) path) :
    ∀ option ∈ catalog.options, option.path = path → Grounded (parentOption catalog) option := by
  induction h with
  | intro path _ ih =>
    rintro option hoption rfl
    refine .intro _ fun s hs => ?_
    obtain ⟨source, hsource, hfound⟩ := Option.bind_eq_some_iff.mp hs
    refine ih s.path ?_ s (parentOption_mem hs) rfl
    change (optionByPath catalog option.path).bind (·.inheritedDefaultFrom) = some s.path
    rw [optionByPath_self hpaths hoption, Option.bind_some, hsource, (optionByPath_mem hfound).2]

theorem validOptions (h : (checkCatalogOptions p catalog).errors = []) : ValidOptions p catalog := by
  simp only [checkCatalogOptions, Checked.bind_errors, List.append_eq_nil_iff] at h
  obtain ⟨hoptions, hinherited, -, hchains⟩ := h
  obtain ⟨⟨hids, -⟩, hpaths, -⟩ := checkOptions_names hoptions
  refine ⟨hids, hpaths, fun option hoption hnone path => ?_, fun option hoption hsome => ?_, fun option hoption => ?_⟩
  · obtain ⟨_, hdefault⟩ := checkOptions_defaults hoptions option hoption
    exact checkDefault_valid hdefault hnone
  · obtain ⟨index, hcheck⟩ := forEach_errors hinherited option hoption
    obtain ⟨source, hsource⟩ := Option.ne_none_iff_exists'.mp hsome
    simp only [checkInheritedDefault, hsource, Checked.bind_errors, List.append_eq_nil_iff] at hcheck
    obtain ⟨-, hcheck⟩ := hcheck
    split_ifs at hcheck with hself
    · simp [addError, Checked.report] at hcheck
    · cases hfound : optionByPath catalog source with
      | none => simp [hfound, addError, Checked.report] at hcheck
      | some s =>
        refine ⟨s, (optionByPath_mem hfound).1, ?_, ?_⟩
        · rw [parentOption, hsource, Option.bind_some, hfound]
        · simpa [hfound] using hcheck
  · cases hfrom : option.inheritedDefaultFrom with
    | none =>
      refine .intro _ fun s hs => ?_
      simp [Inherits, parentOption, hfrom] at hs
    | some source =>
      obtain ⟨index, hchain⟩ := forEach_errors hchains option hoption
      simp only [Checked.rejectIf_errors, hfrom, Option.isSome_some, Bool.true_and] at hchain
      refine grounded_of_path hpaths (inheritedChain_grounded ?_ hchain) option hoption rfl
      have hall : ((catalog.options.map (·.path)).filter (· ∉ ([] : List QString))).length ≤ catalog.options.length :=
        (List.length_filter_le _ _).trans_eq (List.length_map _)
      omega

/-- What an option inherits from are other options of the catalog. -/
theorem reached_mem {option x : OptionDefinition} (hoption : option ∈ catalog.options)
    (hx : Relation.ReflTransGen (Inherits (parentOption catalog)) option x) : x ∈ catalog.options := by
  rcases hx.cases_tail with rfl | ⟨y, -, hy⟩
  · exact hoption
  · exact parentOption_mem hy

theorem ValidOptions.apart (hvalid : ValidOptions p catalog) {option x : OptionDefinition} (hoption : option ∈ catalog.options)
    (hx : Relation.TransGen (Inherits (parentOption catalog)) option x) : x.id ≠ option.id := fun hid =>
  (hvalid.grounded option hoption).apart hx
    (List.inj_on_of_nodup_map hvalid.ids (reached_mem hoption hx.to_reflTransGen) hoption hid)

end Valid

end HyprShelld.Hyprland
