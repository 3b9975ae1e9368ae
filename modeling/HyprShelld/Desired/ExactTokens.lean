import HyprShelld.Desired.Tokens

/-! The tokens of an accepted desired state are exact unless they are misread. -/
namespace HyprShelld.Hyprland
open Json QJsonObject

variable {p : Platform} {o : QJsonObject} {path : QString} {kind : TokenKind}

section Reading

theorem stringToken_accepted {object : QJsonObject} {key : String}
    (h : ∀ s, object.value (qstr key) = .string s → TokenAccepted p kind s) :
    ∀ token ∈ stringToken object key kind, TokenAccepted p token.1 token.2 := by
  intro token htoken
  unfold stringToken at htoken
  split at htoken
  · rename_i s hs
    rw [List.mem_singleton.mp htoken]
    exact h s hs
  · exact absurd htoken List.not_mem_nil

theorem targetToken_accepted {object : QJsonObject} {key : String}
    (h : ∀ target, object.value (qstr key) = .object target →
      TokenAccepted p kind (QJsonObject.value target (qstr "target")).toString) :
    ∀ token ∈ targetToken object key kind, TokenAccepted p token.1 token.2 := by
  intro token htoken
  unfold targetToken at htoken
  split at htoken
  · rename_i target htarget
    rw [List.mem_singleton.mp htoken]
    exact h target htarget
  · exact absurd htoken List.not_mem_nil

theorem optionalToken_accepted {s : QString} (h : s.isEmpty = false → TokenAccepted p kind s) :
    ∀ token ∈ optionalToken kind s, TokenAccepted p token.1 token.2 := by
  intro token htoken
  unfold optionalToken at htoken
  split_ifs at htoken with hempty
  · exact absurd htoken List.not_mem_nil
  · rw [List.mem_singleton.mp htoken]
    exact h (by simpa using hempty)

theorem gradientTokens_accepted {v : QJsonValue}
    (h : (QJsonObject.value v.toObject (qstr "colors")).toArray.all isCanonicalColor = true) :
    ∀ token ∈ gradientTokens v, TokenAccepted p token.1 token.2 := by
  intro token htoken
  obtain ⟨color, hcolor, rfl⟩ := List.mem_map.mp htoken
  exact (Bool.and_eq_true_iff.mp (List.all_eq_true.mp h color hcolor)).2

theorem readString_nonempty {key : QString} {n : Nat} {lines : Bool}
    (h : (readString p o key path n false lines).errors = []) :
    (readString p o key path n false lines).value.isEmpty = false := by
  revert h
  unfold readString
  split
  · split
    · simp
    · rename_i hclean
      intro _
      simp only [Bool.or_eq_true, not_or, Bool.not_eq_true] at hclean
      simpa using hclean.1.1.1
  · simp

/-- Every member of a closed map is of the kind its field has. -/
theorem readClosedMap_each {key : QString} {fields : NestedFieldTable}
    (h : (readClosedMap p o key path fields).errors = []) :
    ∀ m ∈ (readClosedMap p o key path fields).value, ∃ kind, fields.lookup m.1 = some kind ∧ nestedValueMatches p m.2 kind = true := by
  simp only [readClosedMap, Checked.bind_errors, List.append_eq_nil_iff] at h
  obtain ⟨-, -, hmembers, -⟩ := h
  intro m hm
  obtain ⟨-, hm⟩ := forEach_errors hmembers m hm
  split at hm
  · simp [addError, Checked.report] at hm
  · rename_i kind hkind
    exact ⟨kind, hkind, by simpa using hm⟩

theorem readClosedMap_value {key : QString} {fields : NestedFieldTable} {name : QString} {kind : NestedValueKind}
    (h : (readClosedMap p o key path fields).errors = []) (hkind : fields.lookup name = some kind)
    {v : QJsonValue} (hv : (readClosedMap p o key path fields).value.value name = v) (hdefined : v ≠ .undefined) :
    nestedValueMatches p v kind = true := by
  obtain ⟨kind', hlookup, hmatches⟩ :=
    readClosedMap_each h _ (mem_of_lookup_eq_some (lookup_of_value hv hdefined))
  rw [hkind] at hlookup
  rwa [Option.some_inj.mp hlookup]

theorem onString_errors {arguments : QJsonObject} {key : String} {check : QString → Reads Unit}
    (h : (onString arguments key check).errors = []) {s : QString} (hs : arguments.value (qstr key) = .string s) :
    (check s).errors = [] := by
  unfold onString at h
  rwa [hs] at h

theorem validateStringField_errors {key : QString} {test : QString → Bool} {code message : String}
    (h : (validateStringField o key path test code message).errors = []) {s : QString} (hs : o.value key = .string s) :
    test s = true := by
  unfold validateStringField at h
  rw [hs] at h
  simpa using h

end Reading

section Records

theorem validateOptionalSelector_accepted {s : QString} (h : (validateOptionalSelector p s path).errors = []) :
    ∀ token ∈ optionalToken .staticMonitor s, TokenAccepted p token.1 token.2 := by
  refine optionalToken_accepted fun hempty => ⟨path, ?_⟩
  unfold validateOptionalSelector at h
  rwa [if_neg (by simp [hempty])] at h

theorem parseMonitor_tokens (h : (parseMonitor p o path).errors = []) :
    ∀ token ∈ monitorTokens (parseMonitor p o path).value, TokenAccepted p token.1 token.2 := by
  simp only [parseMonitor, Checked.bind_errors, List.append_eq_nil_iff] at h
  obtain ⟨-, -, -, hselector, -, -, -, -, -, -, -, -, -, hmirror, -⟩ := h
  exact List.forall_mem_cons.mpr ⟨⟨_, hselector⟩, validateOptionalSelector_accepted hmirror⟩

theorem parseAnimation_tokens (h : (parseAnimation p o path).errors = []) :
    TokenAccepted p (.animationStyle (parseAnimation p o path).value.name) (parseAnimation p o path).value.style := by
  simp only [parseAnimation, Checked.bind_errors, List.append_eq_nil_iff] at h
  obtain ⟨-, -, -, -, -, -, -, -, -, hstyle, -⟩ := h
  exact (Bool.not_eq_false' _).mp (Checked.rejectIf_errors.mp hstyle)

theorem parseWorkspaceRule_tokens (h : (parseWorkspaceRule p o path).errors = []) :
    ∀ token ∈ workspaceRuleTokens (parseWorkspaceRule p o path).value, TokenAccepted p token.1 token.2 := by
  simp only [parseWorkspaceRule, Checked.bind_errors, List.append_eq_nil_iff] at h
  obtain ⟨-, -, -, hselector, -, -, hmonitor, -, -, -, -, -, hoverrides, -⟩ := h
  simp only [workspaceRuleTokens, List.forall_mem_cons, List.forall_mem_append]
  refine ⟨⟨_, _, hselector⟩, validateOptionalSelector_accepted hmonitor, stringToken_accepted fun s hs => ?_⟩
  exact validateStringField_errors hoverrides hs

theorem validateTarget_accepted {key : String} {monitor : Bool} (h : (validateTarget p o path key monitor).errors = [])
    {target : QJsonObject} (htarget : o.value (qstr key) = .object target) :
    TokenAccepted p (if monitor then .monitorTarget else .workspaceTarget) (QJsonObject.value target (qstr "target")).toString := by
  unfold validateTarget at h
  rw [htarget] at h
  dsimp only at h
  split_ifs at h with hfields hunset hmonitor hempty
  · simp [addError, Checked.report] at h
  · cases monitor
    · exact .inl hunset
    · exact .inl hunset
  · rw [if_pos hmonitor]
    exact .inr ⟨_, (List.append_eq_nil_iff.mp h).2⟩
  · simp [addError, Checked.report] at h
  · rw [if_neg hmonitor]
    exact .inr ⟨_, (List.append_eq_nil_iff.mp h).2⟩

theorem windowMatchFields_tag : windowMatchFields.lookup (qstr "tag") = some .nonEmptyString := by decide +kernel

theorem windowEffectFields_borderColor : windowEffectFields.lookup (qstr "border_color") = some .gradient := by decide +kernel

theorem parseWindowRule_tokens (h : (parseWindowRule p o path).errors = []) :
    ∀ token ∈ windowRuleTokens (parseWindowRule p o path).value, TokenAccepted p token.1 token.2 := by
  simp only [parseWindowRule, Checked.bind_errors, List.append_eq_nil_iff] at h
  obtain ⟨-, -, -, -, hmatch, hmatched, heffect, heffects, -⟩ := h
  simp only [validateWindowMatch, validateWindowEffects, Checked.bind_errors, List.append_eq_nil_iff] at hmatched heffects
  obtain ⟨-, -, -, hworkspace⟩ := hmatched
  obtain ⟨-, -, -, -, -, -, -, -, -, hanimation, htag, hmonitorTarget, hworkspaceTarget⟩ := heffects
  simp only [windowRuleTokens, List.forall_mem_append]
  refine ⟨⟨⟨⟨⟨⟨stringToken_accepted fun s hs => ?_, stringToken_accepted fun s hs => ?_⟩,
    targetToken_accepted fun target htarget => ?_⟩, targetToken_accepted fun target htarget => ?_⟩,
    stringToken_accepted fun s hs => ?_⟩, stringToken_accepted fun s hs => ?_⟩, ?_⟩
  · change (readClosedMap p o (qstr "match") path windowMatchFields).value.value (qstr "workspace") = .string s at hs
    rw [hs] at hworkspace
    exact ⟨[], _, hworkspace⟩
  · exact readClosedMap_value hmatch windowMatchFields_tag hs (by simp)
  · exact validateTarget_accepted hmonitorTarget htarget
  · exact validateTarget_accepted hworkspaceTarget htarget
  · exact validateStringField_errors hanimation hs
  · exact validateStringField_errors htag hs
  · by_cases hdefined : (readClosedMap p o (qstr "effects") path windowEffectFields).value.value (qstr "border_color") = .undefined
    · intro token htoken
      change token ∈ gradientTokens ((readClosedMap p o (qstr "effects") path windowEffectFields).value.value
        (qstr "border_color")) at htoken
      rw [hdefined] at htoken
      exact absurd htoken List.not_mem_nil
    · have hgradient := readClosedMap_value heffect windowEffectFields_borderColor rfl hdefined
      exact gradientTokens_accepted (Bool.and_eq_true_iff.mp hgradient).2

theorem parseLayerRule_tokens (h : (parseLayerRule p o path).errors = []) :
    ∀ token ∈ layerRuleTokens (parseLayerRule p o path).value, TokenAccepted p token.1 token.2 := by
  simp only [parseLayerRule, Checked.bind_errors, List.append_eq_nil_iff] at h
  obtain ⟨-, -, -, -, -, -, -, heffects, -⟩ := h
  simp only [validateLayerEffects, Checked.bind_errors, List.append_eq_nil_iff] at heffects
  exact stringToken_accepted fun s hs => validateStringField_errors heffects.2.2 hs

theorem argumentTokens_accepted {action : QString} (h : (validateDispatcherPayloadSemantics p action o path).errors = []) :
    ∀ token ∈ argumentTokens action o, TokenAccepted p token.1 token.2 := by
  simp only [validateDispatcherPayloadSemantics, Checked.bind_errors, List.append_eq_nil_iff, Checked.forEach_errors_iff,
    List.forall_mem_cons] at h
  obtain ⟨⟨hwindow, htarget, -⟩, hworkspace, ⟨hmonitor, hmonitor1, hmonitor2, -⟩, htag, hkey, -⟩ := h
  simp only [argumentTokens, List.forall_mem_append]
  refine ⟨⟨⟨⟨⟨⟨⟨stringToken_accepted fun s hs => ⟨_, onString_errors hwindow hs⟩,
    stringToken_accepted fun s hs => ⟨_, onString_errors htarget hs⟩⟩,
    stringToken_accepted fun s hs => ⟨_, onString_errors hworkspace hs⟩⟩,
    stringToken_accepted fun s hs => ⟨_, onString_errors hmonitor hs⟩⟩,
    stringToken_accepted fun s hs => ⟨_, onString_errors hmonitor1 hs⟩⟩,
    stringToken_accepted fun s hs => ⟨_, onString_errors hmonitor2 hs⟩⟩, ?_⟩, ?_⟩
  · split_ifs at htag ⊢ with htagged
    · exact stringToken_accepted fun s hs => validateStringField_errors htag hs
    · simp
  · split_ifs at hkey ⊢ with hsends
    · simp only [Checked.bind_errors, List.append_eq_nil_iff] at hkey
      refine stringToken_accepted fun s hs => ⟨field path (qstr "key"), ?_⟩
      have hcanonical := onString_errors hkey.2 hs
      simpa only [Checked.bind_errors, Checked.pure_errors, List.append_nil] using hcanonical
    · simp

theorem parseBinding_tokens {actionCatalog : ActionCatalog} (h : (parseBinding p actionCatalog o path).errors = []) :
    ∀ token ∈ bindingTokens (parseBinding p actionCatalog o path).value, TokenAccepted p token.1 token.2 := by
  simp only [parseBinding, Checked.bind_errors, List.append_eq_nil_iff] at h
  obtain ⟨-, -, -, -, hname, hkey, -, haction, -, hpayload, -⟩ := h
  have hnamed := readString_nonempty hname
  refine List.forall_mem_cons.mpr ⟨?_, ?_⟩
  · rw [if_neg (by simp [hnamed])] at hkey
    simp only [Checked.bind_errors, Checked.pure_errors, List.append_nil] at hkey
    exact ⟨_, hkey⟩
  · split_ifs with hdispatcher
    · replace hdispatcher : (readActionType p o path).value = .dispatcher := hdispatcher
      rw [hdispatcher] at hpayload
      unfold validateBindingAction at hpayload
      split at hpayload
      · simp only [BindingActionType.kind, Checked.bind_errors, List.append_eq_nil_iff, ↓reduceIte] at hpayload
        exact argumentTokens_accepted hpayload.2.1
      · -- An action that the catalog does not have is empty, which no action may be.
        simp [readString_nonempty haction] at hpayload
    · simp

theorem validateOverride_tokens {catalog : Catalog} {option : OptionDefinition} {key : QString} {v : QJsonValue}
    (hoption : findOption catalog key = some option) (h : (validateOverride p option v path).errors = []) :
    ∀ token ∈ overrideTokens catalog (key, v), TokenAccepted p token.1 token.2 := by
  simp only [validateOverride, validateOptionValue, Checked.bind_errors, List.append_eq_nil_iff] at h
  obtain ⟨⟨htype, -⟩, -, hmonitor, -⟩ := h
  simp only [overrideTokens, hoption, List.forall_mem_append]
  constructor
  · split_ifs with hgradient
    · simp only [valueHasOptionType, hgradient, Checked.bind_errors, List.append_eq_nil_iff, Checked.rejectIf_errors] at htype
      have hvalid := (Bool.not_eq_false' _).mp htype.2.1
      exact gradientTokens_accepted (Bool.and_eq_true_iff.mp hvalid).2
    · simp
  · split_ifs with hdefault
    · refine optionalToken_accepted fun hempty => ⟨path, ?_⟩
      have hstring : v.isString = true := by
        cases v <;> simp_all [QJsonValue.toString, QJsonValue.isString]
      rwa [if_pos ⟨hdefault, hstring, by simp [hempty]⟩] at hmonitor
    · simp

theorem parseOverrides_tokens {catalog : Catalog} {overrides : QJsonObject} (h : (parseOverrides p catalog overrides).errors = []) :
    ∀ token ∈ (parseOverrides p catalog overrides).value.flatMap (overrideTokens catalog), TokenAccepted p token.1 token.2 := by
  induction overrides with
  | nil => simp [parseOverrides]
  | cons member overrides ih =>
    obtain ⟨key, v⟩ := member
    revert h
    unfold parseOverrides
    simp only []
    split
    · simp [addError, Checked.report]
    · rename_i option hoption
      split
      · simp [addError, Checked.report]
      · intro h
        simp only [Checked.bind_errors, List.append_eq_nil_iff] at h
        simp only [Checked.bind_value, Checked.pure_value, List.flatMap_cons, List.forall_mem_append]
        exact ⟨validateOverride_tokens hoption h.1, ih h.2.1⟩

end Records

section State
variable {catalog : Catalog} {actionCatalog : ActionCatalog} {state : DesiredState}

theorem recordTokens_accepted {α : Type} {key : QString} {n : Nat} {id : α → QString} {parser : QJsonObject → QString → Reads α}
    {found : α → List (TokenKind × QString)} (h : (parseRecordArray o key n id parser).errors = [])
    (hrecord : ∀ o path, (parser o path).errors = [] →
      ∀ token ∈ found (parser o path).value, TokenAccepted p token.1 token.2) :
    ∀ token ∈ (parseRecordArray o key n id parser).value.flatMap found, TokenAccepted p token.1 token.2 := by
  intro token htoken
  obtain ⟨record, hmem, htoken⟩ := List.mem_flatMap.mp htoken
  obtain ⟨object, path, herrors, rfl⟩ := parseRecordArray_each h record hmem
  exact hrecord object path herrors token htoken

/-- The parser has checked every token of the records it returns. -/
theorem parseBody_tokens {root : QJsonObject} {header : DesiredState}
    (h : (parseBody p catalog actionCatalog root header).errors = []) :
    ∀ token ∈ tokens catalog (parseBody p catalog actionCatalog root header).value, TokenAccepted p token.1 token.2 := by
  simp only [parseBody, Checked.bind_errors, List.append_eq_nil_iff] at h
  obtain ⟨-, -, hoverrides, hmonitors, -, -, hanimations, -, hworkspaces, -, hwindows, hlayers, -, hbindings, -⟩ := h
  simp only [readOverrides, Checked.bind_errors, List.append_eq_nil_iff] at hoverrides
  simp only [tokens, List.forall_mem_append]
  refine ⟨⟨⟨⟨⟨⟨parseOverrides_tokens hoverrides.2.2, recordTokens_accepted hmonitors fun _ _ => parseMonitor_tokens⟩, ?_⟩,
    recordTokens_accepted hworkspaces fun _ _ => parseWorkspaceRule_tokens⟩,
    recordTokens_accepted hwindows fun _ _ => parseWindowRule_tokens⟩,
    recordTokens_accepted hlayers fun _ _ => parseLayerRule_tokens⟩,
    recordTokens_accepted hbindings fun _ _ => parseBinding_tokens⟩
  intro token htoken
  obtain ⟨record, hmem, rfl⟩ := List.mem_map.mp htoken
  obtain ⟨object, path, herrors, rfl⟩ := parseRecordArray_each hanimations record hmem
  exact parseAnimation_tokens herrors

theorem parseRoot_tokens {root : QJsonObject} (h : (parseRoot p catalog actionCatalog root).value = some state) :
    ∀ token ∈ tokens catalog state, TokenAccepted p token.1 token.2 := by
  obtain ⟨herrors, rfl⟩ := Checked.result_value.mp h
  simp only [Checked.bind_errors, List.append_eq_nil_iff] at herrors
  obtain ⟨-, hbody⟩ := herrors
  simp only [Checked.bind_value]
  split_ifs at hbody ⊢
  · -- A document for a future target is kept unread.
    simp [tokens, parseHeader]
  · exact parseBody_tokens hbody

/-- The tokens of an accepted state are exact unless one of them is misread. -/
theorem tokens_exact (tabulated : p.Tabulated) {bytes : QByteArray}
    (h : (parseDesiredState p bytes catalog actionCatalog).value = some state) :
    (∀ token ∈ tokens catalog state, ExactToken p token) ↔ ∀ token ∈ tokens catalog state, ¬MisreadToken token := by
  obtain ⟨root, -, -, -, hroot⟩ := parsed_root (authorities_of_parse h).2
  have haccepted := parseRoot_tokens (congrArg ValidationResult.value hroot)
  exact ⟨fun hexact token htoken => not_misread (hexact token htoken).2,
    fun hread token htoken => accepted_exact tabulated (haccepted token htoken) (hread token htoken)⟩

end State

section Sample

theorem plainPlatform_tabulated : plainPlatform.Tabulated where
  control := by
    intro c hc
    unfold IsControl at hc
    simp only [plainPlatform, Bool.or_eq_true, Bool.and_eq_true, decide_eq_true_eq]
    omega
  keysym := by
    intro symbol name hname
    have hnames : (plainKeysyms.all fun k => k.1.all fun byte =>
        Pattern.among (alphanumerics ++ [('_', '_')]) (UInt16.ofNat byte.toNat).toNat) = true := by decide +kernel
    obtain ⟨bytes, hbytes, rfl⟩ := Option.map_eq_some_iff.mp hname
    obtain ⟨entry, hentry, rfl⟩ := Option.map_eq_some_iff.mp (Option.filter_eq_some_iff.mp hbytes).1
    intro u hu
    obtain ⟨byte, hbyte, rfl⟩ := List.mem_map.mp hu
    exact List.all_eq_true.mp (List.all_eq_true.mp hnames entry (List.mem_of_find?_eq_some hentry)) byte hbyte

/-- A window rule that colors a border and moves to a monitor, with an ending behind both texts. -/
def tokenState (ending : String) : DesiredState := { sampleState with
  windowRules := [{
    id := qstr "w1"
    name := qstr "terminal"
    ruleMatch := [(qstr "class", .string (qstr "foot"))]
    effects := [
      (qstr "border_color", .object [(qstr "angle", integer 0),
        (qstr "colors", .array [.string (qstr ("0xFF00FF00" ++ ending))])]),
      (qstr "monitor", .object [(qstr "silent", .bool false), (qstr "target", .string (qstr ("DP-1" ++ ending)))])] }] }

theorem tokenState_evaluated :
    (Evaluated plainPlatform sampleCatalog sampleActionCatalog (tokenState "\n") ∧
      Evaluated plainPlatform sampleCatalog sampleActionCatalog (tokenState "")) ∧
    ((.color, qstr "0xFF00FF00\n") ∈ tokens sampleCatalog (tokenState "\n") ∧
      (.monitorTarget, qstr "DP-1\n") ∈ tokens sampleCatalog (tokenState "\n")) ∧
    unit '\n' ∈ qstr "0xFF00FF00\n" ∧ unit '\n' ∈ qstr "DP-1\n" ∧
    ∀ token ∈ tokens sampleCatalog (tokenState ""), token.2.getLast? ≠ some (unit '\n') ∧ token.1 ≠ .windowSelector := by
  decide +kernel

/-- A color and a monitor that end in a line feed are accepted. -/
theorem tokens_misread :
    (parseDesiredState plainPlatform (serializeDesiredState plainPlatform (tokenState "\n")) sampleCatalog
      sampleActionCatalog).value = some (tokenState "\n") ∧
    ((.color, qstr "0xFF00FF00\n") ∈ tokens sampleCatalog (tokenState "\n") ∧
      ¬ExactToken plainPlatform (.color, qstr "0xFF00FF00\n")) ∧
    (.monitorTarget, qstr "DP-1\n") ∈ tokens sampleCatalog (tokenState "\n") ∧
      ¬ExactToken plainPlatform (.monitorTarget, qstr "DP-1\n") := by
  obtain ⟨⟨hstate, -⟩, ⟨hcolor, hmonitor⟩, hfeed, hfeed', -⟩ := tokenState_evaluated
  have hcontrol : IsControl (unit '\n').toNat := by decide
  exact ⟨congrArg ValidationResult.value hstate.parsed, ⟨hcolor, fun h => h.2 _ hfeed hcontrol⟩, hmonitor,
    fun h => h.2 _ hfeed' hcontrol⟩

theorem tokens_exact_sample : (tokens sampleCatalog (tokenState "")).Forall (ExactToken plainPlatform) := by
  rw [List.forall_iff_forall_mem]
  obtain ⟨⟨-, hstate⟩, -, -, -, hclean⟩ := tokenState_evaluated
  refine (tokens_exact plainPlatform_tabulated (congrArg ValidationResult.value hstate.parsed)).mpr fun token htoken => ?_
  rintro (hend | ⟨hkind, -⟩)
  · exact (hclean token htoken).1 hend
  · exact (hclean token htoken).2 hkind

end Sample

end HyprShelld.Hyprland
