import HyprShelld.Hyprland.ContractEvaluation

/-! A compilation that reports nothing: every contract it returns meets its schema. -/
namespace HyprShelld.Hyprland
open Json JsonSchema

section Plain
variable {p : Platform} {validExpression : QString → Bool} {s : QJsonObject} {path : QString}

/-- The compiler runs from one state to another, returns the value and reports nothing. -/
def Compiles {α : Type} (x : Compiler α) (state : CompilerState) (a : α) (state' : CompilerState) : Prop :=
  (x.run state).Clean (a, state')

variable {α β : Type} {state state' : CompilerState}

@[simp] theorem compiles_pure {a b : α} :
    Compiles (pure a : Compiler α) state b state' ↔ a = b ∧ state = state' := by
  simp [Compiles]

@[simp] theorem compiles_bind {x : Compiler α} {f : α → Compiler β} {b : β} :
    Compiles (x >>= f) state b state' ↔
      ∃ a middle, Compiles x state a middle ∧ Compiles (f a) middle b state' := by
  simp [Compiles]

@[simp] theorem compiles_map {x : Compiler α} {f : α → β} {b : β} :
    Compiles (f <$> x) state b state' ↔ ∃ a, Compiles x state a state' ∧ f a = b := by
  have hmap : (f <$> x).run state = x.run state >>= fun r => pure (f r.1, r.2) := rfl
  simp only [Compiles, hmap, Checked.clean_bind, Checked.clean_pure, Prod.mk.injEq, Prod.exists]
  constructor
  · rintro ⟨a, middle, ha, hb, rfl⟩
    exact ⟨a, ha, hb⟩
  · rintro ⟨a, ha, hb⟩
    exact ⟨a, state', ha, hb, rfl⟩

@[simp] theorem compiles_lift {x : Reads α} {a : α} :
    Compiles (liftM x : Compiler α) state a state' ↔ x.Clean a ∧ state = state' := by
  simp only [Compiles, StateT.run_monadLift, Checked.clean_bind, Checked.clean_pure, Prod.mk.injEq]
  constructor
  · rintro ⟨b, hb, rfl, rfl⟩
    exact ⟨hb, rfl⟩
  · rintro ⟨ha, rfl⟩
    exact ⟨a, ha, rfl, rfl⟩

@[simp] theorem compiles_get {a : CompilerState} :
    Compiles (get : Compiler CompilerState) state a state' ↔ state = a ∧ state = state' := by
  simp [Compiles]

@[simp] theorem compiles_modify {f : CompilerState → CompilerState} {u : PUnit} :
    Compiles (modify f : Compiler PUnit) state u state' ↔ f state = state' := by
  simp [Compiles]

@[simp] theorem clean_addError {path : QString} {code message : String} {u : Unit} :
    ¬ (addError path code message).Clean u := Checked.clean_report

theorem schemaSize_clean {key : String} {bound : Option Nat} (h : (schemaSize s key path).Clean bound) :
    s.lookup (qstr key) = bound.map fun n => .double (.finite n) := by
  unfold schemaSize at h
  cases hs : s.lookup (qstr key) with
  | none =>
    rw [hs] at h
    obtain rfl := Checked.clean_pure.mp h
    rfl
  | some value =>
    rw [hs] at h
    dsimp only at h
    split at h
    · next q hq =>
      obtain rfl := Checked.clean_pure.mp h
      obtain ⟨hfinite, hbounds⟩ := Option.filter_eq_some_iff.mp hq
      simp only [Bool.and_eq_true, decide_eq_true_eq] at hbounds
      rw [QJsonValue.finite?_eq_some.mp hfinite]
      have hnum : 0 ≤ q.num := Rat.num_nonneg.mpr hbounds.1.2
      have hcast : ((q.num.toNat : ℕ) : ℚ) = q := by
        have hint : ((q.num.toNat : ℤ) : ℚ) = q := by
          rw [Int.toNat_of_nonneg hnum]
          exact Rat.coe_int_num_of_den_eq_one hbounds.1.1
        exact_mod_cast hint
      rw [Option.map_some, hcast]
    · simp at h

theorem schemaNumber_clean {key : String} {bound : Option ℚ} (h : (schemaNumber s key path).Clean bound) :
    s.lookup (qstr key) = bound.map fun q => .double (.finite q) := by
  unfold schemaNumber at h
  cases hs : s.lookup (qstr key) with
  | none =>
    rw [hs] at h
    obtain rfl := Checked.clean_pure.mp h
    rfl
  | some value =>
    rw [hs] at h
    dsimp only at h
    split at h
    · next q hq =>
      obtain rfl := Checked.clean_pure.mp h
      rw [QJsonValue.finite?_eq_some.mp hq]
      rfl
    · simp at h

theorem compileUnique_clean {unique : Bool} (h : (compileUnique s path).Clean unique) :
    unique = true ↔ s.lookup (qstr "uniqueItems") = some (.bool true) := by
  unfold compileUnique at h
  cases hs : s.lookup (qstr "uniqueItems") with
  | none =>
    rw [hs] at h
    obtain rfl := Checked.clean_pure.mp h
    simp
  | some value =>
    rw [hs] at h
    cases value with
    | bool b =>
      have hb : b = unique := by simpa [QJsonValue.isBool, QJsonValue.toBool] using h
      simp [hb]
    | undefined | null | double | string | array | object => simp [QJsonValue.isBool] at h

theorem compilePattern_clean {pattern : Option QString} (h : (compilePattern validExpression s path).Clean pattern) :
    ∃ expression : Option QString, s.lookup (qstr "pattern") = expression.map .string ∧
      pattern = expression.map qtCompatiblePattern := by
  unfold compilePattern at h
  cases hs : s.lookup (qstr "pattern") with
  | none =>
    rw [hs] at h
    exact ⟨none, rfl, (Checked.clean_pure.mp h).symm⟩
  | some value =>
    rw [hs] at h
    dsimp only at h
    split_ifs at h with hbad
    · simp at h
    · cases value with
      | string text => exact ⟨some text, rfl, (Checked.clean_pure.mp h).symm⟩
      | undefined | null | bool | double | array | object => simp [QJsonValue.isString] at hbad

theorem compileEnum_clean {values : List QJsonValue} (h : (compileEnum p s path).Clean values) :
    s.lookup (qstr "enum") = if values = [] then none else some (.array values) := by
  unfold compileEnum at h
  cases hs : s.lookup (qstr "enum") with
  | none =>
    rw [hs] at h
    obtain rfl := Checked.clean_pure.mp h
    rfl
  | some value =>
    rw [hs] at h
    dsimp only at h
    split_ifs at h with hbad
    · simp at h
    · cases value with
      | array items =>
        obtain ⟨-, -, hvalues⟩ := Checked.clean_bind.mp h
        obtain rfl := Checked.clean_pure.mp hvalues
        rw [if_neg fun he => hbad (.inr (.inl he))]
        rfl
      | undefined | null | bool | double | string | object => simp [QJsonValue.isArray] at hbad

theorem compileAdditional_clean {types : List ContractValueType} {additional : Bool}
    (h : (compileAdditional s types path).Clean additional) :
    additional = false ↔ s.lookup (qstr "additionalProperties") = some (.bool false) := by
  unfold compileAdditional at h
  cases hs : s.lookup (qstr "additionalProperties") with
  | none =>
    rw [hs] at h
    obtain ⟨-, -, h⟩ := Checked.clean_bind.mp h
    obtain rfl := Checked.clean_pure.mp h
    simp
  | some value =>
    rw [hs] at h
    obtain ⟨_, hclosed, h⟩ := Checked.clean_bind.mp h
    obtain rfl := Checked.clean_pure.mp h
    rw [Checked.clean_rejectIf] at hclosed
    cases value with
    | bool b => simp [QJsonValue.isBool, QJsonValue.toBool]
    | undefined | null | double | string | array | object => simp [QJsonValue.isBool] at hclosed

theorem appendRequired_clean {properties : List (QString × ValueContract)} {index : Nat} {values : List QJsonValue}
    {names result : List QString} (h : (appendRequired properties path index values names).Clean result) (name : QString) :
    name ∈ result ↔ name ∈ names ∨ .string name ∈ values := by
  induction values generalizing index names with
  | nil =>
    obtain rfl := Checked.clean_pure.mp h
    simp
  | cons value values ih =>
    rw [appendRequired] at h
    split_ifs at h with hbad
    · simp at h
    · cases value with
      | string text =>
        rw [ih h]
        simp [QJsonValue.toString, or_assoc]
      | undefined | null | bool | double | array | object => simp [QJsonValue.isString] at hbad

theorem compileRequired_clean {properties : List (QString × ValueContract)} {result : List QString}
    (h : (compileRequired s properties path).Clean result) (name : QString) :
    name ∈ result ↔ ∃ names, s.lookup (qstr "required") = some (.array names) ∧ .string name ∈ names := by
  unfold compileRequired at h
  cases hs : s.lookup (qstr "required") with
  | none =>
    rw [hs] at h
    obtain rfl := Checked.clean_pure.mp h
    simp
  | some value =>
    rw [hs] at h
    dsimp only at h
    split_ifs at h with hbad
    · simp at h
    · cases value with
      | array values =>
        rw [appendRequired_clean h]
        simp [QJsonValue.toArray]
      | undefined | null | bool | double | string | object => simp [QJsonValue.isArray] at hbad

theorem contractType_matches {name : QString} {type : ContractValueType} (h : contractType name = some type)
    (v : QJsonValue) : valueTypeMatches v type = true ↔ name ∈ typeNames v := by
  unfold contractType at h
  split_ifs at h with h1 h2 h3 h4 h5 h6 h7 <;> cases h
  all_goals
    subst name
    cases v with
    | double d =>
      cases d with
      | finite q =>
        by_cases hq : q.den = 1 <;>
          simp [valueTypeMatches, typeNames, hq, QJsonValue.isObject, QJsonValue.isArray, QJsonValue.isString,
            QJsonValue.isBool, QJsonValue.isNull, QJsonValue.finite?]
      | infinity _ | nan =>
        simp [valueTypeMatches, typeNames, QJsonValue.isObject, QJsonValue.isArray, QJsonValue.isString,
          QJsonValue.isBool, QJsonValue.isNull, QJsonValue.finite?]
    | undefined | null | bool | string | array | object =>
      simp [valueTypeMatches, typeNames, QJsonValue.isObject, QJsonValue.isArray, QJsonValue.isString,
        QJsonValue.isBool, QJsonValue.isNull, QJsonValue.finite?]

theorem appendType_clean {types result : List ContractValueType} {item : QJsonValue}
    (h : (appendType types item path).Clean result) : ∃ name type, item = .string name ∧
      contractType name = some type ∧ result = types ++ [type] := by
  unfold appendType at h
  cases item with
  | string name =>
    dsimp only at h
    cases ht : contractType name with
    | none => simp [ht] at h
    | some type =>
      rw [ht] at h
      dsimp only at h
      split_ifs at h with hc
      · simp at h
      · exact ⟨name, type, rfl, ht, (Checked.clean_pure.mp h).symm⟩
  | undefined | null | bool | double | array | object => simp at h

theorem appendTypes_clean {types result : List ContractValueType} {index : Nat} {items : List QJsonValue}
    (h : (appendTypes path index items types).Clean result) (v : QJsonValue) :
    (result.any (valueTypeMatches v) = true ↔ types.any (valueTypeMatches v) = true ∨
      ∃ name, .string name ∈ items ∧ name ∈ typeNames v) ∧ result.length = types.length + items.length := by
  induction items generalizing index types with
  | nil =>
    obtain rfl := Checked.clean_pure.mp h
    simp
  | cons item items ih =>
    obtain ⟨_, hfirst, hrest⟩ := Checked.clean_bind.mp h
    obtain ⟨name, type, rfl, htype, rfl⟩ := appendType_clean hfirst
    obtain ⟨hany, hlength⟩ := ih hrest
    constructor
    · rw [hany, List.any_append, List.any_cons, List.any_nil, Bool.or_false, Bool.or_eq_true, or_assoc,
        contractType_matches htype]
      simp only [List.mem_cons, QJsonValue.string.injEq, or_and_right, exists_or, exists_eq_left]
    · rw [hlength]
      simp only [List.length_append, List.length_cons, List.length_nil]
      omega

theorem compileTypes_clean {types : List ContractValueType} (h : (compileTypes s path).Clean types) :
    (s.lookup (qstr "type") = none ∧ types = []) ∨ ∃ t, s.lookup (qstr "type") = some t ∧ types ≠ [] ∧
      ∀ v, types.any (valueTypeMatches v) = true ↔ OfType t v := by
  unfold compileTypes at h
  cases hs : s.lookup (qstr "type") with
  | none =>
    rw [hs] at h
    exact .inl ⟨rfl, (Checked.clean_pure.mp h).symm⟩
  | some t =>
    refine .inr ⟨t, rfl, ?_⟩
    rw [hs] at h
    cases t with
    | string name =>
      obtain ⟨_, type, he, htype, rfl⟩ := appendType_clean h
      cases he
      refine ⟨by simp, fun v => ?_⟩
      simpa [OfType] using contractType_matches htype v
    | array items =>
      dsimp only at h
      split_ifs at h with hbounds
      · have hclean := appendTypes_clean h
        refine ⟨?_, fun v => by simpa [OfType] using (hclean v).1⟩
        rintro rfl
        have hlength := (hclean .null).2
        exact hbounds.1 (List.length_eq_zero_iff.mp (by simpa using hlength.symm))
      · simp at h
    | undefined | null | bool | double | object => simp at h

theorem checkAlternatives_clean {u : Unit} (h : (checkAlternatives s path).Clean u) :
    (s.contains (qstr "oneOf") = false ∨ s.contains (qstr "anyOf") = false) ∧
      (s.contains (qstr "oneOf") = true ∨ s.contains (qstr "anyOf") = true →
        ∀ key, key ≠ qstr "oneOf" → key ≠ qstr "anyOf" → key ≠ qstr "$comment" → s.lookup key = none) := by
  simp only [checkAlternatives, Checked.clean_bind, Checked.clean_rejectIf, Bool.and_eq_false_iff] at h
  obtain ⟨_, hsingle, hsiblings⟩ := h
  refine ⟨hsingle, fun hsome key hone hany hcomment => ?_⟩
  rcases hsiblings with hno | hsiblings
  · rw [Bool.or_eq_false_iff] at hno
    simp [hno] at hsome
  · cases hs : s.lookup key with
    | none => rfl
    | some w =>
      have hkey := List.any_eq_false.mp hsiblings key (QJsonObject.mem_keys.mpr (by simp [hs]))
      simp [hone, hany, hcomment] at hkey

theorem appendInferredType_any (types : List ContractValueType) (w v : QJsonValue) :
    (appendInferredType types w).any (valueTypeMatches v) = true ↔ types.any (valueTypeMatches v) = true ∨
      ∃ type, contractTypeForValue w = some type ∧ valueTypeMatches v type = true := by
  unfold appendInferredType
  cases hw : contractTypeForValue w with
  | none => simp
  | some type =>
    dsimp only
    split_ifs with hc
    · simp only [Option.some_inj, exists_eq_left', iff_self_or]
      intro hm
      exact List.any_eq_true.mpr ⟨type, by simpa using hc, hm⟩
    · simp

theorem inferred_any (values : List QJsonValue) (types : List ContractValueType) (v : QJsonValue) :
    (values.foldl appendInferredType types).any (valueTypeMatches v) = true ↔ types.any (valueTypeMatches v) = true ∨
      ∃ w ∈ values, ∃ type, contractTypeForValue w = some type ∧ valueTypeMatches v type = true := by
  induction values generalizing types with
  | nil => simp
  | cons w values ih =>
    rw [List.foldl_cons, ih, appendInferredType_any, or_assoc]
    simp only [List.mem_cons, or_and_right, exists_or, exists_eq_left]

/-- Inference leaves the other fields of the contract alone. -/
theorem inferTypes_clean {contract result : ValueContract} (h : (inferTypes s path contract).Clean result) :
    ∃ types, result = { contract with acceptedTypes := types } ∧
      (contract.acceptedTypes ≠ [] → types = contract.acceptedTypes) ∧
      (contract.acceptedTypes = [] → s.contains (qstr "oneOf") = false → s.contains (qstr "anyOf") = false →
        types ≠ [] ∧ types = (contract.allowedValues ++ contract.constantValue.toList).foldl appendInferredType []) := by
  unfold inferTypes at h
  split_ifs at h with hc
  · obtain ⟨_, hempty, h⟩ := Checked.clean_bind.mp h
    obtain rfl := Checked.clean_pure.mp h
    rw [Checked.clean_rejectIf, List.isEmpty_eq_false_iff] at hempty
    exact ⟨_, rfl, fun hne => absurd hc.1 hne, fun _ _ _ => ⟨hempty, rfl⟩⟩
  · obtain rfl := Checked.clean_pure.mp h
    refine ⟨contract.acceptedTypes, by cases contract; rfl, fun _ => rfl, fun he hone hany => ?_⟩
    exact absurd ⟨he, by simp [hone], by simp [hany]⟩ hc

theorem compileBounds_clean {contract result : ValueContract}
    (h : (compileBounds p validExpression s path contract).Clean result) :
    ∃ minimumItems maximumItems minimumProperties maximumProperties minimumLength maximumLength uniqueItems
      minimum maximum exclusiveMinimum exclusiveMaximum pattern allowedValues,
      (schemaSize s "minItems" path).Clean minimumItems ∧ (schemaSize s "maxItems" path).Clean maximumItems ∧
      (schemaSize s "minProperties" path).Clean minimumProperties ∧
      (schemaSize s "maxProperties" path).Clean maximumProperties ∧
      (schemaSize s "minLength" path).Clean minimumLength ∧ (schemaSize s "maxLength" path).Clean maximumLength ∧
      (compileUnique s path).Clean uniqueItems ∧ (schemaNumber s "minimum" path).Clean minimum ∧
      (schemaNumber s "maximum" path).Clean maximum ∧ (schemaNumber s "exclusiveMinimum" path).Clean exclusiveMinimum ∧
      (schemaNumber s "exclusiveMaximum" path).Clean exclusiveMaximum ∧
      (compilePattern validExpression s path).Clean pattern ∧ (compileEnum p s path).Clean allowedValues ∧
      result = { contract with
        minimumItems, maximumItems, minimumProperties, maximumProperties, minimumLength, maximumLength, uniqueItems,
        minimum, maximum, exclusiveMinimum, exclusiveMaximum, pattern, allowedValues,
        constantValue := s.lookup (qstr "const") } := by
  simpa only [compileBounds, Checked.clean_bind, Checked.clean_pure, exists_and_left, eq_comm] using h

end Plain
section Children
variable {p : Platform} {search : QString → QString → Prop} {definitions : QJsonObject}
  {node : QJsonObject → QString → Compiler (Option ValueContract)} {state state' : CompilerState} {path : QString}

/-- Every contract in the cache meets the definition it is stored for. -/
def Sound (p : Platform) (search : QString → QString → Prop) (definitions : QJsonObject) (state : CompilerState) :
    Prop :=
  ∀ name contract, state.cache.lookup name = some contract →
    ∃ t, definitions.lookup name = some (.object t) ∧ Meets p search definitions t contract

/-- The node compiler returns contracts that meet their schemas and keeps the cache sound. -/
def NodeSound (p : Platform) (search : QString → QString → Prop) (definitions : QJsonObject)
    (node : QJsonObject → QString → Compiler (Option ValueContract)) : Prop :=
  ∀ {s path state result state'}, Sound p search definitions state → IsJson (.object s) →
    Compiles (node s path) state result state' →
      Sound p search definitions state' ∧ ∃ contract, result = some contract ∧ Meets p search definitions s contract

variable (hnode : NodeSound p search definitions node) (hstate : Sound p search definitions state)
include hnode hstate

theorem compileBranches_sound {index : Nat} {branches : List QJsonValue} {contracts : List ValueContract}
    (hb : IsJson (.array branches)) (h : Compiles (compileBranches node path index branches) state contracts state') :
    Sound p search definitions state' ∧ BranchesMeet p search definitions branches contracts := by
  induction branches generalizing index state contracts with
  | nil =>
    obtain ⟨rfl, rfl⟩ := compiles_pure.mp h
    exact ⟨hstate, .nil⟩
  | cons branch branches ih =>
    cases branch with
    | object s =>
      simp only [compileBranches, compiles_bind, compiles_pure] at h
      obtain ⟨item, middle, hitem, others, last, hothers, rfl, rfl⟩ := h
      obtain ⟨hmiddle, c, rfl, hm⟩ := hnode hstate hb.1 hitem
      obtain ⟨hlast, hrest⟩ := ih hmiddle hb.2 hothers
      exact ⟨hlast, .cons ⟨s, rfl, hm⟩ hrest⟩
    | undefined | null | bool | double | string | array => simp [compileBranches] at h

theorem compileAlternatives_sound {s : QJsonObject} {key : String} {contracts : List ValueContract}
    (hs : IsJson (.object s)) (h : Compiles (compileAlternatives node s key path) state contracts state') :
    Sound p search definitions state' ∧ ∃ branches,
      s.lookup (qstr key) = (if branches = [] then none else some (.array branches)) ∧
        BranchesMeet p search definitions branches contracts := by
  unfold compileAlternatives at h
  cases hl : s.lookup (qstr key) with
  | none =>
    rw [hl] at h
    obtain ⟨rfl, rfl⟩ := compiles_pure.mp h
    exact ⟨hstate, [], rfl, .nil⟩
  | some value =>
    rw [hl] at h
    dsimp only at h
    split_ifs at h with hbad
    · simp at h
    · cases value with
      | array branches =>
        obtain ⟨hstate', hm⟩ := compileBranches_sound hnode hstate (isJson_member hs hl) h
        have hne : branches ≠ [] := fun he => hbad (.inr (.inl he))
        exact ⟨hstate', branches, (if_neg hne).symm, hm⟩
      | undefined | null | bool | double | string | object => simp [QJsonValue.isArray] at hbad

/-- The members of a properties keyword beside the properties of the contract. -/
theorem compileMembers_sound {members : QJsonObject} {properties : List (QString × ValueContract)}
    (hmembers : IsJsonMembers members) (h : Compiles (compileMembers node path members) state properties state') :
    Sound p search definitions state' ∧
      (∀ key c, properties.lookup key = some c →
        ∃ t, members.lookup key = some (.object t) ∧ Meets p search definitions t c) ∧
      ∀ key, properties.lookup key = none → members.lookup key = none := by
  induction members generalizing state properties with
  | nil =>
    obtain ⟨rfl, rfl⟩ := compiles_pure.mp h
    exact ⟨hstate, by simp, by simp⟩
  | cons member members ih =>
    obtain ⟨key, value⟩ := member
    rw [compileMembers] at h
    split_ifs at h with hbad
    · simp at h
    · cases value with
      | object t =>
        simp only [compiles_bind, compiles_pure] at h
        obtain ⟨property, middle, hproperty, others, last, hothers, rfl, rfl⟩ := h
        obtain ⟨hmiddle, c, rfl, hm⟩ := hnode hstate hmembers.2.1 hproperty
        obtain ⟨hlast, hsome, hnone⟩ := ih hmiddle hmembers.2.2 hothers
        have hlookup (k : QString) : List.lookup k ((Option.map (fun contract => (key, contract)) (some c)).toList ++ others) =
            if k = key then some c else others.lookup k := QMap.lookup_cons_ite key k c others
        refine ⟨hlast, fun k c' hk => ?_, fun k hk => ?_⟩
        · rw [hlookup] at hk
          rw [QJsonObject.lookup_cons_ite]
          split_ifs at hk ⊢
          · cases hk
            exact ⟨t, rfl, hm⟩
          · exact hsome k c' hk
        · rw [hlookup] at hk
          rw [QJsonObject.lookup_cons_ite]
          split_ifs at hk ⊢
          exact hnone k hk
      | undefined | null | bool | double | string | array => simp [QJsonValue.isObject] at hbad

theorem compileProperties_sound {s : QJsonObject} {properties : List (QString × ValueContract)}
    (hs : IsJson (.object s)) (h : Compiles (compileProperties node s path) state properties state') :
    Sound p search definitions state' ∧
      (∀ key c, properties.lookup key = some c → ∃ schemas t, s.lookup (qstr "properties") = some (.object schemas) ∧
        schemas.lookup key = some (.object t) ∧ Meets p search definitions t c) ∧
      ∀ key schemas, properties.lookup key = none → s.lookup (qstr "properties") = some (.object schemas) →
        schemas.lookup key = none := by
  unfold compileProperties at h
  cases hl : s.lookup (qstr "properties") with
  | none =>
    rw [hl] at h
    obtain ⟨rfl, rfl⟩ := compiles_pure.mp h
    exact ⟨hstate, by simp, by simp⟩
  | some value =>
    rw [hl] at h
    dsimp only at h
    split_ifs at h with hbad
    · simp at h
    · cases value with
      | object members =>
        obtain ⟨hlast, hsome, hnone⟩ := compileMembers_sound hnode hstate (isJson_member hs hl).2 h
        refine ⟨hlast, fun key c hk => ?_, fun key schemas hk he => ?_⟩
        · obtain ⟨t, ht, hm⟩ := hsome key c hk
          exact ⟨members, t, rfl, ht, hm⟩
        · cases he
          exact hnone key hk
      | undefined | null | bool | double | string | array => simp [QJsonValue.isObject] at hbad

theorem compileItems_sound {s : QJsonObject} {items : Option ValueContract} (hs : IsJson (.object s))
    (h : Compiles (compileItems node s path) state items state') :
    Sound p search definitions state' ∧ (s.lookup (qstr "items") = none ∧ items = none ∨
      ∃ t c, s.lookup (qstr "items") = some (.object t) ∧ items = some c ∧ Meets p search definitions t c) := by
  unfold compileItems at h
  cases hl : s.lookup (qstr "items") with
  | none =>
    rw [hl] at h
    obtain ⟨rfl, rfl⟩ := compiles_pure.mp h
    exact ⟨hstate, .inl ⟨rfl, rfl⟩⟩
  | some value =>
    rw [hl] at h
    cases value with
    | object t =>
      obtain ⟨hlast, c, rfl, hm⟩ := hnode hstate (isJson_member hs hl) h
      exact ⟨hlast, .inr ⟨t, c, rfl, rfl, hm⟩⟩
    | undefined | null | bool | double | string | array => simp at h

/-- A node that is no reference is compiled to a contract that realizes its keywords. -/
theorem compileKeywords_sound {validExpression : QString → Bool} {s : QJsonObject} {contract : ValueContract}
    (hs : IsJson (.object s)) (hplain : s.lookup (qstr "$ref") = none)
    (h : Compiles (compileKeywords p validExpression node s path) state contract state') :
    Sound p search definitions state' ∧ Realizes p search definitions s contract := by
  simp only [compileKeywords, compiles_bind, compiles_lift, compiles_pure] at h
  obtain ⟨_, _, ⟨halternatives, rfl⟩, types, _, ⟨htypes, rfl⟩, oneOf, _, hone, anyOf, _, hany, properties, _,
    hproperties, required, _, ⟨hrequired, rfl⟩, additional, _, ⟨hadditional, rfl⟩, items, _, hitems, bounded, _,
    ⟨hbounds, rfl⟩, inferred, _, ⟨hinferred, rfl⟩, _, _, ⟨_, rfl⟩, _, _, ⟨_, rfl⟩, rfl, rfl⟩ := h
  obtain ⟨hstate, hone⟩ := compileAlternatives_sound hnode hstate hs hone
  obtain ⟨hstate, hany⟩ := compileAlternatives_sound hnode hstate hs hany
  obtain ⟨hstate, hproperty, hnoProperty⟩ := compileProperties_sound hnode hstate hs hproperties
  obtain ⟨hstate, hitems⟩ := compileItems_sound hnode hstate hs hitems
  obtain ⟨hsingle, halone⟩ := checkAlternatives_clean halternatives
  obtain ⟨minimumItems, maximumItems, minimumProperties, maximumProperties, minimumLength, maximumLength, uniqueItems,
    minimum, maximum, exclusiveMinimum, exclusiveMaximum, pattern, allowedValues, h1, h2, h3, h4, h5, h6, hunique,
    h8, h9, h10, h11, hpattern, henum, rfl⟩ := compileBounds_clean hbounds
  obtain ⟨inferredTypes, rfl, hkept, hnew⟩ := inferTypes_clean hinferred
  refine ⟨hstate, ?_⟩
  have henumOk := compileEnum_clean henum
  have hlisted : listedValues s = allowedValues ++ (s.lookup (qstr "const")).toList := by
    rw [listedValues, QJsonObject.value, henumOk]
    split_ifs with he
    · subst he
      rfl
    · rfl
  exact {
    json := hs
    plain := hplain
    acceptedTypes := fun hone hany v => by
      rcases compileTypes_clean htypes with ⟨hnone, rfl⟩ | ⟨t, ht, hne, hmatches⟩
      · rw [(hnew rfl hone hany).2, inferred_any]
        simp [Accepts, hnone, hlisted]
      · rw [hkept hne, hmatches]
        simp [Accepts, ht]
    alone := halone
    constrained := fun hone hany hnone => by
      rcases compileTypes_clean htypes with ⟨-, rfl⟩ | ⟨t, ht, -, -⟩
      · intro he
        obtain ⟨hne, hfold⟩ := hnew rfl hone hany
        rw [hlisted] at he
        rw [he] at hfold
        exact hne hfold
      · exact absurd (hnone.symm.trans ht) (by simp)
    single := hsingle
    oneOf := hone
    anyOf := hany
    property := hproperty
    noProperty := hnoProperty
    requiredProperties := compileRequired_clean hrequired
    additionalProperties := compileAdditional_clean hadditional
    items := hitems
    minimumItems := schemaSize_clean h1
    maximumItems := schemaSize_clean h2
    minimumProperties := schemaSize_clean h3
    maximumProperties := schemaSize_clean h4
    minimumLength := schemaSize_clean h5
    maximumLength := schemaSize_clean h6
    uniqueItems := compileUnique_clean hunique
    minimum := schemaNumber_clean h8
    maximum := schemaNumber_clean h9
    exclusiveMinimum := schemaNumber_clean h10
    exclusiveMaximum := schemaNumber_clean h11
    pattern := compilePattern_clean hpattern
    allowedValues := henumOk
    constantValue := rfl }

end Children
section Definitions
variable {p : Platform} {validExpression : QString → Bool} {search : QString → QString → Prop}
  {definitions : QJsonObject} {state state' : CompilerState} {path : QString}

/-- Storing what was compiled keeps the cache sound. -/
theorem sound_insert {name : QString} {t : QJsonObject} {c : ValueContract} {active : List QString}
    (h : Sound p search definitions state) (ht : definitions.lookup name = some (.object t))
    (hm : Meets p search definitions t c) :
    Sound p search definitions { state with active, cache := state.cache.insert name c } := by
  intro key contract hk
  rw [QMap.lookup_insert] at hk
  split_ifs at hk with he
  · cases hk
    subst he
    exact ⟨t, ht, hm⟩
  · exact h key contract hk

theorem compileNamedDefinition_sound {node : Option (QJsonObject → QString → Compiler (Option ValueContract))}
    {name : QString} {result : Option ValueContract} (hdefinitions : IsJson (.object definitions))
    (hnode : ∀ n, node = some n → NodeSound p search definitions n) (hstate : Sound p search definitions state)
    (h : Compiles (compileNamedDefinition definitions node name path) state result state') :
    Sound p search definitions state' ∧ ∃ t c, definitions.lookup name = some (.object t) ∧ result = some c ∧
      Meets p search definitions t c := by
  simp only [compileNamedDefinition, compiles_bind, compiles_get] at h
  obtain ⟨_, _, ⟨rfl, rfl⟩, h⟩ := h
  cases hc : List.lookup name state.cache with
  | some cached =>
    simp only [hc, compiles_pure] at h
    obtain ⟨rfl, rfl⟩ := h
    obtain ⟨t, ht, hm⟩ := hstate name cached hc
    exact ⟨hstate, t, cached, ht, rfl, hm⟩
  | none =>
    cases node with
    | none => simp [hc] at h
    | some node =>
      simp only [hc] at h
      split_ifs at h with hactive
      · simp at h
      · cases ht : definitions.lookup name with
        | none => simp [ht] at h
        | some value =>
          rw [ht] at h
          cases value with
          | object t =>
            simp only [compiles_bind, compiles_modify, compiles_pure] at h
            obtain ⟨_, _, rfl, compiled, middle, hcompiled, _, _, rfl, rfl, rfl⟩ := h
            have hstart : Sound p search definitions { state with active := name :: state.active } := hstate
            obtain ⟨hmiddle, c, rfl, hm⟩ := hnode node rfl hstart (isJson_member hdefinitions ht) hcompiled
            exact ⟨sound_insert hmiddle ht hm, t, c, rfl, rfl, hm⟩
          | undefined | null | bool | double | string | array => simp at h

/-- The only keys of a reference are its name and the annotation. -/
theorem reference_keys {s : QJsonObject} {value : QJsonValue} (hs : QJsonObject.Sorted s)
    (hr : s.lookup (qstr "$ref") = some value)
    (hlength : s.length = 1 ∨ s.length = 2 ∧ s.contains (qstr "$comment") = true) {key : QString}
    (href : key ≠ qstr "$ref") (hcomment : key ≠ qstr "$comment") : s.lookup key = none := by
  have hkeys := QJsonObject.keys_nodup hs
  have hmem : qstr "$ref" ∈ s.keys := QJsonObject.mem_keys.mpr (by simp [hr])
  by_contra hne
  have hkey := QJsonObject.mem_keys.mpr hne
  rcases hlength with h1 | ⟨h2, hc⟩
  · have hsub : [key, qstr "$ref"].Subperm s.keys :=
      List.subperm_of_subset (by simp [href]) (by simp [hkey, hmem])
    have hle := hsub.length_le
    simp [QJsonObject.keys, h1] at hle
  · have hmemc : qstr "$comment" ∈ s.keys := by
      rw [QJsonObject.mem_keys]
      intro hnone
      simp [QJsonObject.contains, hnone] at hc
    have hsub : [key, qstr "$ref", qstr "$comment"].Subperm s.keys :=
      List.subperm_of_subset (by simp [href, hcomment]) (by simp [hkey, hmem, hmemc])
    have hle := hsub.length_le
    simp [QJsonObject.keys, h2] at hle

/-- A reference is met by the contract of what it refers to. -/
theorem meets_reference {s t : QJsonObject} {name : QString} {c : ValueContract}
    (hr : s.lookup (qstr "$ref") = some (.string (localPrefix ++ name)))
    (ht : definitions.lookup name = some (.object t)) (hm : Meets p search definitions t c)
    (hs : ∀ key, key ≠ qstr "$ref" → key ≠ qstr "$comment" → s.lookup key = none) :
    Meets p search definitions s c := by
  have hd := denotes_reference hr ht hm.1 hs
  refine ⟨⟨_, hd⟩, fun room v path hv hf => ?_⟩
  rw [hd.validUnder]
  cases hf with
  | reference hr' ht' hf =>
    have hname := hr.symm.trans hr'
    rw [Option.some_inj, QJsonValue.string.injEq] at hname
    obtain rfl := List.append_cancel_left hname
    obtain rfl := QJsonValue.object.inj (Option.some.inj (ht.symm.trans ht'))
    exact hm.2 room v path hv hf
  | branches hplain | parts hplain => exact absurd (hr.symm.trans hplain) (by simp)

theorem tooDeep_sound : NodeSound p search definitions tooDeep := by
  intro s path state result state' _ _ h
  simp [tooDeep] at h

theorem compileSchema_sound {node : QJsonObject → QString → Compiler (Option ValueContract)}
    {definition : Option (QJsonObject → QString → Compiler (Option ValueContract))}
    (hdefinitions : IsJson (.object definitions)) (hnode : NodeSound p search definitions node)
    (hdefinition : ∀ n, definition = some n → NodeSound p search definitions n) :
    NodeSound p search definitions (compileSchema p validExpression definitions node definition) := by
  intro s path state result state' hstate hs h
  simp only [compileSchema, compiles_bind, compiles_modify, compiles_get] at h
  obtain ⟨_, _, rfl, _, _, ⟨rfl, rfl⟩, h⟩ := h
  have hcounted : Sound p search definitions { state with nodeCount := state.nodeCount + 1 } := hstate
  split_ifs at h with hcount
  · simp at h
  · simp only [compiles_bind, compiles_lift] at h
    obtain ⟨_, _, ⟨_, rfl⟩, h⟩ := h
    cases hr : s.lookup (qstr "$ref") with
    | none =>
      simp only [hr, compiles_map] at h
      obtain ⟨contract, hcontract, rfl⟩ := h
      obtain ⟨hlast, hrealizes⟩ := compileKeywords_sound hnode hcounted hs hr hcontract
      exact ⟨hlast, contract, rfl, meets_of_realizes hrealizes⟩
    | some value =>
      simp only [hr] at h
      split_ifs at h with hbad hprefix
      · simp at h
      · simp at h
      · cases value with
        | string text =>
          obtain ⟨name, rfl⟩ : localPrefix <+: text := by
            simpa [startsWith, QJsonValue.toString] using hprefix
          rw [QJsonValue.toString, List.drop_left] at h
          obtain ⟨hlast, t, c, ht, rfl, hm⟩ :=
            compileNamedDefinition_sound hdefinitions hdefinition hcounted h
          have hlength : s.length = 1 ∨ s.length = 2 ∧ QJsonObject.contains s (qstr "$comment") = true := by
            simpa [QJsonValue.isString, or_iff_not_imp_left] using hbad
          exact ⟨hlast, c, rfl, meets_reference hr ht hm fun _ => reference_keys hs.1 hr hlength⟩
        | undefined | null | bool | double | array | object => simp [QJsonValue.isString] at hbad

/-- Compiling a node with any room left. -/
theorem compileNode_sound (hdefinitions : IsJson (.object definitions)) (room : Nat) :
    NodeSound p search definitions (compileNode p validExpression definitions room) := by
  induction room using compileNode.induct with
  | case1 => exact tooDeep_sound
  | case2 => exact compileSchema_sound hdefinitions tooDeep_sound (by simp)
  | case3 room ih ih' =>
    refine compileSchema_sound hdefinitions ih fun n hn => ?_
    cases hn
    exact ih'

/-- The contract of an external reference meets the definition the reference names. -/
theorem compileReference_sound {reference : QString} {result : Option ValueContract}
    (hdefinitions : IsJson (.object definitions)) (hstate : Sound p search definitions state)
    (h : Compiles (compileReference p validExpression definitions reference path) state result state') :
    Sound p search definitions state' ∧ ∃ name t c, reference = referencePrefix ++ name ∧
      definitions.lookup name = some (.object t) ∧ result = some c ∧ Meets p search definitions t c := by
  unfold compileReference at h
  split_ifs at h with hprefix
  · simp at h
  · obtain ⟨name, rfl⟩ : referencePrefix <+: reference := by
      simpa [startsWith] using hprefix
    rw [List.drop_left] at h
    obtain ⟨hlast, t, c, ht, rfl, hm⟩ := compileNamedDefinition_sound hdefinitions
      (fun n hn => by cases hn; exact compileNode_sound hdefinitions _) hstate h
    exact ⟨hlast, name, t, c, rfl, ht, rfl, hm⟩

theorem compileReferences_sound {references : List (QString × QString)} {results : List (Option ValueContract)}
    (hdefinitions : IsJson (.object definitions)) (hstate : Sound p search definitions state)
    (h : Compiles (compileReferences p validExpression definitions references) state results state') :
    List.Forall₂ (fun reference result => ∃ name t c, reference.1 = referencePrefix ++ name ∧
      definitions.lookup name = some (.object t) ∧ result = some c ∧ Meets p search definitions t c)
      references results := by
  induction references generalizing state results with
  | nil =>
    obtain ⟨rfl, rfl⟩ := compiles_pure.mp h
    exact .nil
  | cons reference references ih =>
    obtain ⟨external, path⟩ := reference
    simp only [compileReferences, compiles_bind, compiles_pure] at h
    obtain ⟨result, middle, hresult, others, _, hothers, rfl, rfl⟩ := h
    obtain ⟨hmiddle, hmeets⟩ := compileReference_sound hdefinitions hstate hresult
    exact .cons hmeets (ih hmiddle hothers)

end Definitions
end HyprShelld.Hyprland
