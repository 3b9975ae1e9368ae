import HyprShelld.Hyprland.ContractCompiler
import HyprShelld.Json.Schema

/-! Where the evaluator of payload contracts follows the schema: the inputs on which it counts
and searches text as the schema means, and does not run out of depth. -/
namespace HyprShelld.Hyprland
open Json JsonSchema

section Faithful
variable (p : Platform) (search : QString → QString → Prop) (definitions : QJsonObject)

/-- A length lies within the schema's bounds. -/
def LengthWithin (s : QJsonObject) (length : Nat) : Prop :=
  (∀ least, s.lookup (qstr "minLength") = some (.double (.finite least)) → least ≤ length) ∧
    ∀ most, s.lookup (qstr "maxLength") = some (.double (.finite most)) → length ≤ most

/-- The units of a text lie within the bounds and QRegularExpression finds the expression in it exactly when its code
points do and ECMA-262 does. -/
def TextAgrees (s : QJsonObject) (text : QString) : Prop :=
  (LengthWithin s text.length ∧ ∀ expression, s.lookup (qstr "pattern") = some (.string expression) →
      p.matchesPattern (qtCompatiblePattern expression) text = true) ↔
    LengthWithin s (codePoints text) ∧ ∀ expression, s.lookup (qstr "pattern") = some (.string expression) →
      search expression text

/-- The values a schema lists one by one. -/
def listedValues (s : QJsonObject) : List QJsonValue :=
  (QJsonObject.value s (qstr "enum")).toArray ++ (s.lookup (qstr "const")).toList

/-- The value has a type of the schema or, where none is given, of a listed value. -/
def Accepts (s : QJsonObject) (v : QJsonValue) : Prop :=
  match s.lookup (qstr "type") with
  | some t => OfType t v
  | none => ∃ w ∈ listedValues s, ∃ type, contractTypeForValue w = some type ∧ valueTypeMatches v type = true

/-- The value is one that the schema names, where it names any. -/
def Named (s : QJsonObject) (v : QJsonValue) : Prop :=
  (∀ c, s.lookup (qstr "const") = some c → v = c) ∧
    ∀ values, s.lookup (qstr "enum") = some (.array values) → v ∈ values

/-- Wherever the value meets the schema, no deeper than the given number of nodes, its texts agree. -/
inductive Faithful : Nat → QJsonObject → QJsonValue → Prop
  | reference {room : Nat} {s t : QJsonObject} {name : QString} {v : QJsonValue} :
    s.lookup (qstr "$ref") = some (.string (localPrefix ++ name)) → definitions.lookup name = some (.object t) →
    Faithful room t v → Faithful room s v
  | branches {room : Nat} {s : QJsonObject} {v : QJsonValue} :
    s.lookup (qstr "$ref") = none →
    (∀ branches t, s.lookup (qstr "oneOf") = some (.array branches) → .object t ∈ branches → Faithful room t v) →
    (∀ branches t, s.lookup (qstr "anyOf") = some (.array branches) → .object t ∈ branches → Faithful room t v) →
    s.contains (qstr "oneOf") = true ∨ s.contains (qstr "anyOf") = true → Faithful (room + 1) s v
  | parts {room : Nat} {s : QJsonObject} {v : QJsonValue} :
    s.lookup (qstr "$ref") = none → s.contains (qstr "oneOf") = false → s.contains (qstr "anyOf") = false →
    (∀ text, Accepts s v → Named s v → v = .string text → TextAgrees p search s text) →
    (∀ schemas o key t w, Accepts s v → s.lookup (qstr "properties") = some (.object schemas) → v = .object o →
      schemas.lookup key = some (.object t) → o.lookup key = some w → Faithful room t w) →
    (∀ t elements w, Accepts s v → s.lookup (qstr "items") = some (.object t) → v = .array elements →
      w ∈ elements → Faithful room t w) → Faithful (room + 1) s v

/-- The contract reports an error exactly for the values that are not valid under the schema, and
never for its own depth, on every input it is faithful on. -/
def Meets (s : QJsonObject) (contract : ValueContract) : Prop :=
  HasMeaning search definitions s ∧ ∀ room v path, IsJson v → Faithful p search definitions room s v →
    ((validateContract p room contract v path).errors = [] ↔ ValidUnder search definitions s v) ∧
      ∀ e ∈ (validateContract p room contract v path).errors, e.code ≠ qstr "state.schema-depth"

/-- What the fields of a compiled contract hold of a schema that is no reference. -/
structure Realizes (s : QJsonObject) (contract : ValueContract) : Prop where
  json : IsJson (.object s)
  plain : s.lookup (qstr "$ref") = none
  acceptedTypes : s.contains (qstr "oneOf") = false → s.contains (qstr "anyOf") = false →
    ∀ v, contract.acceptedTypes.any (valueTypeMatches v) = true ↔ Accepts s v
  alone : s.contains (qstr "oneOf") = true ∨ s.contains (qstr "anyOf") = true →
    ∀ key, key ≠ qstr "oneOf" → key ≠ qstr "anyOf" → key ≠ qstr "$comment" → s.lookup key = none
  constrained : s.contains (qstr "oneOf") = false → s.contains (qstr "anyOf") = false →
    s.lookup (qstr "type") = none → listedValues s ≠ []
  single : s.contains (qstr "oneOf") = false ∨ s.contains (qstr "anyOf") = false
  oneOf : ∃ branches, s.lookup (qstr "oneOf") = (if branches = [] then none else some (.array branches)) ∧
    List.Forall₂ (fun branch c => ∃ t, branch = .object t ∧ Meets p search definitions t c) branches contract.oneOf
  anyOf : ∃ branches, s.lookup (qstr "anyOf") = (if branches = [] then none else some (.array branches)) ∧
    List.Forall₂ (fun branch c => ∃ t, branch = .object t ∧ Meets p search definitions t c) branches contract.anyOf
  property : ∀ key c, contract.properties.lookup key = some c → ∃ schemas t,
    s.lookup (qstr "properties") = some (.object schemas) ∧ schemas.lookup key = some (.object t) ∧
      Meets p search definitions t c
  noProperty : ∀ key schemas, contract.properties.lookup key = none →
    s.lookup (qstr "properties") = some (.object schemas) → schemas.lookup key = none
  requiredProperties : ∀ name, name ∈ contract.requiredProperties ↔
    ∃ names, s.lookup (qstr "required") = some (.array names) ∧ .string name ∈ names
  additionalProperties : contract.additionalProperties = false ↔
    s.lookup (qstr "additionalProperties") = some (.bool false)
  items : s.lookup (qstr "items") = none ∧ contract.items = none ∨
    ∃ t c, s.lookup (qstr "items") = some (.object t) ∧ contract.items = some c ∧ Meets p search definitions t c
  minimumItems : s.lookup (qstr "minItems") = contract.minimumItems.map fun n => .double (.finite n)
  maximumItems : s.lookup (qstr "maxItems") = contract.maximumItems.map fun n => .double (.finite n)
  minimumProperties : s.lookup (qstr "minProperties") = contract.minimumProperties.map fun n => .double (.finite n)
  maximumProperties : s.lookup (qstr "maxProperties") = contract.maximumProperties.map fun n => .double (.finite n)
  minimumLength : s.lookup (qstr "minLength") = contract.minimumLength.map fun n => .double (.finite n)
  maximumLength : s.lookup (qstr "maxLength") = contract.maximumLength.map fun n => .double (.finite n)
  uniqueItems : contract.uniqueItems = true ↔ s.lookup (qstr "uniqueItems") = some (.bool true)
  minimum : s.lookup (qstr "minimum") = contract.minimum.map fun q => .double (.finite q)
  maximum : s.lookup (qstr "maximum") = contract.maximum.map fun q => .double (.finite q)
  exclusiveMinimum : s.lookup (qstr "exclusiveMinimum") = contract.exclusiveMinimum.map fun q => .double (.finite q)
  exclusiveMaximum : s.lookup (qstr "exclusiveMaximum") = contract.exclusiveMaximum.map fun q => .double (.finite q)
  pattern : ∃ expression : Option QString, s.lookup (qstr "pattern") = expression.map .string ∧
    contract.pattern = expression.map qtCompatiblePattern
  allowedValues : s.lookup (qstr "enum") =
    if contract.allowedValues = [] then none else some (.array contract.allowedValues)
  constantValue : s.lookup (qstr "const") = contract.constantValue

end Faithful

section Shape
variable {p : Platform} {search : QString → QString → Prop} {definitions : QJsonObject}
  {s : QJsonObject} {contract : ValueContract} {v : QJsonValue}

theorem canonicalJson_inj (p : Platform) {w : QJsonValue} (hv : IsJson v) (hw : IsJson w) :
    canonicalJson p v = canonicalJson p w ↔ v = w := by
  constructor
  · intro h
    exact render_injective p.number hv hw
      (toUtf8_injective (isText_render_json p.number hv) (isText_render_json p.number hw) h)
  · rintro rfl
    rfl

theorem outside_eq_false {α : Type} {least most : Option α} {tooSmall tooLarge : α → Bool} :
    outside least most tooSmall tooLarge = false ↔
      (∀ l, least = some l → tooSmall l = false) ∧ ∀ m, most = some m → tooLarge m = false := by
  cases least <;> cases most <;> simp [outside]

theorem isJson_member {o : QJsonObject} {key : QString} {w : QJsonValue} (ho : IsJson (.object o))
    (h : o.lookup key = some w) : IsJson w :=
  (validMembers_iff.mp ho.2 _ (QJsonObject.mem_of_lookup_eq_some h)).2

theorem isJson_item {items : List QJsonValue} {w : QJsonValue} (h : IsJson (.array items)) (hw : w ∈ items) :
    IsJson w :=
  validItems_iff.mp h w hw

variable (h : Realizes p search definitions s contract) (hv : IsJson v)
include h hv

theorem constant_ok : (contract.constantValue.any fun c => canonicalJson p v ≠ canonicalJson p c) = false ↔
    ∀ c, s.lookup (qstr "const") = some c → v = c := by
  rw [h.constantValue]
  cases hc : contract.constantValue with
  | none => simp
  | some c =>
    have hj := canonicalJson_inj p hv (isJson_member h.json (h.constantValue.trans hc))
    simp [hj]

theorem enum_ok : (!contract.allowedValues.isEmpty &&
      !contract.allowedValues.any fun allowed => canonicalJson p allowed = canonicalJson p v) = false ↔
    ∀ values, s.lookup (qstr "enum") = some (.array values) → v ∈ values := by
  have hvalues := h.allowedValues
  rw [hvalues]
  split_ifs with he
  · simp [he]
  · have hj := isJson_member h.json (hvalues.trans (if_neg he))
    have hmem : (contract.allowedValues.any fun allowed => canonicalJson p allowed = canonicalJson p v) = true ↔
        v ∈ contract.allowedValues := by
      rw [List.any_eq_true]
      constructor
      · rintro ⟨w, hw, hc⟩
        rw [← (canonicalJson_inj p (isJson_item hj hw) hv).mp (of_decide_eq_true hc)]
        exact hw
      · intro hw
        exact ⟨v, hw, by simp⟩
    simp only [List.isEmpty_eq_false_iff.mpr he, Bool.not_false, Bool.true_and, Bool.not_eq_false', hmem,
      Option.some_inj, QJsonValue.array.injEq, forall_eq']

omit h hv in
/-- A bound of the contract is the number the schema has for it. -/
theorem bound_iff {β : Type} {cast : β → ℚ} {key : QString} {bound : Option β}
    (hb : s.lookup key = bound.map fun n => .double (.finite (cast n))) (P : ℚ → Prop) :
    (∀ n, bound = some n → P (cast n)) ↔ ∀ q, s.lookup key = some (.double (.finite q)) → P q := by
  rw [hb]
  cases bound with
  | none => simp
  | some n => simp

/-- What the schema asserts of a number. -/
theorem number_ok : (v.isDouble && (outside contract.minimum contract.maximum v.lessThan v.greaterThan ||
      outside contract.exclusiveMinimum contract.exclusiveMaximum
        (fun bound => v.lessThan bound || v.toDouble = .finite bound)
        (fun bound => v.greaterThan bound || v.toDouble = .finite bound))) = false ↔
    ∀ q, v = .double (.finite q) →
      ((∀ least, s.lookup (qstr "minimum") = some (.double (.finite least)) → least ≤ q) ∧
        ∀ most, s.lookup (qstr "maximum") = some (.double (.finite most)) → q ≤ most) ∧
      (∀ least, s.lookup (qstr "exclusiveMinimum") = some (.double (.finite least)) → least < q) ∧
        ∀ most, s.lookup (qstr "exclusiveMaximum") = some (.double (.finite most)) → q < most := by
  cases v with
  | double d =>
    obtain ⟨q, rfl, -⟩ := hv
    have least (bound : ℚ) : (QJsonValue.double (.finite q)).lessThan bound = false ↔ bound ≤ q := by
      simp [QJsonValue.lessThan, QJsonValue.toDouble, Double.less]
    have most (bound : ℚ) : (QJsonValue.double (.finite q)).greaterThan bound = false ↔ q ≤ bound := by
      simp [QJsonValue.greaterThan, QJsonValue.toDouble, Double.less]
    have above (bound : ℚ) : ((QJsonValue.double (.finite q)).lessThan bound ||
        decide ((QJsonValue.double (.finite q)).toDouble = .finite bound)) = false ↔ bound < q := by
      rw [Bool.or_eq_false_iff, least, decide_eq_false_iff_not, lt_iff_le_and_ne]
      simp [QJsonValue.toDouble, eq_comm]
    have below (bound : ℚ) : ((QJsonValue.double (.finite q)).greaterThan bound ||
        decide ((QJsonValue.double (.finite q)).toDouble = .finite bound)) = false ↔ q < bound := by
      rw [Bool.or_eq_false_iff, most, decide_eq_false_iff_not, lt_iff_le_and_ne]
      simp [QJsonValue.toDouble]
    rw [show (QJsonValue.double (.finite q)).isDouble = true from rfl, Bool.true_and, Bool.or_eq_false_iff,
      outside_eq_false, outside_eq_false]
    simp only [least, most, above, below]
    rw [bound_iff h.minimum, bound_iff h.maximum, bound_iff h.exclusiveMinimum, bound_iff h.exclusiveMaximum]
    simp
  | undefined | null | bool | string | array | object => simp [QJsonValue.isDouble]

omit hv in
/-- What the schema asserts of a text it agrees on with the code. -/
theorem text_ok (hagrees : ∀ text, v = .string text → TextAgrees p search s text) : (v.isString &&
      (outside contract.minimumLength contract.maximumLength (v.toString.length < ·) (· < v.toString.length) ||
        contract.pattern.any fun pattern => !p.matchesPattern pattern v.toString)) = false ↔
    ∀ text, v = .string text → LengthWithin s (codePoints text) ∧
      ∀ expression, s.lookup (qstr "pattern") = some (.string expression) → search expression text := by
  cases v with
  | string text =>
    have hpattern : (contract.pattern.any fun pattern => !p.matchesPattern pattern text) = false ↔
        ∀ expression, s.lookup (qstr "pattern") = some (.string expression) →
          p.matchesPattern (qtCompatiblePattern expression) text = true := by
      obtain ⟨expression, hs, hc⟩ := h.pattern
      rw [hc]
      cases expression with
      | none => simp [hs]
      | some expression => simp [hs]
    have hwithin : outside contract.minimumLength contract.maximumLength (text.length < ·) (· < text.length) = false ↔
        LengthWithin s text.length := by
      rw [outside_eq_false, LengthWithin, ← bound_iff h.minimumLength fun q => q ≤ (text.length : ℚ),
        ← bound_iff h.maximumLength fun q => (text.length : ℚ) ≤ q]
      simp
    rw [show (QJsonValue.string text).isString = true from rfl, Bool.true_and, Bool.or_eq_false_iff,
      show (QJsonValue.string text).toString = text from rfl, hpattern, hwithin]
    simp only [QJsonValue.string.injEq, forall_eq']
    exact hagrees text rfl
  | undefined | null | bool | double | array | object => simp [QJsonValue.isString]

omit hv in
/-- What the schema asserts of the number of members. -/
theorem fieldCount_ok : (v.isObject && outside contract.minimumProperties contract.maximumProperties
      (v.toObject.length < ·) (· < v.toObject.length)) = false ↔ ∀ o, v = .object o →
      (∀ least, s.lookup (qstr "minProperties") = some (.double (.finite least)) → least ≤ o.length) ∧
        ∀ most, s.lookup (qstr "maxProperties") = some (.double (.finite most)) → o.length ≤ most := by
  cases v with
  | object o =>
    rw [show (QJsonValue.object o).isObject = true from rfl, Bool.true_and, outside_eq_false,
      show (QJsonValue.object o).toObject = o from rfl]
    simp only [QJsonValue.object.injEq, forall_eq', ← bound_iff h.minimumProperties, ← bound_iff h.maximumProperties]
    simp
  | undefined | null | bool | double | string | array => simp [QJsonValue.isObject]

omit hv in
theorem itemCount_ok : (v.isArray && outside contract.minimumItems contract.maximumItems
      (v.toArray.length < ·) (· < v.toArray.length)) = false ↔ ∀ elements, v = .array elements →
      (∀ least, s.lookup (qstr "minItems") = some (.double (.finite least)) → least ≤ elements.length) ∧
        ∀ most, s.lookup (qstr "maxItems") = some (.double (.finite most)) → elements.length ≤ most := by
  cases v with
  | array elements =>
    rw [show (QJsonValue.array elements).isArray = true from rfl, Bool.true_and, outside_eq_false,
      show (QJsonValue.array elements).toArray = elements from rfl]
    simp only [QJsonValue.array.injEq, forall_eq', ← bound_iff h.minimumItems, ← bound_iff h.maximumItems]
    simp
  | undefined | null | bool | double | string | object => simp [QJsonValue.isArray]

omit hv in
theorem required_ok : (∀ field ∈ contract.requiredProperties,
      (v.isObject && !QJsonObject.contains v.toObject field) = false) ↔
    ∀ names o name, s.lookup (qstr "required") = some (.array names) → v = .object o →
      .string name ∈ names → QJsonObject.contains o name = true := by
  simp only [h.requiredProperties]
  cases v with
  | object o =>
    simp only [QJsonValue.isObject, QJsonValue.toObject, Bool.true_and, Bool.not_eq_false', QJsonValue.object.injEq]
    constructor
    · rintro hall names o' name hs rfl hm
      exact hall name ⟨names, hs, hm⟩
    · rintro hall name ⟨names, hs, hm⟩
      exact hall names o name hs rfl hm
  | undefined | null | bool | double | string | array => simp [QJsonValue.isObject]

end Shape

section Children
variable {p : Platform} {item : QString → QJsonValue → Reads Unit} {unique : Bool} {path : QString}

theorem validateItems_errors {Q : QJsonValue → Prop} {items : List QJsonValue} {index : Nat}
    {seen : List QByteArray} (hitem : ∀ v ∈ items, ∀ path, (item path v).errors = [] ↔ Q v) :
    (validateItems p item unique path index seen items).errors = [] ↔ (∀ v ∈ items, Q v) ∧
      (unique = true → (items.map (canonicalJson p)).Nodup ∧ ∀ v ∈ items, canonicalJson p v ∉ seen) := by
  induction items generalizing index seen with
  | nil => simp [validateItems]
  | cons v items ih =>
    simp only [validateItems, Checked.bind_errors, List.append_eq_nil_iff, Checked.rejectIf_errors,
      hitem v List.mem_cons_self, ih fun w hw => hitem w (List.mem_cons_of_mem _ hw)]
    cases unique with
    | false => simp
    | true =>
      simp only [Bool.true_and, List.contains_eq_mem, decide_eq_false_iff_not, List.mem_cons, not_or, forall_true_left,
        List.map_cons, List.nodup_cons, List.mem_map, not_exists, not_and, forall_eq_or_imp]
      constructor
      · rintro ⟨hv, hs, hall, hn, hd⟩
        exact ⟨⟨hv, hall⟩, ⟨fun w hw => (hd w hw).1, hn⟩, hs, fun w hw => (hd w hw).2⟩
      · rintro ⟨⟨hv, hall⟩, ⟨hne, hn⟩, hs, hd⟩
        exact ⟨hv, hs, hall, hn, fun w hw => ⟨hne w hw, hd w hw⟩⟩

theorem nodup_canonicalJson (p : Platform) {items : List QJsonValue} (h : ∀ v ∈ items, IsJson v) :
    (items.map (canonicalJson p)).Nodup ↔ items.Nodup := by
  constructor
  · exact List.Nodup.of_map _
  · exact List.Nodup.map_on fun v hv w hw he => (canonicalJson_inj p (h v hv) (h w hw)).mp he

end Children

section Depth

/-- No error is the one of the depth limit. -/
def Shallow {α : Type} (c : Reads α) : Prop := ∀ e ∈ c.errors, e.code ≠ qstr "state.schema-depth"

theorem shallow_of_errors {α : Type} {c : Reads α} (h : c.errors = []) : Shallow c := by
  intro e he
  rw [h] at he
  cases he

theorem Shallow.bind {α β : Type} {c : Reads α} {f : α → Reads β} (hc : Shallow c) (hf : Shallow (f c.value)) :
    Shallow (c >>= f) := by
  intro e he
  rw [Checked.bind_errors, List.mem_append] at he
  exact he.elim (hc e) (hf e)

theorem shallow_issue {path : QString} {code message : String} (hcode : code ≠ "state.schema-depth") :
    Shallow (addError path code message) := by
  intro e he
  cases List.mem_singleton.mp he
  exact qstr_inj.not.mpr hcode

theorem shallow_rejectIf {bad : Bool} {path : QString} {code message : String}
    (hcode : code ≠ "state.schema-depth") : Shallow (Checked.rejectIf bad (issue path code message)) := by
  cases bad with
  | false => exact shallow_of_errors rfl
  | true => exact shallow_issue hcode

theorem shallow_forEach {α : Type} {f : Nat → α → Reads Unit} {index : Nat} {items : List α}
    (h : ∀ a ∈ items, ∀ i, Shallow (f i a)) : Shallow (Checked.forEach f index items) := by
  induction items generalizing index with
  | nil => exact shallow_of_errors rfl
  | cons a items ih =>
    apply (h a List.mem_cons_self index).bind
    exact ih fun b hb => h b (List.mem_cons_of_mem _ hb)

theorem mem_closestErrors {candidates : List ValidationErrors} {closest : ValidationErrors} {e : ValidationError}
    (h : e ∈ closestErrors candidates closest) : e ∈ closest ∨ ∃ candidate ∈ candidates, e ∈ candidate := by
  induction candidates generalizing closest with
  | nil => exact .inl h
  | cons candidate rest ih =>
    rw [closestErrors] at h
    split_ifs at h with hc
    · rcases ih h with h | ⟨c, hc, h⟩
      · exact .inr ⟨candidate, List.mem_cons_self, h⟩
      · exact .inr ⟨c, List.mem_cons_of_mem _ hc, h⟩
    · rcases ih h with h | ⟨c, hc, h⟩
      · exact .inl h
      · exact .inr ⟨c, List.mem_cons_of_mem _ hc, h⟩

theorem shallow_closest {candidates : List ValidationErrors}
    (h : ∀ candidate ∈ candidates, ∀ e ∈ candidate, e.code ≠ qstr "state.schema-depth") :
    Shallow (Checked.reportAll (closestErrors candidates [])) := by
  intro e he
  rcases mem_closestErrors he with he | ⟨candidate, hc, he⟩
  · cases he
  · exact h candidate hc e he

theorem shallow_validateShape (p : Platform) (contract : ValueContract) (v : QJsonValue) (path : QString) :
    Shallow (validateShape p contract v path) := by
  unfold validateShape
  refine (shallow_rejectIf (by decide)).bind ((shallow_rejectIf (by decide)).bind
    ((shallow_rejectIf (by decide)).bind ((shallow_rejectIf (by decide)).bind
      ((shallow_rejectIf (by decide)).bind (shallow_forEach fun _ _ _ => shallow_rejectIf (by decide))))))

theorem shallow_validateItems {p : Platform} {item : QString → QJsonValue → Reads Unit} {unique : Bool}
    {path : QString} {items : List QJsonValue} {index : Nat} {seen : List QByteArray}
    (h : ∀ v ∈ items, ∀ path, Shallow (item path v)) : Shallow (validateItems p item unique path index seen items) := by
  induction items generalizing index seen with
  | nil => exact shallow_of_errors rfl
  | cons v items ih =>
    refine (h v List.mem_cons_self _).bind ((shallow_rejectIf (by decide)).bind ?_)
    exact ih fun w hw => h w (List.mem_cons_of_mem _ hw)

theorem typeMismatchCode_ne (accepted : List ContractValueType) :
    typeMismatchCode accepted ≠ "state.schema-depth" := by
  unfold typeMismatchCode
  split_ifs <;> decide

end Depth
section Nodes
variable {p : Platform} {search : QString → QString → Prop} {definitions : QJsonObject}
  {s : QJsonObject} {contract : ValueContract} {v : QJsonValue} {room : Nat}

/-- A branch list of the contract beside the branches of the schema. -/
abbrev BranchesMeet (p : Platform) (search : QString → QString → Prop) (definitions : QJsonObject) :
    List QJsonValue → List ValueContract → Prop :=
  List.Forall₂ fun branch c => ∃ t, branch = .object t ∧ Meets p search definitions t c

/-- Every branch that reports nothing is one the value is valid under. -/
theorem branches_errors {branches : List QJsonValue} {contracts : List ValueContract}
    (h : BranchesMeet p search definitions branches contracts) (hv : IsJson v)
    (hf : ∀ t, .object t ∈ branches → Faithful p search definitions room t v) (path : QString) :
    List.Forall₂ (fun branch (candidate : ValidationErrors) => ∃ t, branch = .object t ∧
      (candidate = [] ↔ ValidUnder search definitions t v) ∧
        ∀ e ∈ candidate, e.code ≠ qstr "state.schema-depth") branches
      (contracts.map fun c => (validateContract p room c v path).errors) := by
  rw [List.forall₂_map_right_iff]
  induction h with
  | nil => exact .nil
  | cons hc _ ih =>
    obtain ⟨t, rfl, hm⟩ := hc
    refine .cons ⟨t, rfl, hm.2 room v path hv (hf t List.mem_cons_self)⟩ ?_
    exact ih fun u hu => hf u (List.mem_cons_of_mem _ hu)

private theorem existsUnique_zero {Q : Nat → Prop} (h : Q 0) : (∃! i, Q i) ↔ ∀ i, ¬ Q (i + 1) := by
  constructor
  · intro hu i hi
    exact absurd (hu.unique hi h) (Nat.succ_ne_zero i)
  · intro hn
    refine ⟨0, h, fun i hi => ?_⟩
    cases i with
    | zero => rfl
    | succ i => exact absurd hi (hn i)

private theorem existsUnique_succ {Q : Nat → Prop} (h : ¬ Q 0) : (∃! i, Q i) ↔ ∃! i, Q (i + 1) := by
  constructor
  · rintro ⟨i, hi, hu⟩
    cases i with
    | zero => exact absurd hi h
    | succ i => exact ⟨i, hi, fun j hj => Nat.succ_injective (hu (j + 1) hj)⟩
  · rintro ⟨i, hi, hu⟩
    refine ⟨i + 1, hi, fun j hj => ?_⟩
    cases j with
    | zero => exact absurd hj h
    | succ j => rw [hu j hj]

/-- One candidate is empty where one branch holds. -/
theorem countP_eq_one_iff {branches : List QJsonValue} {candidates : List ValidationErrors} {P : QJsonObject → Prop}
    (h : List.Forall₂ (fun branch candidate => ∃ t, branch = .object t ∧ (candidate = [] ↔ P t)) branches candidates) :
    candidates.countP (· = []) = 1 ↔ ∃! i : Nat, ∃ t, branches[i]? = some (.object t) ∧ P t := by
  have none_holds {branches : List QJsonValue} {candidates : List ValidationErrors}
      (h : List.Forall₂ (fun branch candidate => ∃ t, branch = .object t ∧ (candidate = [] ↔ P t)) branches candidates) :
      candidates.countP (· = []) = 0 ↔ ∀ i : Nat, ¬ ∃ t, branches[i]? = some (.object t) ∧ P t := by
    induction h with
    | nil => simp
    | cons hc _ ih =>
      obtain ⟨t, rfl, ht⟩ := hc
      rw [← Nat.and_forall_add_one]
      simp only [List.getElem?_cons_succ, ← ih]
      by_cases hp : P t
      · simp [hp, ht.mpr hp]
      · simp [hp, ht.not.mpr hp]
  induction h with
  | nil => simp
  | @cons branch candidate branches candidates hc hrest ih =>
    obtain ⟨t, rfl, ht⟩ := hc
    have h0 : (∃ u, (QJsonValue.object t :: branches)[0]? = some (.object u) ∧ P u) ↔ P t := by simp
    by_cases he : candidate = []
    · rw [existsUnique_zero (h0.mpr (ht.mp he))]
      simp only [List.getElem?_cons_succ, ← none_holds hrest]
      simp [he]
    · rw [existsUnique_succ (h0.not.mpr (ht.not.mp he))]
      simp only [List.getElem?_cons_succ, ← ih]
      simp [he]

/-- Some candidate is empty where some branch holds. -/
theorem any_nil_iff {branches : List QJsonValue} {candidates : List ValidationErrors} {P : QJsonObject → Prop}
    (h : List.Forall₂ (fun branch candidate => ∃ t, branch = .object t ∧ (candidate = [] ↔ P t)) branches candidates) :
    candidates.any (· = []) = true ↔ ∃ t, .object t ∈ branches ∧ P t := by
  induction h with
  | nil => simp
  | cons hc _ ih =>
    obtain ⟨t, rfl, ht⟩ := hc
    rw [List.any_cons, Bool.or_eq_true, ih, decide_eq_true_eq, ht]
    simp only [List.mem_cons, QJsonValue.object.injEq, or_and_right, exists_or, exists_eq_left]

theorem lookup_branches {key : QString} {branches : List QJsonValue} (hcontains : s.contains key = true)
    (hb : s.lookup key = if branches = [] then none else some (.array branches)) :
    s.lookup key = some (.array branches) ∧ branches ≠ [] := by
  rw [QJsonObject.contains, hb] at hcontains
  split_ifs at hb hcontains with he
  · cases hcontains
  · exact ⟨hb, he⟩

theorem lookup_none {key : QString} (h : s.contains key = false) : s.lookup key = none := by
  rwa [QJsonObject.contains, Option.isSome_eq_false_iff, Option.isNone_iff_eq_none] at h

theorem no_branches {key : QString} {contracts : List ValueContract}
    (h : ∃ branches, s.lookup key = (if branches = [] then none else some (.array branches)) ∧
      BranchesMeet p search definitions branches contracts) (hnone : s.lookup key = none) : contracts = [] := by
  obtain ⟨branches, hb, hm⟩ := h
  rw [hnone] at hb
  split_ifs at hb with he
  subst he
  exact List.forall₂_nil_left_iff.mp hm

theorem ne_nil_of_branches {branches : List QJsonValue} {contracts : List ValueContract}
    (h : BranchesMeet p search definitions branches contracts) (hb : branches ≠ []) : contracts ≠ [] := by
  rintro rfl
  exact hb (List.forall₂_nil_right_iff.mp h)

theorem hasMeaning_of_branches {branches : List QJsonValue} {contracts : List ValueContract}
    (h : BranchesMeet p search definitions branches contracts) {t : QJsonObject} (ht : .object t ∈ branches) :
    HasMeaning search definitions t := by
  induction h with
  | nil => cases ht
  | cons hc _ ih =>
    obtain ⟨u, rfl, hm⟩ := hc
    rcases List.mem_cons.mp ht with he | ht
    · obtain rfl := QJsonValue.object.inj he
      exact hm.1
    · exact ih ht

theorem shallow_candidates {branches : List QJsonValue} {candidates : List ValidationErrors} {P : QJsonObject → Prop}
    (h : List.Forall₂ (fun branch (candidate : ValidationErrors) => ∃ t, branch = .object t ∧
      (candidate = [] ↔ P t) ∧ ∀ e ∈ candidate, e.code ≠ qstr "state.schema-depth") branches candidates) :
    ∀ candidate ∈ candidates, ∀ e ∈ candidate, e.code ≠ qstr "state.schema-depth" := by
  induction h with
  | nil => simp
  | cons hc _ ih =>
    obtain ⟨_, -, -, hd⟩ := hc
    exact List.forall_mem_cons.mpr ⟨hd, ih⟩

variable (h : Realizes p search definitions s contract) (hv : IsJson v)
  (hf : Faithful p search definitions (room + 1) s v)
include h hv hf

/-- A node of alternatives of which exactly one must match. -/
theorem oneOf_ok (hone : s.contains (qstr "oneOf") = true) (path : QString) :
    ((validateContract p (room + 1) contract v path).errors = [] ↔
      Satisfies search (ValidUnder search definitions) s v) ∧
      Shallow (validateContract p (room + 1) contract v path) := by
  obtain ⟨branches, hb, hm⟩ := h.oneOf
  obtain ⟨hlookup, hne⟩ := lookup_branches hone hb
  have hany : s.lookup (qstr "anyOf") = none :=
    lookup_none (h.single.resolve_left (by rw [hone]; exact Bool.noConfusion))
  have hbranch : ∀ t, .object t ∈ branches → Faithful p search definitions room t v := by
    cases hf with
    | reference hr => exact absurd (h.plain.symm.trans hr) (by simp)
    | branches _ ho _ _ => exact fun t => ho branches t hlookup
    | parts _ ho => exact absurd (hone.symm.trans ho) (by simp)
  have hcandidates := branches_errors hm hv hbranch path
  have hcount := countP_eq_one_iff (hcandidates.imp fun _ _ ⟨t, ht, hp, _⟩ => ⟨t, ht, hp⟩)
  rw [satisfies_alternatives (h.alone (.inl hone)), hlookup, hany]
  simp only [Option.some_inj, QJsonValue.array.injEq, forall_eq', reduceCtorEq, false_imp_iff, implies_true, and_true,
    ← hcount]
  have hcontract : (!contract.oneOf.isEmpty) = true := by
    simpa using ne_nil_of_branches hm hne
  rw [validateContract, if_pos hcontract]
  dsimp only
  split_ifs with hsuccess
  · exact ⟨iff_of_true rfl hsuccess, shallow_of_errors rfl⟩
  all_goals
    refine ⟨iff_of_false (by simp [addError, Checked.report]) hsuccess, ?_⟩
    refine Shallow.bind ?_ (shallow_issue (by decide))
  · exact shallow_closest (shallow_candidates hcandidates)
  · exact shallow_of_errors rfl

/-- A node of alternatives of which some must match. -/
theorem anyOf_ok (hany : s.contains (qstr "anyOf") = true) (path : QString) :
    ((validateContract p (room + 1) contract v path).errors = [] ↔
      Satisfies search (ValidUnder search definitions) s v) ∧
      Shallow (validateContract p (room + 1) contract v path) := by
  obtain ⟨branches, hb, hm⟩ := h.anyOf
  obtain ⟨hlookup, hne⟩ := lookup_branches hany hb
  have hone : s.lookup (qstr "oneOf") = none :=
    lookup_none (h.single.resolve_right (by rw [hany]; exact Bool.noConfusion))
  have hbranch : ∀ t, .object t ∈ branches → Faithful p search definitions room t v := by
    cases hf with
    | reference hr => exact absurd (h.plain.symm.trans hr) (by simp)
    | branches _ _ ha _ => exact fun t => ha branches t hlookup
    | parts _ _ ha => exact absurd (hany.symm.trans ha) (by simp)
  have hcandidates := branches_errors hm hv hbranch path
  have hsome := any_nil_iff (hcandidates.imp fun _ _ ⟨t, ht, hp, _⟩ => ⟨t, ht, hp⟩)
  rw [satisfies_alternatives (h.alone (.inr hany)), hlookup, hone]
  simp only [Option.some_inj, QJsonValue.array.injEq, forall_eq', reduceCtorEq, false_imp_iff, implies_true, true_and,
    ← hsome]
  have hempty := no_branches h.oneOf hone
  have hcontract : (!contract.anyOf.isEmpty) = true := by
    simpa using ne_nil_of_branches hm hne
  rw [validateContract, if_neg (by simp [hempty]), if_pos hcontract]
  dsimp only
  split_ifs with hmatches
  · exact ⟨iff_of_true rfl hmatches, shallow_of_errors rfl⟩
  · refine ⟨iff_of_false (by simp [addError, Checked.report]) hmatches, ?_⟩
    exact (shallow_closest (shallow_candidates hcandidates)).bind (shallow_issue (by decide))

omit hf h in
theorem contractTypeForValue_matches : ∃ type, contractTypeForValue v = some type ∧ valueTypeMatches v type = true := by
  cases v with
  | undefined => exact hv.elim
  | double d =>
    obtain ⟨q, rfl, -⟩ := hv
    by_cases hq : q.den = 1
    · exact ⟨.integer, by simp [contractTypeForValue, isInteger, QJsonValue.finite?, hq],
        by simp [valueTypeMatches, QJsonValue.finite?, hq]⟩
    · exact ⟨.number, by simp [contractTypeForValue, isInteger, QJsonValue.finite?, hq],
        by simp [valueTypeMatches, QJsonValue.finite?]⟩
  | null | bool | string | array | object => exact ⟨_, rfl, rfl⟩

omit hf in
/-- A value that satisfies the schema has one of its types. -/
theorem accepts_of_satisfies (hone : s.contains (qstr "oneOf") = false) (hany : s.contains (qstr "anyOf") = false)
    (hs : Satisfies search (ValidUnder search definitions) s v) : Accepts s v := by
  unfold Accepts
  split
  · next t ht => exact hs.type t ht
  · next ht =>
    have hlisted := h.constrained hone hany ht
    have hv' : v ∈ listedValues s := by
      by_cases he : contract.allowedValues = []
      · have hno : QJsonObject.value s (qstr "enum") = .undefined := by
          rw [QJsonObject.value, h.allowedValues, if_pos he]
          rfl
        unfold listedValues at hlisted ⊢
        rw [hno] at hlisted ⊢
        cases hc : s.lookup (qstr "const") with
        | none => simp [hc, QJsonValue.toArray] at hlisted
        | some c => simp [hs.const c hc]
      · have henum := h.allowedValues
        rw [if_neg he] at henum
        refine List.mem_append_left _ ?_
        rw [QJsonObject.value_of_lookup henum]
        exact hs.enum _ henum
    obtain ⟨type, htype, hmatches⟩ := contractTypeForValue_matches hv
    exact ⟨v, hv', type, htype, hmatches⟩

omit hf in
/-- What the members of an object must satisfy. -/
theorem members_ok (hproperties : ∀ schemas o key t w, s.lookup (qstr "properties") = some (.object schemas) →
      v = .object o → schemas.lookup key = some (.object t) → o.lookup key = some w →
      Faithful p search definitions room t w) (path : QString) :
    (∀ member ∈ v.toObject, (match contract.properties.lookup member.1 with
      | some property => validateContract p room property member.2 (path ++ unit '.' :: member.1)
      | none => Checked.rejectIf (!contract.additionalProperties)
          (issue (path ++ unit '.' :: member.1) "state.unknown-field"
            "The action contract does not accept this field.")).errors = []) ↔
    (∀ schemas o key t w, s.lookup (qstr "properties") = some (.object schemas) → v = .object o →
      schemas.lookup key = some (.object t) → o.lookup key = some w → ValidUnder search definitions t w) ∧
    ∀ o key, s.lookup (qstr "additionalProperties") = some (.bool false) → v = .object o →
      QJsonObject.contains o key = true →
        ∃ schemas, s.lookup (qstr "properties") = some (.object schemas) ∧ QJsonObject.contains schemas key = true := by
  cases v with
  | object o =>
    have member {key : QString} {w : QJsonValue} {c : ValueContract} (hw : o.lookup key = some w)
        (hc : contract.properties.lookup key = some c) (path : QString) : ∃ schemas t,
        s.lookup (qstr "properties") = some (.object schemas) ∧ schemas.lookup key = some (.object t) ∧
          ((validateContract p room c w path).errors = [] ↔ ValidUnder search definitions t w) := by
      obtain ⟨schemas, t, hs, ht, hm⟩ := h.property key c hc
      exact ⟨schemas, t, hs, ht, (hm.2 room w path (isJson_member hv hw)
        (hproperties schemas o key t w hs rfl ht hw)).1⟩
    constructor
    · intro hall
      constructor
      · intro schemas o' key t w hs ho ht hw
        cases ho
        have hmember := hall (key, w) (QJsonObject.mem_of_lookup_eq_some hw)
        cases hc : contract.properties.lookup key with
        | none => exact absurd (ht.symm.trans (h.noProperty key schemas hc hs)) (by simp)
        | some c =>
          obtain ⟨schemas', t', hs', ht', hiff⟩ := member hw hc (path ++ unit '.' :: key)
          obtain rfl := QJsonValue.object.inj (Option.some.inj (hs.symm.trans hs'))
          obtain rfl := QJsonValue.object.inj (Option.some.inj (ht.symm.trans ht'))
          simp only [hc] at hmember
          exact hiff.mp hmember
      · intro o' key hadditional ho hcontains
        cases ho
        obtain ⟨w, hw⟩ := Option.isSome_iff_exists.mp hcontains
        have hmember := hall (key, w) (QJsonObject.mem_of_lookup_eq_some hw)
        cases hc : contract.properties.lookup key with
        | none =>
          simp [hc, h.additionalProperties.mpr hadditional] at hmember
        | some c =>
          obtain ⟨schemas, t, hs, ht, -⟩ := member hw hc path
          exact ⟨schemas, hs, by simp [QJsonObject.contains, ht]⟩
    · rintro ⟨hall, hadditional⟩ ⟨key, w⟩ hm
      have hw := QJsonObject.lookup_eq_some_of_mem hv.1 hm
      cases hc : contract.properties.lookup key with
      | none =>
        rw [Checked.rejectIf_errors, Bool.not_eq_false', ← Bool.not_eq_false]
        intro hclosed
        obtain ⟨schemas, hs, hcontains⟩ := hadditional o key (h.additionalProperties.mp hclosed) rfl
          (by simp [QJsonObject.contains, hw])
        simp [QJsonObject.contains, h.noProperty key schemas hc hs] at hcontains
      | some c =>
        obtain ⟨schemas, t, hs, ht, hiff⟩ := member hw hc (path ++ unit '.' :: key)
        exact hiff.mpr (hall schemas o key t w hs rfl ht hw)
  | undefined | null | bool | double | string | array => simp [QJsonValue.toObject]

omit hf in
/-- What the elements of an array must satisfy. -/
theorem items_ok (hitems : ∀ t elements w, s.lookup (qstr "items") = some (.object t) →
      v = .array elements → w ∈ elements → Faithful p search definitions room t w) (path : QString) :
    (validateItems p (fun itemPath item => match contract.items with
        | some items => validateContract p room items item itemPath
        | none => pure ()) contract.uniqueItems path 0 [] v.toArray).errors = [] ↔
      (∀ t elements w, s.lookup (qstr "items") = some (.object t) → v = .array elements → w ∈ elements →
        ValidUnder search definitions t w) ∧
      ∀ elements, s.lookup (qstr "uniqueItems") = some (.bool true) → v = .array elements → elements.Nodup := by
  cases v with
  | array elements =>
    have hjson (w : QJsonValue) (hw : w ∈ elements) : IsJson w := isJson_item hv hw
    have hitem (w : QJsonValue) (hw : w ∈ elements) (path : QString) :
        (match contract.items with
          | some items => validateContract p room items w path
          | none => pure ()).errors = [] ↔
          ∀ t, s.lookup (qstr "items") = some (.object t) → ValidUnder search definitions t w := by
      rcases h.items with ⟨hs, hc⟩ | ⟨t, c, hs, hc, hm⟩
      · simp [hs, hc]
      · simp only [hs, hc, Option.some_inj, QJsonValue.object.injEq, forall_eq']
        exact (hm.2 room w path (hjson w hw) (hitems t elements w hs rfl hw)).1
    rw [show (QJsonValue.array elements).toArray = elements from rfl, validateItems_errors hitem,
      nodup_canonicalJson p hjson, h.uniqueItems]
    simp only [QJsonValue.array.injEq, List.not_mem_nil, not_false_eq_true, implies_true, and_true]
    constructor
    · rintro ⟨hall, hunique⟩
      refine ⟨?_, ?_⟩
      · rintro t _ w hs rfl hw
        exact hall w hw t hs
      · rintro _ hu rfl
        exact hunique hu
    · rintro ⟨hall, hunique⟩
      exact ⟨fun w hw t hs => hall t elements w hs rfl hw, fun hu => hunique elements hu rfl⟩
  | undefined | null | bool | double | string | object => simp [QJsonValue.toArray, validateItems]

omit hf in
theorem validateShape_errors (hagrees : ∀ text, Named s v → v = .string text → TextAgrees p search s text) (path : QString) :
    (validateShape p contract v path).errors = [] ↔
      (∀ c, s.lookup (qstr "const") = some c → v = c) ∧
      (∀ values, s.lookup (qstr "enum") = some (.array values) → v ∈ values) ∧
      (∀ q, v = .double (.finite q) →
        ((∀ least, s.lookup (qstr "minimum") = some (.double (.finite least)) → least ≤ q) ∧
          ∀ most, s.lookup (qstr "maximum") = some (.double (.finite most)) → q ≤ most) ∧
        (∀ least, s.lookup (qstr "exclusiveMinimum") = some (.double (.finite least)) → least < q) ∧
          ∀ most, s.lookup (qstr "exclusiveMaximum") = some (.double (.finite most)) → q < most) ∧
      (∀ text, v = .string text → LengthWithin s (codePoints text) ∧
        ∀ expression, s.lookup (qstr "pattern") = some (.string expression) → search expression text) ∧
      (∀ o, v = .object o →
        (∀ least, s.lookup (qstr "minProperties") = some (.double (.finite least)) → least ≤ o.length) ∧
          ∀ most, s.lookup (qstr "maxProperties") = some (.double (.finite most)) → o.length ≤ most) ∧
      ∀ names o name, s.lookup (qstr "required") = some (.array names) → v = .object o →
        .string name ∈ names → QJsonObject.contains o name = true := by
  unfold validateShape
  simp only [Checked.bind_errors, List.append_eq_nil_iff, Checked.rejectIf_errors, Checked.forEach_errors_iff]
  rw [constant_ok h hv, enum_ok h hv, number_ok h hv, fieldCount_ok h, required_ok h]
  refine and_congr_right fun hconst => and_congr_right fun henum => and_congr_right fun _ => and_congr_left fun _ => ?_
  exact text_ok h fun text => hagrees text ⟨hconst, henum⟩

/-- A node that checks the value and its parts. -/
theorem parts_ok (hone : s.contains (qstr "oneOf") = false) (hany : s.contains (qstr "anyOf") = false)
    (path : QString) :
    ((validateContract p (room + 1) contract v path).errors = [] ↔
      Satisfies search (ValidUnder search definitions) s v) ∧
      Shallow (validateContract p (room + 1) contract v path) := by
  have hnone := lookup_none hone
  have hnany := lookup_none hany
  obtain ⟨htext, hproperties, hitems⟩ : (∀ text, Accepts s v → Named s v → v = .string text → TextAgrees p search s text) ∧
      (∀ schemas o key t w, Accepts s v → s.lookup (qstr "properties") = some (.object schemas) → v = .object o →
        schemas.lookup key = some (.object t) → o.lookup key = some w → Faithful p search definitions room t w) ∧
      ∀ t elements w, Accepts s v → s.lookup (qstr "items") = some (.object t) → v = .array elements →
        w ∈ elements → Faithful p search definitions room t w := by
    cases hf with
    | reference hr => exact absurd (h.plain.symm.trans hr) (by simp)
    | branches _ _ _ hb => simp [hone, hany] at hb
    | parts _ _ _ htext hproperties hitems => exact ⟨htext, hproperties, hitems⟩
  rw [validateContract, if_neg (by simp [no_branches h.oneOf hnone]), if_neg (by simp [no_branches h.anyOf hnany])]
  have htype := h.acceptedTypes hone hany v
  by_cases ha : Accepts s v
  · rw [if_neg (by simp [htype.mpr ha])]
    have hshape := validateShape_errors h hv (htext · ha) path
    have hmembers := members_ok h hv (hproperties · · · · · ha) path
    have helements := items_ok h hv (hitems · · · ha) path
    have hcount := itemCount_ok (v := v) h
    constructor
    · simp only [Checked.bind_errors, List.append_eq_nil_iff]
      refine (and_congr hshape (and_congr (Checked.forEach_errors_iff.trans hmembers)
        (and_congr (Checked.rejectIf_errors.trans hcount) helements))).trans ?_
      constructor
      · rintro ⟨⟨hconst, henum, hnumber, htext, hfields, hrequired⟩, ⟨hproperties, hadditional⟩, hcount, hitems, hunique⟩
        exact {
          type := fun t ht => by simpa only [Accepts, ht] using ha
          oneOf := fun _ hb => absurd hb (by simp [hnone])
          anyOf := fun _ hb => absurd hb (by simp [hnany])
          const := hconst
          enum := henum
          minimum := fun least q hs hq => (hnumber q hq).1.1 least hs
          maximum := fun most q hs hq => (hnumber q hq).1.2 most hs
          exclusiveMinimum := fun least q hs hq => (hnumber q hq).2.1 least hs
          exclusiveMaximum := fun most q hs hq => (hnumber q hq).2.2 most hs
          minLength := fun least text hs ht => (htext text ht).1.1 least hs
          maxLength := fun most text hs ht => (htext text ht).1.2 most hs
          pattern := fun expression text hs ht => (htext text ht).2 expression hs
          required := hrequired
          properties := hproperties
          additionalProperties := hadditional
          minProperties := fun least o hs ho => (hfields o ho).1 least hs
          maxProperties := fun most o hs ho => (hfields o ho).2 most hs
          items := hitems
          minItems := fun least elements hs he => (hcount elements he).1 least hs
          maxItems := fun most elements hs he => (hcount elements he).2 most hs
          uniqueItems := hunique }
      · intro hs
        exact ⟨⟨hs.const, hs.enum,
          fun q hq => ⟨⟨fun least hl => hs.minimum least q hl hq, fun most hm => hs.maximum most q hm hq⟩,
            fun least hl => hs.exclusiveMinimum least q hl hq, fun most hm => hs.exclusiveMaximum most q hm hq⟩,
          fun text ht => ⟨⟨fun least hl => hs.minLength least text hl ht, fun most hm => hs.maxLength most text hm ht⟩,
            fun expression he => hs.pattern expression text he ht⟩,
          fun o ho => ⟨fun least hl => hs.minProperties least o hl ho, fun most hm => hs.maxProperties most o hm ho⟩,
          hs.required⟩, ⟨hs.properties, hs.additionalProperties⟩,
          fun elements he => ⟨fun least hl => hs.minItems least elements hl he,
            fun most hm => hs.maxItems most elements hm he⟩, hs.items, hs.uniqueItems⟩
    · refine (shallow_validateShape p contract v path).bind (Shallow.bind ?_ ((shallow_rejectIf (by decide)).bind ?_))
      · refine shallow_forEach fun member hm _ => ?_
        obtain ⟨key, w⟩ := member
        cases v with
        | object o =>
          have hw : o.lookup key = some w := QJsonObject.lookup_eq_some_of_mem hv.1 hm
          cases hc : contract.properties.lookup key with
          | none => exact shallow_rejectIf (by decide)
          | some c =>
            obtain ⟨schemas, t, hs, ht, hm⟩ := h.property key c hc
            exact (hm.2 room w _ (isJson_member hv hw) (hproperties schemas o key t w ha hs rfl ht hw)).2
        | undefined | null | bool | double | string | array => cases hm
      · refine shallow_validateItems fun w hw itemPath => ?_
        cases v with
        | array elements =>
          rcases h.items with ⟨-, hc⟩ | ⟨t, c, hs, hc, hm⟩
          · rw [hc]
            exact shallow_of_errors rfl
          · rw [hc]
            exact (hm.2 room w itemPath (isJson_item hv hw) (hitems t elements w ha hs rfl hw)).2
        | undefined | null | bool | double | string | object => cases hw
  · rw [if_pos (by simpa using htype.not.mpr ha)]
    refine ⟨iff_of_false (by simp [addError, Checked.report]) ?_, shallow_issue (typeMismatchCode_ne _)⟩
    exact fun hs => ha (accepts_of_satisfies h hv hone hany hs)

omit hv hf in
theorem subschemas_meet (t : QJsonObject) (ht : Subschema s t) : HasMeaning search definitions t := by
  have branch {key : QString} {contracts : List ValueContract} {branches : List QJsonValue}
      (hb : ∃ branches, s.lookup key = (if branches = [] then none else some (.array branches)) ∧
        BranchesMeet p search definitions branches contracts)
      (hs : s.lookup key = some (.array branches)) (ht : .object t ∈ branches) : HasMeaning search definitions t := by
    obtain ⟨branches', hb, hm⟩ := hb
    rw [hs] at hb
    split_ifs at hb
    obtain rfl := QJsonValue.array.inj (Option.some.inj hb)
    exact hasMeaning_of_branches hm ht
  cases ht with
  | oneOf hs ht => exact branch h.oneOf hs ht
  | anyOf hs ht => exact branch h.anyOf hs ht
  | @property schemas key t hs ht =>
    cases hc : contract.properties.lookup key with
    | none => exact absurd (ht.symm.trans (h.noProperty key schemas hc hs)) (by simp)
    | some c =>
      obtain ⟨schemas', t', hs', ht', hm⟩ := h.property key c hc
      obtain rfl := QJsonValue.object.inj (Option.some.inj (hs.symm.trans hs'))
      obtain rfl := QJsonValue.object.inj (Option.some.inj (ht.symm.trans ht'))
      exact hm.1
  | items hs =>
    rcases h.items with ⟨hnone, -⟩ | ⟨t', c, hs', -, hm⟩
    · exact absurd (hs.symm.trans hnone) (by simp)
    · obtain rfl := QJsonValue.object.inj (Option.some.inj (hs.symm.trans hs'))
      exact hm.1

omit hv hf in
/-- A contract that realizes the keywords of a schema meets the schema. -/
theorem meets_of_realizes : Meets p search definitions s contract := by
  have hd := denotes_keywords h.plain (subschemas_meet h)
  refine ⟨⟨_, hd⟩, fun room v path hv hf => ?_⟩
  rw [hd.validUnder]
  cases room with
  | zero =>
    cases hf with
    | reference hr => exact absurd (h.plain.symm.trans hr) (by simp)
  | succ room =>
    cases hone : s.contains (qstr "oneOf") with
    | true => exact oneOf_ok h hv hf hone path
    | false =>
      cases hany : s.contains (qstr "anyOf") with
      | true => exact anyOf_ok h hv hf hany path
      | false => exact parts_ok h hv hf hone hany path

end Nodes
end HyprShelld.Hyprland
