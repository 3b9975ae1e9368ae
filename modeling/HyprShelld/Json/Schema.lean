import HyprShelld.Json.Injective
import HyprShelld.Text.Strings

/-! JSON Schema: what a schema object asserts of a JSON value, keyword by keyword, and how
references and subschemas combine into one meaning. -/
namespace HyprShelld.JsonSchema
open Json

/-- String lengths are counted in code points. -/
def codePoints (s : QString) : Nat := (toUcs4 s).length

/-- The names of a value's types. A number without a fraction is an integer, however it is written. -/
def typeNames : QJsonValue → List QString
  | .undefined => []
  | .null => [qstr "null"]
  | .bool _ => [qstr "boolean"]
  | .double (.finite q) => if q.den = 1 then [qstr "integer", qstr "number"] else [qstr "number"]
  | .double _ => []
  | .string _ => [qstr "string"]
  | .array _ => [qstr "array"]
  | .object _ => [qstr "object"]

/-- The value of a type keyword: one name or several. -/
def OfType (t v : QJsonValue) : Prop := match t with
  | .string name => name ∈ typeNames v
  | .array names => ∃ name, .string name ∈ names ∧ name ∈ typeNames v
  | _ => False

section Meaning
-- whether an expression occurs in a text, as ECMA-262 has it
variable (search : QString → QString → Prop)

/-- The assertions of a schema's own keywords, where its subschemas mean `sub`. -/
structure Satisfies (sub : QJsonObject → QJsonValue → Prop) (s : QJsonObject) (v : QJsonValue) : Prop where
  type : ∀ t, s.lookup (qstr "type") = some t → OfType t v
  oneOf : ∀ branches, s.lookup (qstr "oneOf") = some (.array branches) →
    ∃! i : Nat, ∃ t, branches[i]? = some (.object t) ∧ sub t v
  anyOf : ∀ branches, s.lookup (qstr "anyOf") = some (.array branches) → ∃ t, .object t ∈ branches ∧ sub t v
  const : ∀ c, s.lookup (qstr "const") = some c → v = c
  enum : ∀ values, s.lookup (qstr "enum") = some (.array values) → v ∈ values
  minimum : ∀ least q, s.lookup (qstr "minimum") = some (.double (.finite least)) → v = .double (.finite q) → least ≤ q
  maximum : ∀ most q, s.lookup (qstr "maximum") = some (.double (.finite most)) → v = .double (.finite q) → q ≤ most
  exclusiveMinimum : ∀ least q, s.lookup (qstr "exclusiveMinimum") = some (.double (.finite least)) →
    v = .double (.finite q) → least < q
  exclusiveMaximum : ∀ most q, s.lookup (qstr "exclusiveMaximum") = some (.double (.finite most)) →
    v = .double (.finite q) → q < most
  minLength : ∀ least text, s.lookup (qstr "minLength") = some (.double (.finite least)) →
    v = .string text → least ≤ codePoints text
  maxLength : ∀ most text, s.lookup (qstr "maxLength") = some (.double (.finite most)) →
    v = .string text → codePoints text ≤ most
  pattern : ∀ expression text, s.lookup (qstr "pattern") = some (.string expression) →
    v = .string text → search expression text
  required : ∀ names o name, s.lookup (qstr "required") = some (.array names) → v = .object o →
    .string name ∈ names → QJsonObject.contains o name = true
  properties : ∀ schemas o key t w, s.lookup (qstr "properties") = some (.object schemas) → v = .object o →
    schemas.lookup key = some (.object t) → o.lookup key = some w → sub t w
  additionalProperties : ∀ o key, s.lookup (qstr "additionalProperties") = some (.bool false) → v = .object o →
    QJsonObject.contains o key = true →
      ∃ schemas, s.lookup (qstr "properties") = some (.object schemas) ∧ QJsonObject.contains schemas key = true
  minProperties : ∀ least o, s.lookup (qstr "minProperties") = some (.double (.finite least)) →
    v = .object o → least ≤ o.length
  maxProperties : ∀ most o, s.lookup (qstr "maxProperties") = some (.double (.finite most)) →
    v = .object o → o.length ≤ most
  items : ∀ t elements w, s.lookup (qstr "items") = some (.object t) → v = .array elements → w ∈ elements → sub t w
  minItems : ∀ least elements, s.lookup (qstr "minItems") = some (.double (.finite least)) →
    v = .array elements → least ≤ elements.length
  maxItems : ∀ most elements, s.lookup (qstr "maxItems") = some (.double (.finite most)) →
    v = .array elements → elements.length ≤ most
  uniqueItems : ∀ elements, s.lookup (qstr "uniqueItems") = some (.bool true) → v = .array elements → elements.Nodup

/-- The schemas that a schema applies to its value or to parts of it. -/
inductive Subschema (s : QJsonObject) : QJsonObject → Prop
  | oneOf {branches : List QJsonValue} {t : QJsonObject} :
    s.lookup (qstr "oneOf") = some (.array branches) → .object t ∈ branches → Subschema s t
  | anyOf {branches : List QJsonValue} {t : QJsonObject} :
    s.lookup (qstr "anyOf") = some (.array branches) → .object t ∈ branches → Subschema s t
  | property {schemas : QJsonObject} {key : QString} {t : QJsonObject} :
    s.lookup (qstr "properties") = some (.object schemas) → schemas.lookup key = some (.object t) → Subschema s t
  | items {t : QJsonObject} : s.lookup (qstr "items") = some (.object t) → Subschema s t

variable (definitions : QJsonObject)

/-- A schema means a predicate when its references end. A reference names its definition and
stands for it beside the schema's own keywords. -/
inductive Denotes : QJsonObject → (QJsonValue → Prop) → Prop
  | keywords {s : QJsonObject} (sub : QJsonObject → QJsonValue → Prop) :
    s.lookup (qstr "$ref") = none → (∀ t, Subschema s t → Denotes t (sub t)) → Denotes s (Satisfies search sub s)
  | reference {s t : QJsonObject} {name : QString} {target : QJsonValue → Prop}
    (sub : QJsonObject → QJsonValue → Prop) :
    s.lookup (qstr "$ref") = some (.string (qstr "#/$defs/" ++ name)) → definitions.lookup name = some (.object t) →
    Denotes t target → (∀ t, Subschema s t → Denotes t (sub t)) →
    Denotes s (fun v => target v ∧ Satisfies search sub s v)

variable {search definitions}

theorem Satisfies.congr {sub sub' : QJsonObject → QJsonValue → Prop} {s : QJsonObject} {v : QJsonValue}
    (h : ∀ t, Subschema s t → ∀ w, sub t w ↔ sub' t w) (hs : Satisfies search sub s v) :
    Satisfies search sub' s v where
  type := hs.type
  oneOf branches hb := by
    have hbranch (i : Nat) : (∃ t, branches[i]? = some (.object t) ∧ sub' t v) ↔
        ∃ t, branches[i]? = some (.object t) ∧ sub t v := by
      apply exists_congr
      intro t
      apply and_congr_right
      intro hi
      exact (h t (.oneOf hb (List.mem_of_getElem? hi)) v).symm
    simpa only [hbranch] using hs.oneOf branches hb
  anyOf branches hb := by
    obtain ⟨t, ht, hv⟩ := hs.anyOf branches hb
    exact ⟨t, ht, (h t (.anyOf hb ht) v).mp hv⟩
  const := hs.const
  enum := hs.enum
  minimum := hs.minimum
  maximum := hs.maximum
  exclusiveMinimum := hs.exclusiveMinimum
  exclusiveMaximum := hs.exclusiveMaximum
  minLength := hs.minLength
  maxLength := hs.maxLength
  pattern := hs.pattern
  required := hs.required
  properties schemas o key t w hp ho ht hw :=
    (h t (.property hp ht) w).mp (hs.properties schemas o key t w hp ho ht hw)
  additionalProperties := hs.additionalProperties
  minProperties := hs.minProperties
  maxProperties := hs.maxProperties
  items t elements w ht hv hw := (h t (.items ht) w).mp (hs.items t elements w ht hv hw)
  minItems := hs.minItems
  maxItems := hs.maxItems
  uniqueItems := hs.uniqueItems

/-- A schema has one meaning. -/
theorem Denotes.unique {s : QJsonObject} {P Q : QJsonValue → Prop} (hP : Denotes search definitions s P)
    (hQ : Denotes search definitions s Q) (v : QJsonValue) : P v ↔ Q v := by
  have agree {sub sub' : QJsonObject → QJsonValue → Prop} {s : QJsonObject}
      (h : ∀ t, Subschema s t → ∀ w, sub t w ↔ sub' t w) (v : QJsonValue) :
      Satisfies search sub s v ↔ Satisfies search sub' s v :=
    ⟨Satisfies.congr h, Satisfies.congr fun t ht w => (h t ht w).symm⟩
  induction hP generalizing Q v with
  | keywords sub hr _ ih =>
    cases hQ with
    | keywords sub' _ h' => exact agree (fun t ht w => ih t ht (h' t ht) w) v
    | reference _ hr' => exact absurd (hr.symm.trans hr') (by simp)
  | reference sub hr ht _ _ ihtarget ih =>
    cases hQ with
    | keywords _ hr' => exact absurd (hr.symm.trans hr') (by simp)
    | reference sub' hr' ht' htarget' h' =>
      have hname := hr.symm.trans hr'
      rw [Option.some_inj, QJsonValue.string.injEq] at hname
      obtain rfl := List.append_cancel_left hname
      obtain rfl := QJsonValue.object.inj (Option.some.inj (ht.symm.trans ht'))
      exact and_congr (ihtarget htarget' v) (agree (fun t ht w => ih t ht (h' t ht) w) v)

variable (search definitions) in
/-- The references below the schema end. -/
def HasMeaning (s : QJsonObject) : Prop := ∃ P, Denotes search definitions s P

variable (search definitions) in
/-- The value is valid under what the schema means. -/
def ValidUnder (s : QJsonObject) (v : QJsonValue) : Prop := ∃ P, Denotes search definitions s P ∧ P v

theorem Denotes.validUnder {s : QJsonObject} {P : QJsonValue → Prop} (h : Denotes search definitions s P) :
    ValidUnder search definitions s = P := by
  funext v
  refine propext ⟨?_, fun hv => ⟨P, h, hv⟩⟩
  rintro ⟨Q, hQ, hv⟩
  exact (hQ.unique h v).mp hv

theorem HasMeaning.denotes {s : QJsonObject} (h : HasMeaning search definitions s) :
    Denotes search definitions s (ValidUnder search definitions s) := by
  obtain ⟨P, hP⟩ := h
  rw [hP.validUnder]
  exact hP

/-- A schema that is no reference asserts its keywords. -/
theorem denotes_keywords {s : QJsonObject} (hr : s.lookup (qstr "$ref") = none)
    (h : ∀ t, Subschema s t → HasMeaning search definitions t) :
    Denotes search definitions s (Satisfies search (ValidUnder search definitions) s) :=
  .keywords _ hr fun t ht => (h t ht).denotes

/-- A schema of alternatives asserts nothing else. -/
theorem satisfies_alternatives {sub : QJsonObject → QJsonValue → Prop} {s : QJsonObject} {v : QJsonValue}
    (hs : ∀ key, key ≠ qstr "oneOf" → key ≠ qstr "anyOf" → key ≠ qstr "$comment" → s.lookup key = none) :
    Satisfies search sub s v ↔
      (∀ branches, s.lookup (qstr "oneOf") = some (.array branches) →
        ∃! i : Nat, ∃ t, branches[i]? = some (.object t) ∧ sub t v) ∧
      ∀ branches, s.lookup (qstr "anyOf") = some (.array branches) → ∃ t, .object t ∈ branches ∧ sub t v := by
  refine ⟨fun h => ⟨h.oneOf, h.anyOf⟩, ?_⟩
  rintro ⟨hone, hany⟩
  have absent {key : String} {w : QJsonValue} (h : s.lookup (qstr key) = some w)
      (hk : key ≠ "oneOf" ∧ key ≠ "anyOf" ∧ key ≠ "$comment") : False := by
    rw [hs _ (qstr_inj.not.mpr hk.1) (qstr_inj.not.mpr hk.2.1) (qstr_inj.not.mpr hk.2.2)] at h
    cases h
  constructor
  case oneOf => exact hone
  case anyOf => exact hany
  all_goals intros; exact (absent ‹s.lookup (qstr _) = some _› (by decide)).elim

/-- A schema that asserts nothing beside its reference means what it refers to. -/
theorem denotes_reference {s t : QJsonObject} {name : QString}
    (hr : s.lookup (qstr "$ref") = some (.string (qstr "#/$defs/" ++ name)))
    (ht : definitions.lookup name = some (.object t)) (hmeaning : HasMeaning search definitions t)
    (hs : ∀ key, key ≠ qstr "$ref" → key ≠ qstr "$comment" → s.lookup key = none) :
    Denotes search definitions s (ValidUnder search definitions t) := by
  have hno (u : QJsonObject) : ¬ Subschema s u := by
    intro hu
    cases hu with
    | oneOf hb | anyOf hb | property hb | items hb => exact absurd hb (by simp [hs])
  have hd : Denotes search definitions s fun v => ValidUnder search definitions t v ∧
      Satisfies search (fun _ _ => True) s v :=
    .reference _ hr ht hmeaning.denotes fun u hu => absurd hu (hno u)
  have hall (v : QJsonValue) : Satisfies search (fun _ _ => True) s v := by
    have absent {key : String} {w : QJsonValue} (h : s.lookup (qstr key) = some w)
        (hk : key ≠ "$ref" ∧ key ≠ "$comment") : False := by
      rw [hs _ (qstr_inj.not.mpr hk.1) (qstr_inj.not.mpr hk.2)] at h
      cases h
    clear hr hd
    constructor <;> intros <;> exact (absent ‹s.lookup (qstr _) = some _› (by decide)).elim
  simpa only [hall, and_true] using hd

end Meaning
end HyprShelld.JsonSchema
