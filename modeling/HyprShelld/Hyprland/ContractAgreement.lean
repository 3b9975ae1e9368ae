import HyprShelld.Desired.RoundTrip
import HyprShelld.Hyprland.ContractCompilation

/-! The contracts of a catalog against the schemas they were compiled from. -/
namespace HyprShelld.Hyprland
open Json JsonSchema

section Agreement
variable (p : Platform) (validExpression : QString → Bool) (search : QString → QString → Prop)
  (definitions : QJsonObject) (references : List (QString × QString))

def compiledCatalog : Checked ValidationError (List (Option ValueContract) × CompilerState) :=
  (compileReferences p validExpression definitions references).run {}

/-- Each reference has a contract, and on the inputs considered the contract accepts a value
exactly when it is valid under the definition, and the depth limit is never the reason. -/
def ContractsAgree (considered : QJsonObject → QJsonValue → Prop) : Prop :=
  List.Forall₂ (fun reference result => ∃ name t contract, reference.1 = referencePrefix ++ name ∧
      definitions.lookup name = some (.object t) ∧ result = some contract ∧ HasMeaning search definitions t ∧
      ∀ v path, IsJson v → considered t v →
        let reported := (validateContract p (maximumSchemaReferenceDepth + 1) contract v path).errors
        (reported = [] ↔ ValidUnder search definitions t v) ∧ ∀ e ∈ reported, e.code ≠ qstr "state.schema-depth")
    references (compiledCatalog p validExpression definitions references).value.1

/-- Contracts that compiled agree with their schemas on every input they are faithful on. -/
theorem contracts_agree (hdefinitions : IsJson (.object definitions))
    (h : (compiledCatalog p validExpression definitions references).errors = []) :
    ContractsAgree p validExpression search definitions references
      (Faithful p search definitions (maximumSchemaReferenceDepth + 1)) := by
  have hempty : Sound p search definitions {} := by
    intro name contract hc
    cases hc
  have hsound := compileReferences_sound hdefinitions hempty (Checked.clean_self h)
  refine hsound.imp ?_
  rintro reference result ⟨name, t, c, hreference, ht, hresult, hmeaning, hmeets⟩
  exact ⟨name, t, c, hreference, ht, hresult, hmeaning, fun v path => hmeets _ v path⟩

end Agreement

section Sample

/-- A title of one character. -/
def titleSchema : QJsonObject := [(qstr "maxLength", integer 1), (qstr "type", .string (qstr "string"))]

def titleDefinitions : QJsonObject := [(qstr "title", .object titleSchema)]

def titleReferences : List (QString × QString) := [(referencePrefix ++ qstr "title", qstr "$.title")]

/-- One character outside the basic plane. -/
def wideTitle : QString := [0xd83d, 0xde00]

def wrapped : Nat → QJsonObject → QJsonObject
  | 0, s => s
  | n + 1, s => [(qstr "anyOf", .array [.object (wrapped n s)])]

/-- A definition nested twenty deep, and one that refers to it from twenty deep. -/
def nestedDefinitions : QJsonObject :=
  [(qstr "inner", .object (wrapped 20 [(qstr "const", .bool true)])),
    (qstr "outer", .object (wrapped 20 [(qstr "$ref", .string (localPrefix ++ qstr "inner"))]))]

def nestedReferences : List (QString × QString) :=
  [(referencePrefix ++ qstr "inner", qstr "$.inner"), (referencePrefix ++ qstr "outer", qstr "$.outer")]

variable {search : QString → QString → Prop}

theorem lookup_titleSchema (key : String) : titleSchema.lookup (qstr key) =
    if key = "maxLength" then some (integer 1) else if key = "type" then some (.string (qstr "string")) else none := by
  simp only [titleSchema, QJsonObject.lookup_cons_ite, qstr_inj]
  rfl

theorem lookup_nestedDefinitions (key : String) : nestedDefinitions.lookup (qstr key) =
    if key = "inner" then some (.object (wrapped 20 [(qstr "const", .bool true)]))
    else if key = "outer" then some (.object (wrapped 20 [(qstr "$ref", .string (localPrefix ++ qstr "inner"))]))
    else none := by
  simp only [nestedDefinitions, QJsonObject.lookup_cons_ite, qstr_inj]
  rfl

/-- What the compiler and the validator report on the two lists, with one verdict for every contract. -/
structure SampleVerdicts : Prop where
  titles : (compiledCatalog plainPlatform (fun _ => true) titleDefinitions titleReferences).errors = []
  wide : ((compiledCatalog plainPlatform (fun _ => true) titleDefinitions titleReferences).value.1.all
    fun result => result.all fun contract => (validateContract plainPlatform (maximumSchemaReferenceDepth + 1)
      contract (.string wideTitle) []).errors ≠ []) = true
  nested : (compiledCatalog plainPlatform (fun _ => true) nestedDefinitions nestedReferences).errors = []
  deep : ((compiledCatalog plainPlatform (fun _ => true) nestedDefinitions nestedReferences).value.1.tail.all
    fun result => result.all fun contract => (validateContract plainPlatform (maximumSchemaReferenceDepth + 1)
      contract (.bool true) []).errors ≠ []) = true

theorem sampleVerdicts : SampleVerdicts where
  titles := by decide +kernel
  wide := by decide +kernel
  nested := by decide +kernel
  deep := by decide +kernel

theorem satisfies_text {sub : QJsonObject → QJsonValue → Prop} {text : QString} (h : codePoints text ≤ 1) :
    Satisfies search sub titleSchema (.string text) := by
  constructor
  case type =>
    intro t ht
    rw [lookup_titleSchema] at ht
    cases ht
    exact List.mem_singleton.mpr rfl
  case maxLength =>
    intro most text' hm ht
    rw [lookup_titleSchema] at hm
    cases hm
    cases ht
    exact_mod_cast h
  all_goals intros; simp_all [lookup_titleSchema]

theorem titleSchema_denotes : Denotes search titleDefinitions titleSchema
    (Satisfies search (ValidUnder search titleDefinitions) titleSchema) := by
  refine denotes_keywords (by simp [lookup_titleSchema]) fun t ht => ?_
  cases ht with
  | oneOf h | anyOf h | property h | items h => simp [lookup_titleSchema] at h

/-- Wrapping a schema into single alternatives changes nothing. -/
theorem wrapped_denotes {definitions s : QJsonObject} {P : QJsonValue → Prop} (h : Denotes search definitions s P)
    (n : Nat) : Denotes search definitions (wrapped n s) P := by
  induction n with
  | zero => exact h
  | succ n ih =>
    have hlookup (key : QString) : List.lookup key (wrapped (n + 1) s) =
        if key = qstr "anyOf" then some (.array [.object (wrapped n s)]) else none := by
      rw [wrapped, QJsonObject.lookup_cons_ite]
      rfl
    have hd : Denotes search definitions (wrapped (n + 1) s)
        (Satisfies search (ValidUnder search definitions) (wrapped (n + 1) s)) := by
      refine denotes_keywords (by simp [hlookup]) fun t ht => ?_
      cases ht with
      | oneOf h | property h | items h => simp [hlookup] at h
      | anyOf h ht =>
        simp only [hlookup, if_true, Option.some_inj, QJsonValue.array.injEq] at h
        subst h
        cases List.mem_singleton.mp ht
        exact ⟨P, ih⟩
    have hmeaning : Satisfies search (ValidUnder search definitions) (wrapped (n + 1) s) = P := by
      funext v
      rw [satisfies_alternatives fun key _ hany _ => by rw [hlookup, if_neg hany]]
      simp [hlookup, ih.validUnder]
    rw [hmeaning] at hd
    exact hd

theorem single_lookup (key k : QString) (w : QJsonValue) :
    List.lookup key [(k, w)] = if key = k then some w else none := by
  rw [QJsonObject.lookup_cons_ite]
  rfl

theorem nested_valid : ValidUnder search nestedDefinitions
    (wrapped 20 [(qstr "$ref", .string (localPrefix ++ qstr "inner"))]) (.bool true) := by
  have hconst : Denotes search nestedDefinitions [(qstr "const", .bool true)]
      (Satisfies search (ValidUnder search nestedDefinitions) [(qstr "const", .bool true)]) := by
    refine denotes_keywords (by simp [single_lookup]) fun t ht => ?_
    cases ht with
    | oneOf h | anyOf h | property h | items h => simp [single_lookup] at h
  have hinner := wrapped_denotes hconst 20
  have hreference : Denotes search nestedDefinitions [(qstr "$ref", .string (localPrefix ++ qstr "inner"))]
      (ValidUnder search nestedDefinitions (wrapped 20 [(qstr "const", .bool true)])) :=
    denotes_reference (by rw [single_lookup, if_pos rfl]; rfl)
      (by simpa using lookup_nestedDefinitions "inner") ⟨_, hinner⟩
      fun key hkey _ => by rw [single_lookup, if_neg hkey]
  have houter := wrapped_denotes hreference 20
  rw [houter.validUnder, hinner.validUnder]
  constructor
  case const =>
    intro c hc
    simp only [single_lookup, if_true, Option.some_inj] at hc
    exact hc
  all_goals intros; simp_all [single_lookup]

/-- What every compiled contract of a list does on one value. -/
theorem reported_of_all {results : List (Option ValueContract)} {bad : ValueContract → Bool} {contract : ValueContract}
    (h : (results.all fun result => result.all bad) = true) (hm : some contract ∈ results) : bad contract = true := by
  simpa using List.all_eq_true.mp h _ hm

theorem titleSchema_faithful : Faithful plainPlatform (fun _ _ => True) titleDefinitions
    (maximumSchemaReferenceDepth + 1) titleSchema (.string (qstr "a")) := by
  refine .parts (by simp [lookup_titleSchema]) (by simp [QJsonObject.contains, lookup_titleSchema])
    (by simp [QJsonObject.contains, lookup_titleSchema]) ?_ ?_ ?_
  · intro text _ _ htext
    cases htext
    have hunits : (qstr "a").length = codePoints (qstr "a") := by rfl
    have hpattern (expression : QString) : titleSchema.lookup (qstr "pattern") ≠ some (.string expression) := by
      simp [lookup_titleSchema]
    rw [TextAgrees, hunits]
    exact and_congr_right fun _ => forall_congr' fun expression => by simp [hpattern expression]
  · rintro _ _ _ _ _ - - ⟨⟩
  · rintro _ _ _ - - ⟨⟩

theorem titleDefinitions_json : IsJson (.object titleDefinitions) := by
  have hone : IsBinary64 ((1 : ℤ) : ℚ) := binary64_small (by decide)
  exact ⟨by decide +kernel, trivial, ⟨by decide +kernel, trivial, ⟨_, rfl, hone⟩, trivial, trivial, trivial⟩, trivial⟩

theorem contracts_agree_title : ∃ contract,
    (compiledCatalog plainPlatform (fun _ => true) titleDefinitions titleReferences).value.1 = [some contract] ∧
      (validateContract plainPlatform (maximumSchemaReferenceDepth + 1) contract (.string (qstr "a")) []).errors = [] := by
  have h := contracts_agree plainPlatform (fun _ => true) (fun _ _ => True) titleDefinitions titleReferences
    titleDefinitions_json sampleVerdicts.titles
  obtain ⟨_, _, ⟨name, t, contract, hname, ht, rfl, -, hagrees⟩, hrest, he⟩ := List.forall₂_cons_left_iff.mp h
  obtain rfl := List.forall₂_nil_left_iff.mp hrest
  obtain rfl := List.append_cancel_left hname
  cases ht
  refine ⟨contract, he, (hagrees (.string (qstr "a")) [] trivial titleSchema_faithful).1.mpr ?_⟩
  rw [titleSchema_denotes.validUnder]
  exact satisfies_text (by decide)

/-- A title of one wide character is too long for its contract, and the second nested contract
runs out of depth on the value it is for. -/
theorem contracts_disagree :
    (compiledCatalog plainPlatform (fun _ => true) titleDefinitions titleReferences).errors = [] ∧
    ¬ ContractsAgree plainPlatform (fun _ => true) (fun _ _ => True) titleDefinitions titleReferences
      (fun _ _ => True) ∧
    (compiledCatalog plainPlatform (fun _ => true) nestedDefinitions nestedReferences).errors = [] ∧
    ¬ ContractsAgree plainPlatform (fun _ => true) (fun _ _ => True) nestedDefinitions nestedReferences
      (fun _ _ => True) := by
  refine ⟨sampleVerdicts.titles, ?_, sampleVerdicts.nested, ?_⟩
  · intro h
    have hbad := sampleVerdicts.wide
    obtain ⟨_, _, ⟨name, t, contract, hname, ht, rfl, -, hagrees⟩, -, he⟩ := List.forall₂_cons_left_iff.mp h
    rw [he] at hbad
    obtain rfl := List.append_cancel_left hname
    cases ht
    have hreported := (hagrees (.string wideTitle) [] trivial trivial).1.mpr (by
      rw [titleSchema_denotes.validUnder]
      exact satisfies_text (by decide))
    exact of_decide_eq_true (reported_of_all hbad List.mem_cons_self) hreported
  · intro h
    have hbad := sampleVerdicts.deep
    obtain ⟨_, _, -, hrest, he⟩ := List.forall₂_cons_left_iff.mp h
    obtain ⟨_, _, ⟨name, t, contract, hname, ht, rfl, -, hagrees⟩, -, rfl⟩ := List.forall₂_cons_left_iff.mp hrest
    rw [he] at hbad
    obtain rfl := List.append_cancel_left hname
    obtain rfl := QJsonValue.object.inj (Option.some.inj (ht.symm.trans (by simpa using lookup_nestedDefinitions "outer")))
    have hreported := (hagrees (.bool true) [] trivial trivial).1.mpr nested_valid
    exact of_decide_eq_true (reported_of_all hbad List.mem_cons_self) hreported

end Sample
end HyprShelld.Hyprland
