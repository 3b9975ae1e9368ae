import HyprShelld.Component.Contract
import Mathlib.Data.Int.Log
import Mathlib.Data.Rat.Floor

/-! Trusted settings schemas and the values they admit. -/
namespace HyprShelld

/-! Double arithmetic: the exact result, rounded to the nearest binary64 value. -/

def roundHalfEven (q : ℚ) : Int :=
  let below := ⌊q⌋
  let rest := q - below
  if rest < 1 / 2 then below else if 1 / 2 < rest then below + 1 else if below % 2 = 0 then below else below + 1

/-- The exponent of the last bit of the significand. -/
def lastPlace (q : ℚ) : Int := max (-1074) (Int.log 2 |q| - 52)

def roundDouble (q : ℚ) : Double :=
  let nearest := roundHalfEven (q / 2 ^ lastPlace q) * (2 : ℚ) ^ lastPlace q
  if |nearest| < 2 ^ 1024 then .finite nearest else .infinity (q < 0)

/-- std::round, halves away from zero. -/
def roundAway (q : ℚ) : Int := if 0 ≤ q then ⌊q + 1 / 2⌋ else -⌊-q + 1 / 2⌋

namespace Components

inductive SettingScope where
  | componentScope
  | instanceScope
  deriving DecidableEq

inductive SettingType where
  | boolean
  | integer
  | number
  | string
  | enumeration
  | color
  | keybinding
  | file
  | directory
  deriving DecidableEq

structure EnumOption where
  value : QString
  label : QString
  deriving DecidableEq

structure VisibilityCondition where
  key : QString
  equals : QJsonValue
  deriving DecidableEq

structure SettingDefinition where
  key : QString := []
  scope : SettingScope := .instanceScope
  type : SettingType := .boolean
  label : QString := []
  description : QString := []
  group : QString := []
  order : Int := 0
  defaultValue : QJsonValue := .undefined
  minimum : Option ℚ := none
  maximum : Option ℚ := none
  step : Option ℚ := none
  minimumLength : Option Nat := none
  maximumLength : Option Nat := none
  options : List EnumOption := []
  visibleWhen : Option VisibilityCondition := none
  deriving DecidableEq

structure SettingsSchema where
  settings : List SettingDefinition
  deriving DecidableEq

def SettingsSchema.find (schema : SettingsSchema) (key : QString) : Option SettingDefinition :=
  schema.settings.find? (·.key = key)

def maximumExactJsonInteger : ℚ := 9007199254740991

def isExactJsonInteger (q : ℚ) : Bool := q.den = 1 && |q| ≤ maximumExactJsonInteger

def colorPattern : Pattern :=
  let hex := [('0', '9'), ('A', 'F'), ('a', 'f')]
  .sequenceOf [.text "#", .charset hex 6 (some 6), .optional (.charset hex 2 (some 2))]

/-- QString::toUpper of a matched color, which is ASCII text. -/
def upperColor (s : QString) : QString := s.map fun u => if 0x61 ≤ u.toNat ∧ u.toNat ≤ 0x7a then u - 0x20 else u

def settingKeyPattern : Pattern :=
  .sequence (.charset [('a', 'z')] 1 (some 1)) (.charset [('A', 'Z'), ('a', 'z'), ('0', '9')] 0 (some 63))

def isSettingKey (key : QString) : Bool := hasMatch settingKeyPattern key

def invalidValue (path : QString) (code message : String) : ValidationResult QJsonValue :=
  ⟨none, [issue path code message]⟩

def acceptedValue (value : QJsonValue) : ValidationResult QJsonValue := ⟨some value, []⟩

def canonicalModifiers : List QString := [qstr "ctrl", qstr "alt", qstr "shift", qstr "super", qstr "hyper"]

def indexPath (path : QString) (index : Nat) : QString := path ++ qstr "[" ++ decimal index ++ qstr "]"
def childPath (path : QString) (child : QString) : QString := path ++ qstr "." ++ child

def rejectUnknownSettingFields (object : QJsonObject) (allowed : List QString) (path : QString) : Reads Unit :=
  .reportAll ((object.keys.filter (!allowed.contains ·)).map fun key =>
    ⟨childPath path key, qstr "settings-schema.unknown-field", qstr "Unknown field: " ++ key⟩)

/-- The modifiers seen so far; unknown and repeated ones are reported. -/
def checkModifiers (path : QString) : Nat → List QString → List QJsonValue → Reads (List QString)
  | _, seen, [] => pure seen
  | index, seen, value :: rest => do
    let here := indexPath (path ++ qstr ".modifiers") index
    if !value.isString then do
      addError here "settings-value.invalid-modifier" "Modifier names must be strings."
      checkModifiers path (index + 1) seen rest
    else do
      let modifier := value.toString
      (if !canonicalModifiers.contains modifier then
        addError here "settings-value.invalid-modifier" "Unknown keybinding modifier."
      else if seen.contains modifier then
        addError here "settings-value.duplicate-modifier" "A keybinding modifier may appear only once."
      else pure ())
      checkModifiers path (index + 1) (modifier :: seen) rest

variable (unicode : UnicodeTables)

def normalizeKeybinding (value : QJsonValue) (path : QString) : ValidationResult QJsonValue :=
  if value.isNull then acceptedValue .null
  else if !value.isObject then
    invalidValue path "settings-value.keybinding-required" "A keybinding object or null is required."
  else
    let object := value.toObject
    let modifiersValue := object.value (qstr "modifiers")
    let keyValue := object.value (qstr "key")
    let key := keyValue.toString
    let checks : Reads (List QString) := do
      rejectUnknownSettingFields object [qstr "modifiers", qstr "key"] path
      Checked.rejectIf (!modifiersValue.isArray || 5 < modifiersValue.toArray.length)
        (issue (path ++ qstr ".modifiers") "settings-value.invalid-modifiers"
          "modifiers must be an array of at most five names.")
      Checked.rejectIf (!keyValue.isString || key = [] || 64 < key.length || hasControl key)
        (issue (path ++ qstr ".key") "settings-value.invalid-key" "A bounded key name is required.")
      checkModifiers path 0 [] modifiersValue.toArray
    if checks.errors ≠ [] then ⟨none, checks.errors⟩
    else acceptedValue (.object (QJsonObject.ofList [
      (qstr "modifiers", .array ((canonicalModifiers.filter checks.value.contains).map .string)),
      (qstr "key", .string (unicode.normalized key))]))

/-- Whether a number misses the grid that starts at the minimum. Whole grids are compared
exactly, others in double arithmetic with a tolerance. -/
def stepMismatch (type : SettingType) (number minimum step : ℚ) : Bool :=
  if type = .integer ∧ isExactJsonInteger minimum ∧ isExactJsonInteger step ∧ 0 < step then
    (number.num - minimum.num).tmod step.num ≠ 0
  else
    match roundDouble (number - minimum) with
    | .finite distance =>
      match roundDouble (distance / step) with
      | .finite offset =>
        match roundDouble |offset - roundAway offset|, roundDouble (1 / 10 ^ 9) with
        | .finite remainder, .finite tolerance => tolerance < remainder
        | _, _ => true
      | _ => true
    | _ => true

def normalizeNumber (definition : SettingDefinition) (value : QJsonValue) (path : QString) :
    ValidationResult QJsonValue :=
  match value.finite? with
  | none =>
    invalidValue path "settings-value.invalid-number" "A finite value matching the numeric type is required."
  | some number =>
    if definition.type = .integer ∧ !isExactJsonInteger number then
      invalidValue path "settings-value.invalid-number" "A finite value matching the numeric type is required."
    else
      match definition.minimum, definition.maximum with
      | some minimum, some maximum =>
        if number < minimum ∨ maximum < number then
          invalidValue path "settings-value.number-out-of-range" "The number is outside its declared bounds."
        else if definition.step.elim false (stepMismatch definition.type number minimum) then
          invalidValue path "settings-value.step-mismatch" "The number does not align with its declared step."
        else acceptedValue (.double (.finite number))
      | _, _ => invalidValue path "settings-value.number-out-of-range" "The number is outside its declared bounds."

def normalizeText (definition : SettingDefinition) (value : QJsonValue) (path : QString) :
    ValidationResult QJsonValue :=
  let normalized := unicode.normalized value.toString
  let admitted := match definition.minimumLength, definition.maximumLength with
    | some least, some most => least ≤ normalized.length && normalized.length ≤ most
    | _, _ => false
  if !value.isString then
    invalidValue path "settings-value.string-required" "A string value is required."
  else if hasControl normalized || !admitted then
    invalidValue path "settings-value.invalid-string"
      "The string violates its declared length or character bounds."
  else acceptedValue (.string normalized)

def normalizeSettingValue (definition : SettingDefinition) (value : QJsonValue) (path : QString) :
    ValidationResult QJsonValue :=
  match definition.type with
  | .boolean =>
    if !value.isBool then invalidValue path "settings-value.boolean-required" "A boolean value is required."
    else acceptedValue value
  | .integer | .number => normalizeNumber definition value path
  | .string => normalizeText unicode definition value path
  | .enumeration =>
    let normalized := unicode.normalized value.toString
    if !value.isString then
      invalidValue path "settings-value.enum-required" "An enum option string is required."
    else if !definition.options.any (·.value = normalized) then
      invalidValue path "settings-value.unknown-enum-option" "The value is not one of the declared enum options."
    else acceptedValue (.string normalized)
  | .color =>
    if !value.isString || !hasMatch colorPattern value.toString then
      invalidValue path "settings-value.invalid-color" "A #RRGGBB or #RRGGBBAA color is required."
    else acceptedValue (.string (upperColor value.toString))
  | .keybinding => normalizeKeybinding unicode value path
  | .file | .directory =>
    if value.isNull then acceptedValue .null
    else if !value.isString || 4096 < value.toString.length || hasControl value.toString then
      invalidValue path "settings-value.invalid-portal-selection"
        "A bounded portal selection string or null is required."
    else acceptedValue (.string (unicode.normalized value.toString))

/-- One definition's value, inserted when it is admitted. -/
def normalizeDefinition (values : QJsonObject) (applyDefaults : Bool) (normalized : QJsonObject)
    (definition : SettingDefinition) : Reads QJsonObject :=
  if !values.contains definition.key && !applyDefaults then pure normalized
  else
    let value := if values.contains definition.key then values.value definition.key else definition.defaultValue
    let result := normalizeSettingValue unicode definition value (qstr "$." ++ definition.key)
    match result.value with
    | none => do
      .reportAll result.errors
      pure normalized
    | some v => pure (normalized.insert definition.key v)

def normalizeSettings (schema : SettingsSchema) (scope : SettingScope) (values : QJsonObject)
    (applyDefaults : Bool) : ValidationResult QJsonObject :=
  let checks : Reads QJsonObject := do
    .reportAll ((values.keys.filter fun key =>
      (schema.find key).elim true fun definition => definition.scope ≠ scope).map fun key =>
        issue (qstr "$." ++ key) "settings-value.unknown-or-wrong-scope"
          "The setting key is unknown or belongs to another scope.")
    (schema.settings.filter (·.scope = scope)).foldlM (normalizeDefinition unicode values applyDefaults) []
  checks.result

end Components
end HyprShelld
