import HyprShelld.Component.Persistable
import HyprShelld.Component.SettingsSchema

/-! The parser of settings schemas: definitions in their order, each with a default that its own type admits. -/
namespace HyprShelld.Components

def maximumSchemaBytes : Int := 256 * 1024
def maximumSchemaDepth : Int := 32
def maximumSettingCount : Nat := 128

section Fields
variable (unicode : UnicodeTables) (object : QJsonObject)

def hasDisallowedControl (s : QString) : Bool := (toUcs4 s).any unicode.isControlOrFormat

def requiredText (key path : QString) (maximumLength : Nat) : Reads QString :=
  let value := object.value key
  let normalized := unicode.normalized value.toString
  if !value.isString then
    ⟨[], [issue (childPath path key) "settings-schema.string-required" "A string value is required."]⟩
  else if normalized = [] || maximumLength < normalized.length || normalized ≠ trimmed normalized ||
      hasDisallowedControl unicode normalized then
    ⟨[], [issue (childPath path key) "settings-schema.invalid-string"
      "The string is empty, too long, or contains disallowed control or format characters."]⟩
  else pure normalized

def requiredFiniteNumber (key path : QString) : Reads (Option ℚ) :=
  match (object.value key).finite? with
  | some number => pure (some number)
  | none =>
    ⟨none, [issue (childPath path key) "settings-schema.finite-number-required" "A finite number is required."]⟩

def requiredInteger (key path : QString) (minimum maximum : Int) : Reads (Option Int) := do
  let number ← requiredFiniteNumber object key path
  match number with
  | none => pure none
  | some number =>
    if !isExactJsonInteger number || number < minimum || maximum < number then
      ⟨none, [issue (childPath path key) "settings-schema.integer-out-of-range" "The value must be a bounded integer."]⟩
    else pure (some number.num)

end Fields

def isValidGroup (group : QString) : Bool := group.length ≤ 64 && isKebabCase group

def settingScopeFromString (text : QString) : Option SettingScope :=
  [(qstr "component", .componentScope), (qstr "instance", .instanceScope)].lookup text

def settingTypeFromString (text : QString) : Option SettingType :=
  [(qstr "boolean", .boolean), (qstr "integer", .integer), (qstr "number", .number), (qstr "string", .string),
    (qstr "enum", .enumeration), (qstr "color", .color), (qstr "keybinding", .keybinding), (qstr "file", .file),
    (qstr "directory", .directory)].lookup text

section Definitions
variable (unicode : UnicodeTables)

/-- The enum options from an index on, after those with these values. -/
def parseEnumOption (path : QString) : Nat → List QString → List QJsonValue → Reads (List EnumOption)
  | _, _, [] => pure []
  | index, values, item :: rest => do
    let optionPath := indexPath path index
    if !item.isObject then do
      addError optionPath "settings-schema.object-required" "Each enum option must be an object."
      parseEnumOption path (index + 1) values rest
    else do
      let object := item.toObject
      rejectUnknownSettingFields object [qstr "value", qstr "label"] optionPath
      let value ← requiredText unicode object (qstr "value") optionPath 128
      let label ← requiredText unicode object (qstr "label") optionPath 128
      .rejectIf (values.contains value) (issue (optionPath ++ qstr ".value") "settings-schema.duplicate-option"
        "Enum option values must be unique.")
      let options ← parseEnumOption path (index + 1) (value :: values) rest
      return ⟨value, label⟩ :: options

def parseEnumOptions (value : QJsonValue) (path : QString) : Reads (List EnumOption) :=
  if !value.isArray || value.toArray.isEmpty || 64 < value.toArray.length then
    ⟨[], [issue path "settings-schema.invalid-options" "An enum requires one to sixty-four options."]⟩
  else parseEnumOption unicode path 0 [] value.toArray

def baseFields : List QString :=
  [qstr "key", qstr "scope", qstr "type", qstr "label", qstr "description", qstr "group", qstr "order", qstr "default",
    qstr "visibleWhen"]

/-- The bounds and the step of a numeric setting. -/
def readNumberBounds (object : QJsonObject) (path : QString) (type : SettingType) (definition : SettingDefinition) :
    Reads SettingDefinition := do
  let minimum ← requiredFiniteNumber object (qstr "minimum") path
  let maximum ← requiredFiniteNumber object (qstr "maximum") path
  .rejectIf (minimum.any fun least => maximum.any (· < least)) (issue (path ++ qstr ".maximum") "settings-schema.invalid-range"
    "maximum must be greater than or equal to minimum.")
  .rejectIf (type = .integer && (minimum.any (!isExactJsonInteger ·) || maximum.any (!isExactJsonInteger ·)))
    (issue path "settings-schema.integer-bounds-required" "Integer settings require exact JSON-safe integer bounds.")
  let step ← (if object.contains (qstr "step") then requiredFiniteNumber object (qstr "step") path else pure none)
  .rejectIf (step.any fun step => step ≤ 0 || (type = .integer && !isExactJsonInteger step))
    (issue (path ++ qstr ".step") "settings-schema.invalid-step" "step must be positive and match the numeric type.")
  return { definition with minimum, maximum, step }

/-- The length bounds of a text setting. -/
def readLengthBounds (object : QJsonObject) (path : QString) (definition : SettingDefinition) : Reads SettingDefinition := do
  let minimum ← (if object.contains (qstr "minimumLength") then requiredInteger object (qstr "minimumLength") path 0 4096
    else pure (some 0))
  let maximum ← requiredInteger object (qstr "maximumLength") path 1 4096
  .rejectIf (minimum.any fun least => maximum.any (· < least)) (issue path "settings-schema.invalid-length-range"
    "minimumLength cannot exceed maximumLength.")
  return { definition with minimumLength := minimum.map Int.toNat, maximumLength := maximum.map Int.toNat }

/-- What only settings of one type have, and its fields. -/
def readTypeFields (object : QJsonObject) (path : QString) (definition : SettingDefinition) :
    Option SettingType → Reads (SettingDefinition × List QString)
  | some .integer | some .number => do
    let definition ← readNumberBounds object path definition.type definition
    return (definition, [qstr "minimum", qstr "maximum", qstr "step"])
  | some .string => do
    let definition ← readLengthBounds object path definition
    return (definition, [qstr "minimumLength", qstr "maximumLength"])
  | some .enumeration => do
    let options ← parseEnumOptions unicode (object.value (qstr "options")) (path ++ qstr ".options")
    return ({ definition with options }, [qstr "options"])
  | some .boolean | some .color | some .keybinding | some .file | some .directory | none => pure (definition, [])

def readCondition (object : QJsonObject) (path : QString) : Reads (Option VisibilityCondition) :=
  if !object.contains (qstr "visibleWhen") then pure none
  else
    let conditionPath := path ++ qstr ".visibleWhen"
    let value := object.value (qstr "visibleWhen")
    if !value.isObject then
      ⟨none, [issue conditionPath "settings-schema.invalid-condition" "visibleWhen must be an object."]⟩
    else do
      let condition := value.toObject
      rejectUnknownSettingFields condition [qstr "key", qstr "equals"] conditionPath
      .rejectIf (!condition.contains (qstr "equals")) (issue (conditionPath ++ qstr ".equals")
        "settings-schema.condition-value-required" "visibleWhen requires an equality value.")
      let key ← requiredText unicode condition (qstr "key") conditionPath 64
      return some ⟨key, condition.value (qstr "equals")⟩

/-- The default as its own type normalizes it. -/
def normalizeDefault (path : QString) (definition : SettingDefinition) : Reads SettingDefinition := do
  let normalized := normalizeSettingValue unicode definition definition.defaultValue (path ++ qstr ".default")
  let definition ← (match normalized.value with
    | none => ⟨definition, normalized.errors⟩
    | some v => pure { definition with defaultValue := v } : Reads SettingDefinition)
  .rejectIf ((definition.type = .file || definition.type = .directory) && !definition.defaultValue.isNull)
    (issue (path ++ qstr ".default") "settings-schema.portal-default-must-be-null"
      "File and directory settings must default to null.")
  return definition

def parseDefinition (value : QJsonValue) (index : Nat) : Reads SettingDefinition :=
  let path := indexPath (qstr "$.settings") index
  if !value.isObject then
    ⟨{}, [issue path "settings-schema.object-required" "Each setting definition must be an object."]⟩
  else do
    let object := value.toObject
    let key ← requiredText unicode object (qstr "key") path 64
    .rejectIf (key ≠ [] && !isSettingKey key) (issue (path ++ qstr ".key") "settings-schema.invalid-key"
      "Setting keys must use lower camel-case ASCII.")
    let scopeText ← requiredText unicode object (qstr "scope") path 16
    let scope := settingScopeFromString scopeText
    .rejectIf scope.isNone (issue (path ++ qstr ".scope") "settings-schema.invalid-scope" "Unknown setting scope.")
    let typeText ← requiredText unicode object (qstr "type") path 16
    let type := settingTypeFromString typeText
    .rejectIf type.isNone (issue (path ++ qstr ".type") "settings-schema.invalid-type" "Unknown setting type.")
    let label ← requiredText unicode object (qstr "label") path 128
    let description ← requiredText unicode object (qstr "description") path 1024
    let group ← requiredText unicode object (qstr "group") path 64
    .rejectIf (group ≠ [] && !isValidGroup group) (issue (path ++ qstr ".group") "settings-schema.invalid-group"
      "Setting groups must use lowercase kebab-case ASCII.")
    let order ← requiredInteger object (qstr "order") path 0 100000
    .rejectIf (!object.contains (qstr "default")) (issue (path ++ qstr ".default") "settings-schema.default-required"
      "Every setting requires an explicit default.")
    let (definition, fields) ← readTypeFields unicode object path
      { key, scope := scope.getD .instanceScope, type := type.getD .boolean, label, description, group, order := order.getD 0,
        defaultValue := object.value (qstr "default") } type
    rejectUnknownSettingFields object (baseFields ++ fields) path
    let visibleWhen ← readCondition unicode object path
    let definition := { definition with visibleWhen }
    (if object.contains (qstr "default") && type.isSome then normalizeDefault unicode path definition else pure definition)

/-- A condition names an earlier setting of the same scope and a value of it. -/
def checkCondition (index : Nat) (settings : List SettingDefinition) (definition : SettingDefinition) : Reads SettingDefinition :=
  match definition.visibleWhen with
  | none => pure definition
  | some condition =>
    let path := indexPath (qstr "$.settings") index ++ qstr ".visibleWhen"
    match settings.find? (·.key = condition.key) with
    | none => ⟨definition, [issue (path ++ qstr ".key") "settings-schema.invalid-condition-reference"
        "visibleWhen must reference an earlier setting in the same scope."]⟩
    | some previous =>
      if previous.scope ≠ definition.scope then
        ⟨definition, [issue (path ++ qstr ".key") "settings-schema.invalid-condition-reference"
          "visibleWhen must reference an earlier setting in the same scope."]⟩
      else if previous.type = .keybinding ∨ previous.type = .file ∨ previous.type = .directory then
        ⟨definition, [issue (path ++ qstr ".key") "settings-schema.unsupported-condition-type"
          "This setting type cannot control visibility."]⟩
      else
        let normalized := normalizeSettingValue unicode previous condition.equals (path ++ qstr ".equals")
        match normalized.value with
        | none => ⟨definition, normalized.errors⟩
        | some v => pure { definition with visibleWhen := some { condition with equals := v } }

/-- The definitions from an index on, after these settings with these keys. -/
def parseDefinitions : Nat → List QString → List SettingDefinition → List QJsonValue → Reads (List SettingDefinition)
  | _, _, settings, [] => pure settings
  | index, keys, settings, value :: rest => do
    let definition ← parseDefinition unicode value index
    .rejectIf (keys.contains definition.key) (issue (indexPath (qstr "$.settings") index ++ qstr ".key")
      "settings-schema.duplicate-key" "Setting keys must be unique.")
    let definition ← checkCondition unicode index settings definition
    parseDefinitions (index + 1) (definition.key :: keys) (settings ++ [definition]) rest

def parseSchemaObject (object : QJsonObject) : Reads SettingsSchema := do
  rejectUnknownSettingFields object [qstr "schemaVersion", qstr "settings"] (qstr "$")
  let _ ← requiredInteger object (qstr "schemaVersion") (qstr "$") 1 1
  let settings := object.value (qstr "settings")
  if !settings.isArray || maximumSettingCount < settings.toArray.length then
    ⟨⟨[]⟩, [issue (qstr "$.settings") "settings-schema.invalid-settings-array"
      "settings must be an array of at most 128 definitions."]⟩
  else do
    let settings ← parseDefinitions unicode 0 [] [] settings.toArray
    return ⟨settings⟩

def parseSettingsSchema (number : NumberText) (bytes : QByteArray) : ValidationResult SettingsSchema :=
  let json := parseStrictJsonObject number bytes ⟨maximumSchemaBytes, maximumSchemaDepth⟩
  match json.value with
  | none => ⟨none, json.errors⟩
  | some object => (parseSchemaObject unicode object).result

end Definitions

end HyprShelld.Components
