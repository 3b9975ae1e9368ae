import HyprShelld.Component.Persistable
import HyprShelld.Component.SettingsSchema

/-! Declarative documents: one trusted text primitive, its reader and its canonical bytes. -/
namespace HyprShelld.Components

def maximumDeclarativeDocumentBytes : Int := 16 * 1024
def maximumDocumentDepth : Int := 8
def maximumDeclarativeResolvedTextLength : Nat := 128
def maximumDeclarativeTooltipLength : Nat := 256
def minimumDeclarativeMaximumWidth : Nat := 48
def maximumDeclarativeMaximumWidth : Nat := 512

inductive DeclarativeTextSourceKind where
  | literal
  | componentSetting
  deriving DecidableEq

structure DeclarativeTextSource where
  kind : DeclarativeTextSourceKind := .literal
  value : QString := []
  deriving DecidableEq

structure DeclarativeDocument where
  text : DeclarativeTextSource := {}
  tooltip : Option QString := none
  maximumWidth : Option UInt32 := none
  deriving DecidableEq

section Text
variable (unicode : UnicodeTables)

def isDisallowedCodePoint (c : Nat) : Bool :=
  unicode.isControlOrFormat c || (0xd800 ≤ c && c < 0xe000) || unicode.isUnassigned c || c = 0x2028 || c = 0x2029

def hasDisallowedCharacter (s : QString) : Bool := (toUcs4 s).any (isDisallowedCodePoint unicode)

/-- The renderer's final plain text boundary. -/
def isValidDeclarativeResolvedText (value : QString) : Bool :=
  value ≠ [] && value.length ≤ maximumDeclarativeResolvedTextLength && value = unicode.normalized value &&
    value = trimmed value && !hasDisallowedCharacter unicode value

def boundedText (value : QJsonValue) (path : QString) (maximumLength : Nat) : Reads (Option QString) :=
  let text := unicode.normalized value.toString
  if !value.isString then do
    addError path "declarative.string-required" "A string value is required."
    pure none
  else if text = [] || maximumLength < text.length || text ≠ trimmed text || hasDisallowedCharacter unicode text then do
    addError path "declarative.invalid-string"
      "The string is empty, padded, too long, or contains disallowed characters."
    pure none
  else pure (some text)

end Text

def serializeDeclarativeObject (document : DeclarativeDocument) : QJsonObject :=
  let text := match document.text.kind with
    | .literal => qstr "literal"
    | .componentSetting => qstr "setting"
  QJsonObject.ofList ([(qstr "documentVersion", .double (.finite 1)), (qstr "type", .string (qstr "text-pill")),
    (qstr "text", .object (QJsonObject.ofList [(text, .string document.text.value)]))] ++
    (document.tooltip.map fun tooltip => (qstr "tooltip", .string tooltip)).toList ++
    (document.maximumWidth.map fun width => (qstr "maximumWidth", .double (.finite width.toNat))).toList)

variable (number : NumberText)

def serializeDeclarativeDocument (document : DeclarativeDocument) : QByteArray :=
  compactJson number (.object (serializeDeclarativeObject document))

variable (unicode : UnicodeTables)

def rejectUnknownDeclarativeFields (object : QJsonObject) (allowed : List QString) (path : QString) : Reads Unit :=
  .reportAll ((object.keys.filter (!allowed.contains ·)).map fun key =>
    issue (childPath path key) "declarative.unknown-field" "The declarative document contains an unknown field.")

/-- The setting a text source names must be a component text that is always valid. -/
def checkBoundSetting (settingsSchema : Option SettingsSchema) (setting path : QString) : Reads Unit :=
  if !isSettingKey setting then
    addError path "declarative.invalid-setting-key" "The component setting key is malformed."
  else
    match settingsSchema.bind (·.find setting) with
    | none => addError path "declarative.unknown-setting" "The text source does not resolve to a declared setting."
    | some definition =>
      if definition.scope ≠ .componentScope ∨ (definition.type ≠ .string ∧ definition.type ≠ .enumeration) then
        addError path "declarative.unsupported-setting"
          "Text may bind only to a component-scoped string or enumeration setting."
      else if definition.type = .string ∧
          (definition.minimumLength.elim true (· < 1) ∨
            definition.maximumLength.elim true (maximumDeclarativeResolvedTextLength < ·)) then
        addError path "declarative.invalid-setting-text-bounds"
          "A bound string setting must require one through 128 characters."
      else if !definition.defaultValue.isString ||
          !isValidDeclarativeResolvedText unicode definition.defaultValue.toString then
        addError path "declarative.invalid-setting-default"
          "The bound setting default must be valid normalized renderer text."
      else if definition.type = .enumeration ∧
          definition.options.any (!isValidDeclarativeResolvedText unicode ·.value) then
        addError path "declarative.invalid-setting-options"
          "Every bound enumeration value must be valid normalized renderer text."
      else pure ()

def parseTextSource (textValue : QJsonValue) (settingsSchema : Option SettingsSchema) :
    Reads DeclarativeTextSource :=
  if !textValue.isObject then do
    addError (qstr "$.text") "declarative.text-object-required"
      "text must be a literal or component-setting source object."
    pure {}
  else do
    let text := textValue.toObject
    let hasLiteral := text.contains (qstr "literal")
    let hasSetting := text.contains (qstr "setting")
    rejectUnknownDeclarativeFields text [qstr "literal", qstr "setting"] (qstr "$.text")
    if hasLiteral = hasSetting then do
      addError (qstr "$.text") "declarative.exactly-one-text-source"
        "text must contain exactly one of literal or setting."
      pure {}
    else if hasLiteral then do
      let literal ← boundedText unicode (text.value (qstr "literal")) (qstr "$.text.literal")
        maximumDeclarativeResolvedTextLength
      pure (literal.elim {} fun value => ⟨.literal, value⟩)
    else do
      let setting ← boundedText unicode (text.value (qstr "setting")) (qstr "$.text.setting") 64
      match setting with
      | none => pure {}
      | some setting => do
        checkBoundSetting unicode settingsSchema setting (qstr "$.text.setting")
        pure ⟨.componentSetting, setting⟩

def parseMaximumWidth (root : QJsonObject) : Reads (Option UInt32) :=
  if !root.contains (qstr "maximumWidth") then pure none
  else
    match (root.value (qstr "maximumWidth")).finite? with
    | some width =>
      if width.den = 1 ∧ minimumDeclarativeMaximumWidth ≤ width.num ∧ width.num ≤ maximumDeclarativeMaximumWidth then
        pure (some (UInt32.ofNat width.num.toNat))
      else do
        addError (qstr "$.maximumWidth") "declarative.invalid-maximum-width"
          "maximumWidth must be an integer from 48 through 512."
        pure none
    | none => do
      addError (qstr "$.maximumWidth") "declarative.invalid-maximum-width"
        "maximumWidth must be an integer from 48 through 512."
      pure none

def parseDeclarativeRoot (root : QJsonObject) (settingsSchema : Option SettingsSchema) :
    Reads DeclarativeDocument := do
  rejectUnknownDeclarativeFields root
    [qstr "documentVersion", qstr "type", qstr "text", qstr "tooltip", qstr "maximumWidth"] (qstr "$")
  let type := root.value (qstr "type")
  Checked.rejectIf (root.value (qstr "documentVersion") ≠ .double (.finite 1))
    (issue (qstr "$.documentVersion") "declarative.unsupported-version" "documentVersion must be exactly 1.")
  Checked.rejectIf (!type.isString || type.toString ≠ qstr "text-pill")
    (issue (qstr "$.type") "declarative.unsupported-type" "Version one supports only the text-pill primitive.")
  let text ← parseTextSource unicode (root.value (qstr "text")) settingsSchema
  let tooltip ← (if root.contains (qstr "tooltip") then
      boundedText unicode (root.value (qstr "tooltip")) (qstr "$.tooltip") maximumDeclarativeTooltipLength
    else pure none)
  let maximumWidth ← parseMaximumWidth root
  pure { text, tooltip, maximumWidth }

def parseDeclarativeDocument (bytes : QByteArray) (settingsSchema : Option SettingsSchema) :
    ValidationResult DeclarativeDocument :=
  let parsed := parseStrictJsonObject number bytes ⟨maximumDeclarativeDocumentBytes, maximumDocumentDepth⟩
  match parsed.value with
  | none => ⟨none, parsed.errors⟩
  | some root => (parseDeclarativeRoot unicode root settingsSchema).result

end HyprShelld.Components
