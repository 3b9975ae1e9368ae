import HyprShelld.Hyprland.ActionCatalog
import HyprShelld.Support.OrderedMap

/-! The contract compiler: from the definitions of a config schema to payload contracts. -/
namespace HyprShelld.Hyprland
open Json

def maximumSchemaNodes : Nat := 2048
def maximumSchemaProperties : Nat := 256

/-- What one compiler carries from reference to reference. -/
structure CompilerState where
  cache : QMap ValueContract := []
  active : List QString := []
  nodeCount : Nat := 0

abbrev Compiler (α : Type) := StateT CompilerState (Checked ValidationError) α

variable (p : Platform) (validExpression : QString → Bool)

def isInteger (v : QJsonValue) : Bool := v.finite?.any (·.den = 1)

def schemaSize (schema : QJsonObject) (key : String) (path : QString) : Reads (Option Nat) :=
  match schema.lookup (qstr key) with
  | none => pure none
  | some value =>
    match value.finite?.filter fun q : ℚ => q.den = 1 && 0 ≤ q && q ≤ maximumSchemaProperties * 16 with
    | some q => pure (some q.num.toNat)
    | none => do
      addError (childPath path (qstr key)) "action-schema.invalid-bound"
        "A supported non-negative schema bound is required."
      return none

def schemaNumber (schema : QJsonObject) (key : String) (path : QString) : Reads (Option ℚ) :=
  match schema.lookup (qstr key) with
  | none => pure none
  | some value =>
    match value.finite? with
    | some q => pure (some q)
    | none => do
      addError (childPath path (qstr key)) "action-schema.invalid-bound" "A finite schema bound is required."
      return none

def isHexDigit (u : UInt16) : Bool := (hexValue u).isSome

/-- A unit of a pattern; controls become hexadecimal escapes. -/
def patternUnit (u : UInt16) : QString :=
  if u.toNat < 0x20 ∨ u = 0x7f then
    qstr "\\x\x7b00" ++ [lowerHex (u.toNat / 0x10), lowerHex (u.toNat % 0x10)] ++ qstr "\x7d"
  else [u]

/-- Four-digit escapes of ECMA-262 are rewritten for PCRE. -/
def qtCompatiblePattern : QString → QString
  | [] => []
  | u :: v :: a :: b :: c :: d :: rest =>
    if u = unit '\\' ∧ v = unit 'u' ∧ [a, b, c, d].all isHexDigit then
      qstr "\\x\x7b" ++ [a, b, c, d] ++ qstr "\x7d" ++ qtCompatiblePattern rest
    else patternUnit u ++ qtCompatiblePattern (v :: a :: b :: c :: d :: rest)
  | u :: rest => patternUnit u ++ qtCompatiblePattern rest

def contractType (type : QString) : Option ContractValueType :=
  if type = qstr "object" then some .object
  else if type = qstr "array" then some .array
  else if type = qstr "string" then some .string
  else if type = qstr "number" then some .number
  else if type = qstr "integer" then some .integer
  else if type = qstr "boolean" then some .boolean
  else if type = qstr "null" then some .null
  else none

def contractTypeForValue : QJsonValue → Option ContractValueType
  | .object _ => some .object
  | .array _ => some .array
  | .string _ => some .string
  | .bool _ => some .boolean
  | .null => some .null
  | .double d => some (if isInteger (.double d) then .integer else .number)
  | .undefined => none

def supportedKeywords : List QString :=
  [qstr "$ref", qstr "type", qstr "oneOf", qstr "anyOf", qstr "properties", qstr "required",
    qstr "additionalProperties", qstr "items", qstr "minItems", qstr "maxItems", qstr "uniqueItems",
    qstr "minProperties", qstr "maxProperties", qstr "minLength", qstr "maxLength", qstr "pattern",
    qstr "minimum", qstr "maximum", qstr "exclusiveMinimum", qstr "exclusiveMaximum", qstr "enum",
    qstr "const", qstr "$comment"]

/-- Unsupported keywords and the annotation, which is bounded. -/
def checkKeywords (schema : QJsonObject) (path : QString) : Reads Unit := do
  .forEach (fun _ key => .rejectIf (!supportedKeywords.contains key)
    ⟨childPath path key, qstr "action-schema.unsupported-keyword", qstr "Unsupported field: " ++ key⟩)
    0 schema.keys
  .rejectIf ((schema.lookup (qstr "$comment")).any fun comment =>
      !comment.isString || comment.toString.length > 1024 || comment.toString.contains 0)
    (issue (path ++ qstr ".$comment") "action-schema.invalid-comment"
      "Schema comments must be bounded NUL-free strings.")

def checkAlternatives (schema : QJsonObject) (path : QString) : Reads Unit := do
  let hasOneOf := schema.contains (qstr "oneOf")
  let hasAnyOf := schema.contains (qstr "anyOf")
  .rejectIf (hasOneOf && hasAnyOf)
    (issue path "action-schema.invalid-alternatives" "A schema node cannot combine oneOf and anyOf.")
  .rejectIf ((hasOneOf || hasAnyOf) &&
      schema.keys.any fun key => key ∉ [qstr "oneOf", qstr "anyOf", qstr "$comment"])
    (issue path "action-schema.alternative-siblings"
      "Alternative nodes cannot contain sibling constraints in the supported schema subset.")

def appendType (types : List ContractValueType) (item : QJsonValue) (path : QString) :
    Reads (List ContractValueType) :=
  match item with
  | .string name =>
    match contractType name with
    | none => do
      addError path "action-schema.unsupported-type" "The schema value type is unsupported."
      return types
    | some type =>
      if types.contains type then do
        addError path "action-schema.duplicate-type" "Schema types must be unique."
        return types
      else pure (types ++ [type])
  | _ => do
    addError path "action-schema.invalid-type" "Schema types must be strings."
    return types

def appendTypes (path : QString) : Nat → List QJsonValue → List ContractValueType → Reads (List ContractValueType)
  | _, [], types => pure types
  | index, item :: rest, types => do
    let types ← appendType types item (elementPath path index)
    appendTypes path (index + 1) rest types

def compileTypes (schema : QJsonObject) (path : QString) : Reads (List ContractValueType) :=
  let invalid : Reads (List ContractValueType) := do
    addError (path ++ qstr ".type") "action-schema.invalid-type"
      "A type string or bounded type array is required."
    return []
  match schema.lookup (qstr "type") with
  | none => pure []
  | some (.string name) => appendType [] (.string name) (path ++ qstr ".type")
  | some (.array items) =>
    if items ≠ [] ∧ items.length ≤ 8 then appendTypes (path ++ qstr ".type") 0 items [] else invalid
  | some _ => invalid

section Children
variable (node : QJsonObject → QString → Compiler (Option ValueContract))

def compileBranches (path : QString) : Nat → List QJsonValue → Compiler (List ValueContract)
  | _, [] => pure []
  | index, branch :: rest => do
    let item ← match branch with
      | .object schema => node schema (elementPath path index)
      | _ => do
        addError (elementPath path index) "action-schema.object-required" "An alternative schema object is required."
        pure none
    let others ← compileBranches path (index + 1) rest
    return item.toList ++ others

def compileAlternatives (schema : QJsonObject) (key : String) (path : QString) : Compiler (List ValueContract) :=
  match schema.lookup (qstr key) with
  | none => pure []
  | some value =>
    if !value.isArray ∨ value.toArray = [] ∨ value.toArray.length > 16 then do
      addError (childPath path (qstr key)) "action-schema.invalid-alternatives"
        "A bounded non-empty alternative array is required."
      return []
    else compileBranches node (childPath path (qstr key)) 0 value.toArray

def compileMembers (path : QString) : QJsonObject → Compiler (List (QString × ValueContract))
  | [] => pure []
  | (key, value) :: rest => do
    let property ← if key = [] ∨ key.length > 128 ∨ !value.isObject then do
        addError (childPath path key) "action-schema.invalid-property" "A bounded property schema is required."
        pure none
      else node value.toObject (childPath path key)
    let others ← compileMembers path rest
    return (property.map fun contract => (key, contract)).toList ++ others

def compileProperties (schema : QJsonObject) (path : QString) : Compiler (List (QString × ValueContract)) :=
  match schema.lookup (qstr "properties") with
  | none => pure []
  | some value =>
    if !value.isObject ∨ value.toObject.length > maximumSchemaProperties then do
      addError (path ++ qstr ".properties") "action-schema.property-limit" "A bounded properties object is required."
      return []
    else compileMembers node (path ++ qstr ".properties") value.toObject

def compileItems (schema : QJsonObject) (path : QString) : Compiler (Option ValueContract) :=
  match schema.lookup (qstr "items") with
  | none => pure none
  | some (.object items) => node items (path ++ qstr ".items")
  | some _ => do
    addError (path ++ qstr ".items") "action-schema.object-required" "An item schema object is required."
    return none

end Children

def appendRequired (properties : List (QString × ValueContract)) (path : QString) :
    Nat → List QJsonValue → List QString → Reads (List QString)
  | _, [], names => pure names
  | index, value :: rest, names =>
    if !value.isString ∨ (properties.lookup value.toString).isNone ∨ names.contains value.toString then do
      addError (elementPath path index) "action-schema.invalid-required"
        "Required properties must be declared and unique."
      appendRequired properties path (index + 1) rest names
    else appendRequired properties path (index + 1) rest (names ++ [value.toString])

def compileRequired (schema : QJsonObject) (properties : List (QString × ValueContract)) (path : QString) :
    Reads (List QString) :=
  match schema.lookup (qstr "required") with
  | none => pure []
  | some value =>
    if !value.isArray ∨ value.toArray.length > maximumSchemaProperties then do
      addError (path ++ qstr ".required") "action-schema.invalid-required"
        "A bounded required-property array is required."
      return []
    else appendRequired properties (path ++ qstr ".required") 0 value.toArray []

def compileAdditional (schema : QJsonObject) (acceptedTypes : List ContractValueType) (path : QString) :
    Reads Bool :=
  match schema.lookup (qstr "additionalProperties") with
  | some additional => do
    .rejectIf (!additional.isBool || additional.toBool)
      (issue (path ++ qstr ".additionalProperties") "action-schema.open-object"
        "Action payload objects must reject additional properties.")
    return !additional.isBool || additional.toBool
  | none => do
    .rejectIf (acceptedTypes.contains .object)
      (issue path "action-schema.open-object"
        "Action payload object schemas must explicitly close additional properties.")
    return true

def compileUnique (schema : QJsonObject) (path : QString) : Reads Bool :=
  match schema.lookup (qstr "uniqueItems") with
  | none => pure false
  | some value => do
    .rejectIf (!value.isBool)
      (issue (path ++ qstr ".uniqueItems") "action-schema.boolean-required" "uniqueItems must be boolean.")
    return value.toBool

def compilePattern (schema : QJsonObject) (path : QString) : Reads (Option QString) :=
  match schema.lookup (qstr "pattern") with
  | none => pure none
  | some value =>
    let pattern := qtCompatiblePattern value.toString
    if !value.isString ∨ value.toString.length > 2048 ∨ !validExpression pattern then do
      addError (path ++ qstr ".pattern") "action-schema.invalid-pattern"
        "A bounded valid regular expression is required."
      return none
    else pure (some pattern)

def compileEnum (schema : QJsonObject) (path : QString) : Reads (List QJsonValue) :=
  match schema.lookup (qstr "enum") with
  | none => pure []
  | some value =>
    if !value.isArray ∨ value.toArray = [] ∨ value.toArray.length > 256 then do
      addError (path ++ qstr ".enum") "action-schema.invalid-enum" "A bounded non-empty enum is required."
      return []
    else do
      .rejectRepeated (fun _ => issue (path ++ qstr ".enum") "action-schema.duplicate-enum"
        "Enum values must be unique.") 0 [] (value.toArray.map fun item => some (canonicalJson p item))
      return value.toArray

/-- The keywords that hold plain values. -/
def compileBounds (schema : QJsonObject) (path : QString) (contract : ValueContract) : Reads ValueContract := do
  let minimumItems ← schemaSize schema "minItems" path
  let maximumItems ← schemaSize schema "maxItems" path
  let minimumProperties ← schemaSize schema "minProperties" path
  let maximumProperties ← schemaSize schema "maxProperties" path
  let minimumLength ← schemaSize schema "minLength" path
  let maximumLength ← schemaSize schema "maxLength" path
  let uniqueItems ← compileUnique schema path
  let minimum ← schemaNumber schema "minimum" path
  let maximum ← schemaNumber schema "maximum" path
  let exclusiveMinimum ← schemaNumber schema "exclusiveMinimum" path
  let exclusiveMaximum ← schemaNumber schema "exclusiveMaximum" path
  let pattern ← compilePattern validExpression schema path
  let allowedValues ← compileEnum p schema path
  return { contract with
    minimumItems, maximumItems, minimumProperties, maximumProperties, minimumLength, maximumLength, uniqueItems,
    minimum, maximum, exclusiveMinimum, exclusiveMaximum, pattern, allowedValues,
    constantValue := schema.lookup (qstr "const") }

def appendInferredType (types : List ContractValueType) (value : QJsonValue) : List ContractValueType :=
  match contractTypeForValue value with
  | some type => if types.contains type then types else types ++ [type]
  | none => types

/-- A node without a type takes the types of the values it lists; no other node may stay untyped. -/
def inferTypes (schema : QJsonObject) (path : QString) (contract : ValueContract) : Reads ValueContract :=
  if contract.acceptedTypes = [] ∧ !schema.contains (qstr "oneOf") ∧ !schema.contains (qstr "anyOf") then do
    let inferred := (contract.allowedValues ++ contract.constantValue.toList).foldl appendInferredType []
    .rejectIf inferred.isEmpty
      (issue path "action-schema.unconstrained-node"
        "Every action schema node must declare a type, reference, alternative, enum, or const constraint.")
    return { contract with acceptedTypes := inferred }
  else pure contract

/-- Values that are not listed one by one have to be bounded. -/
def checkBounded (contract : ValueContract) (path : QString) : Reads Unit := do
  let accepts (type : ContractValueType) := contract.acceptedTypes.contains type
  let «open» := !(contract.constantValue.isSome || !contract.allowedValues.isEmpty)
  .rejectIf («open» && accepts .array && contract.items.isNone)
    (issue (path ++ qstr ".items") "action-schema.unbounded-array" "Action arrays must declare an item contract.")
  .rejectIf («open» && accepts .array && contract.maximumItems.isNone)
    (issue (path ++ qstr ".maxItems") "action-schema.unbounded-array"
      "Action arrays must declare a finite maximum item count.")
  .rejectIf («open» && accepts .string && contract.maximumLength.isNone)
    (issue (path ++ qstr ".maxLength") "action-schema.unbounded-string"
      "Action strings must declare a finite maximum length.")
  .rejectIf («open» && (accepts .number || accepts .integer) &&
      ((contract.minimum.isNone && contract.exclusiveMinimum.isNone) ||
        (contract.maximum.isNone && contract.exclusiveMaximum.isNone)))
    (issue path "action-schema.unbounded-number" "Action numbers must declare finite lower and upper bounds.")

def exceeds {α : Type} [LT α] [DecidableLT α] (lower upper : Option α) : Bool :=
  lower.any fun l => upper.any fun u => u < l

def checkBounds (contract : ValueContract) (path : QString) : Reads Unit := do
  .rejectIf (exceeds contract.minimumItems contract.maximumItems)
    (issue path "action-schema.invalid-bound" "minItems cannot exceed maxItems.")
  .rejectIf (exceeds contract.minimumProperties contract.maximumProperties)
    (issue path "action-schema.invalid-bound" "minProperties cannot exceed maxProperties.")
  .rejectIf (exceeds contract.minimumLength contract.maximumLength)
    (issue path "action-schema.invalid-bound" "minLength cannot exceed maxLength.")
  .rejectIf (exceeds (contract.minimum.or contract.exclusiveMinimum) (contract.maximum.or contract.exclusiveMaximum))
    (issue path "action-schema.invalid-bound" "The numeric lower bound cannot exceed the upper bound.")

/-- A node that is no reference. -/
def compileKeywords (node : QJsonObject → QString → Compiler (Option ValueContract)) (schema : QJsonObject)
    (path : QString) : Compiler ValueContract := do
  checkAlternatives schema path
  let acceptedTypes ← compileTypes schema path
  let oneOf ← compileAlternatives node schema "oneOf" path
  let anyOf ← compileAlternatives node schema "anyOf" path
  let properties ← compileProperties node schema path
  let requiredProperties ← compileRequired schema properties path
  let additionalProperties ← compileAdditional schema acceptedTypes path
  let items ← compileItems node schema path
  let contract ← compileBounds p validExpression schema path
    { acceptedTypes, oneOf, anyOf, properties, requiredProperties, additionalProperties, items }
  let contract ← inferTypes schema path contract
  checkBounded contract path
  checkBounds contract path
  return contract

section Definitions
variable (definitions : QJsonObject)

/-- A definition is compiled once. Its node is none where the depth limit is reached. -/
def compileNamedDefinition (node : Option (QJsonObject → QString → Compiler (Option ValueContract)))
    (name path : QString) : Compiler (Option ValueContract) := do
  let state ← get
  match state.cache.lookup name, node with
  | some cached, _ => return some cached
  | none, none => do
    addError path "action-schema.reference-cycle" "The schema reference graph is cyclic or too deep."
    return none
  | none, some node =>
    if state.active.contains name then do
      addError path "action-schema.reference-cycle" "The schema reference graph is cyclic or too deep."
      return none
    else
      match definitions.lookup name with
      | some (.object schema) => do
        modify fun state => { state with active := name :: state.active }
        let compiled ← node schema (qstr "$.$defs." ++ name)
        modify fun state => { state with
          active := state.active.erase name
          cache := compiled.elim state.cache fun contract => state.cache.insert name contract }
        return compiled
      | _ => do
        addError path "action-schema.missing-reference" "The referenced config schema definition is absent."
        return none

def localPrefix : QString := qstr "#/$defs/"

def tooDeep (_ : QJsonObject) (path : QString) : Compiler (Option ValueContract) := do
  addError path "action-schema.reference-cycle" "The schema reference graph is cyclic or too deep."
  return none

/-- A node within the depth limit, with the compiler of the nodes below it and that of the
definition it may refer to. -/
def compileSchema (node : QJsonObject → QString → Compiler (Option ValueContract))
    (definition : Option (QJsonObject → QString → Compiler (Option ValueContract)))
    (schema : QJsonObject) (path : QString) : Compiler (Option ValueContract) := do
  modify fun state => { state with nodeCount := state.nodeCount + 1 }
  if maximumSchemaNodes < (← get).nodeCount then
    addError path "action-schema.complexity-limit" "The supported schema complexity limit was exceeded."
    return none
  checkKeywords schema path
  match schema.lookup (qstr "$ref") with
  | none => some <$> compileKeywords p validExpression node schema path
  | some value =>
    if !(schema.length = 1 ∨ schema.length = 2 ∧ schema.contains (qstr "$comment")) ∨ !value.isString then do
      addError path "action-schema.invalid-reference"
        "A $ref may only be accompanied by the bounded $comment annotation."
      return none
    else if !startsWith value.toString localPrefix then do
      addError path "action-schema.remote-reference" "Only local #/$defs references are supported."
      return none
    else
      compileNamedDefinition definitions definition (value.toString.drop localPrefix.length) (path ++ qstr ".$ref")

/-- The levels still allowed count down from the reference depth limit. The nodes below a node are
one level deeper, the node of a definition it refers to is two. -/
def compileNode : Nat → QJsonObject → QString → Compiler (Option ValueContract)
  | 0 => tooDeep
  | 1 => compileSchema p validExpression definitions tooDeep none
  | room + 2 =>
    compileSchema p validExpression definitions (compileNode (room + 1)) (some (compileNode room))

def referencePrefix : QString := qstr "config.schema.json#/$defs/"

def compileReference (externalReference path : QString) : Compiler (Option ValueContract) :=
  if !startsWith externalReference referencePrefix then do
    addError path "action-schema.remote-reference" "Only local config.schema.json definitions are accepted."
    return none
  else
    compileNamedDefinition definitions
      (some (compileNode p validExpression definitions maximumSchemaReferenceDepth))
      (externalReference.drop referencePrefix.length) path

/-- The references of a catalog, compiled one after another at their paths. -/
def compileReferences : List (QString × QString) → Compiler (List (Option ValueContract))
  | [] => pure []
  | (reference, path) :: rest => do
    let contract ← compileReference p validExpression definitions reference path
    let others ← compileReferences rest
    return contract :: others

end Definitions
end HyprShelld.Hyprland
