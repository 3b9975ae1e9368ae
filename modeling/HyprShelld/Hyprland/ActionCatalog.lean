import HyprShelld.Hyprland.Catalog

/-! The action catalog: definitions with their payload contracts, and payload validation. -/
namespace HyprShelld.Hyprland

def currentActionCatalogContractVersion : Nat := 1
def reviewedActionCatalogDigest : QString :=
  qstr "1438f04a169b4ecfc945078403d6286154bc89a0e32cb3a1a5073d209e0c358b"
def maximumSchemaReferenceDepth : Nat := 32

inductive ActionKind where
  | dispatcher | defaultApp | hyprShelld | gesture
  deriving DecidableEq

inductive ContractValueType where
  | any | object | array | string | number | integer | boolean | null
  deriving DecidableEq

structure ValueContract where
  acceptedTypes : List ContractValueType := []
  oneOf : List ValueContract := []
  anyOf : List ValueContract := []
  properties : List (QString × ValueContract) := []
  requiredProperties : List QString := []
  additionalProperties : Bool := true
  items : Option ValueContract := none
  minimumItems : Option Nat := none
  maximumItems : Option Nat := none
  uniqueItems : Bool := false
  minimumProperties : Option Nat := none
  maximumProperties : Option Nat := none
  minimumLength : Option Nat := none
  maximumLength : Option Nat := none
  minimum : Option ℚ := none
  maximum : Option ℚ := none
  exclusiveMinimum : Option ℚ := none
  exclusiveMaximum : Option ℚ := none
  pattern : Option QString := none
  allowedValues : List QJsonValue := []
  constantValue : Option QJsonValue := none

inductive InvocationKind where
  | none | table | scalar | emptyObjectNoneOtherwiseTable | broker | gestureTable
  deriving DecidableEq

structure InvocationParameter where
  argument : QString
  field : QString

structure ActionInvocation where
  kind : InvocationKind := .none
  scalarField : QString := []
  actionField : QString := []
  parameters : List InvocationParameter := []

structure ActionDefinition where
  id : QString
  kind : ActionKind := .dispatcher
  luaPath : List QString := []
  invocation : ActionInvocation := {}
  payloadContract : Option ValueContract

structure ActionCatalog where
  contractVersion : Nat := currentActionCatalogContractVersion
  reviewedVersion : SemanticVersion := {}
  reviewedTag : QString := []
  reviewedCommit : QString := []
  minimumPatch : Nat := 0
  maximumPatch : Option Nat := none
  sourceManifestDigest : QString := []
  dispatcherActions : List ActionDefinition := []
  semanticActions : List ActionDefinition := []
  gestureActions : List ActionDefinition := []
  digest : QString := []
  configSchemaDigest : QString := []

variable (p : Platform)

def valueTypeMatches (v : QJsonValue) : ContractValueType → Bool
  | .any => true
  | .object => v.isObject
  | .array => v.isArray
  | .string => v.isString
  | .number => v.finite?.isSome
  -- unlike elsewhere, any integral double counts
  | .integer => v.finite?.any (·.den = 1)
  | .boolean => v.isBool
  | .null => v.isNull

/-- The code of a type mismatch, by the first accepted type of this list. -/
def typeMismatchCode (accepted : List ContractValueType) : String :=
  if accepted.contains .number then "state.number-required"
  else if accepted.contains .integer then "state.integer-required"
  else if accepted.contains .string then "state.string-required"
  else if accepted.contains .object then "state.object-required"
  else if accepted.contains .array then "state.array-required"
  else if accepted.contains .boolean then "state.boolean-required"
  else "state.value-type"

/-- The first of the shortest non-empty error lists. -/
def closestErrors : List ValidationErrors → ValidationErrors → ValidationErrors
  | [], closest => closest
  | candidate :: rest, closest =>
    if candidate ≠ [] ∧ (closest = [] ∨ candidate.length < closest.length) then closestErrors rest candidate
    else closestErrors rest closest

def outside {α : Type} (least most : Option α) (tooSmall tooLarge : α → Bool) : Bool :=
  least.any tooSmall || most.any tooLarge

/-- The checks on a value of an accepted type that do not descend into it. -/
def validateShape (contract : ValueContract) (v : QJsonValue) (path : QString) : Reads Unit := do
  let encoded := canonicalJson p v
  .rejectIf (contract.constantValue.any fun constant => encoded ≠ canonicalJson p constant)
    (issue path "state.constant-mismatch" "The action discriminator has the wrong constant value.")
  .rejectIf (!contract.allowedValues.isEmpty &&
      !contract.allowedValues.any fun allowed => canonicalJson p allowed = encoded)
    (issue path "state.enum-mismatch" "The value is not in the action-contract enum.")
  .rejectIf (v.isDouble &&
      (outside contract.minimum contract.maximum v.lessThan v.greaterThan ||
        outside contract.exclusiveMinimum contract.exclusiveMaximum
          (fun bound => v.lessThan bound || v.toDouble = .finite bound)
          (fun bound => v.greaterThan bound || v.toDouble = .finite bound)))
    (issue path "state.value-out-of-range" "The numeric action value is outside its contract range.")
  .rejectIf (v.isString &&
      (outside contract.minimumLength contract.maximumLength (v.toString.length < ·) (· < v.toString.length) ||
        contract.pattern.any fun pattern => !p.matchesPattern pattern v.toString))
    (issue path "state.invalid-string" "The string violates its action contract.")
  .rejectIf (v.isObject && outside contract.minimumProperties contract.maximumProperties
      (v.toObject.length < ·) (· < v.toObject.length))
    (issue path "state.collection-limit" "The action object has the wrong field count.")
  .forEach (fun _ field => .rejectIf (v.isObject && !QJsonObject.contains v.toObject field)
      (issue (path ++ unit '.' :: field) "state.required-field" "The action argument is required."))
    0 contract.requiredProperties

/-- Array items that were seen before, reported at their index after the item's own errors. -/
def validateItems (item : QString → QJsonValue → Reads Unit) (unique : Bool) (path : QString) :
    Nat → List QByteArray → List QJsonValue → Reads Unit
  | _, _, [] => pure ()
  | index, seen, v :: rest => do
    let itemPath := Json.elementPath path index
    let encoded := canonicalJson p v
    item itemPath v
    .rejectIf (unique && seen.contains encoded)
      (issue itemPath "state.duplicate-item" "Action array items must be unique.")
    validateItems item unique path (index + 1) (encoded :: seen) rest

/-- The depth still allowed counts down from the reference depth limit. -/
def validateContract : Nat → ValueContract → QJsonValue → QString → Reads Unit
  | 0, _, _, path => addError path "state.schema-depth" "The action payload is too deeply nested."
  | depth + 1, contract, v, path =>
    if !contract.oneOf.isEmpty then
      let candidates := contract.oneOf.map fun alternative => (validateContract depth alternative v path).errors
      let successes := candidates.countP (· = [])
      if successes = 1 then pure ()
      else do
        .reportAll (if successes = 0 then closestErrors candidates [] else [])
        addError path "state.schema-one-of" "The payload must match exactly one supported action shape."
    else if !contract.anyOf.isEmpty then
      let candidates := contract.anyOf.map fun alternative => (validateContract depth alternative v path).errors
      if candidates.any (· = []) then pure ()
      else do
        .reportAll (closestErrors candidates [])
        addError path "state.schema-any-of" "The payload does not match a supported action value."
    else if !contract.acceptedTypes.any (valueTypeMatches v) then
      addError path (typeMismatchCode contract.acceptedTypes)
        "The value does not have the required action-contract type."
    else do
      validateShape p contract v path
      .forEach (fun _ member =>
          match contract.properties.lookup member.1 with
          | some property => validateContract depth property member.2 (path ++ unit '.' :: member.1)
          | none => .rejectIf (!contract.additionalProperties)
              (issue (path ++ unit '.' :: member.1) "state.unknown-field"
                "The action contract does not accept this field."))
        0 v.toObject
      .rejectIf (v.isArray && outside contract.minimumItems contract.maximumItems
          (v.toArray.length < ·) (· < v.toArray.length))
        (issue path "state.collection-limit" "The action array violates its item bound.")
      validateItems p (fun itemPath item => match contract.items with
          | some items => validateContract depth items item itemPath
          | none => pure ())
        contract.uniqueItems path 0 [] v.toArray

def actionCatalogDigest (catalog : ActionCatalog) : QString := catalog.digest

def findAction (catalog : ActionCatalog) (kind : ActionKind) (id : QString) : Option ActionDefinition :=
  let actions := match kind with
    | .dispatcher => catalog.dispatcherActions
    | .gesture => catalog.gestureActions
    | .defaultApp | .hyprShelld => catalog.semanticActions
  actions.find? fun action => action.id = id && action.kind = kind

def validateActionPayload (action : ActionDefinition) (payload : QJsonValue) (path : QString) : Reads Unit :=
  match action.payloadContract with
  | none => addError path "state.missing-action-contract" "The action has no compiled payload contract."
  | some contract => validateContract p (maximumSchemaReferenceDepth + 1) contract payload path

end HyprShelld.Hyprland
