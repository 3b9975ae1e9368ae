import HyprShelld.Desired.Revision
import HyprShelld.Desired.Safety
import HyprShelld.Hyprland.CatalogOptions

/-! The editor of option values in a client: which overrides a set of requested values leaves in a snapshot. -/
namespace HyprShelld.Client
open Hyprland

/-- A variant as the editor reads it: what it holds as a JSON value, and whether that is a QString. -/
structure QVariant where
  valid : Bool := true
  isString : Bool
  json : QJsonValue
  stored : json ≠ .undefined → Components.Stored json

structure SnapshotEdit where
  candidate : QByteArray
  changed : Bool
  deriving DecidableEq

section Editor
variable (p : Platform)

def hasOptionShape (option : OptionDefinition) (variant : QVariant) : Bool :=
  let value := variant.json
  match option.type with
  | .boolean => value.isBool
  | .integer | .fontWeight => isIntegral value
  | .number => value.finite?.isSome
  | .string | .color => variant.isString && value.isString
  | .enumeration =>
    if option.defaultValue.isString then variant.isString && value.isString
    else option.defaultValue.isDouble && isIntegral value
  | .vector2 => value.isArray && value.toArray.length = 2 && value.toArray.all (·.finite?.isSome)
  | .cssGap => value.isArray && value.toArray.length = 4 && value.toArray.all isIntegral
  | .gradient => value.isObject

/-- The JSON value of a variant that is exactly of the type of an option. -/
def hasStrictOptionValue (option : OptionDefinition) (variant : QVariant) : Option QJsonValue :=
  if variant.valid && variant.json ≠ .undefined && variant.json ≠ .null && hasOptionShape option variant &&
      (validateOptionValue p option variant.json (qstr "$")).errors = [] then some variant.json
  else none

/-- The value of an option, its default taken from other options where it is inherited. -/
def resolvedOptionValue (catalog : Catalog) (overrides : QJsonObject) :
    Nat → List QString → OptionDefinition → Except QString QJsonValue
  | 0, _, _ => .error []
  | rounds + 1, visiting, option => do
    if visiting.contains option.id then
      throw (qstr "The compositor option default inheritance is cyclic")
    let value ← (match overrides.lookup option.id with
      | some value => pure value
      | none =>
        match option.inheritedDefaultFrom with
        | none => pure option.defaultValue
        | some path =>
          match optionByPath catalog path with
          | none => throw (qstr "The compositor option inherited default source is missing")
          | some source => resolvedOptionValue catalog overrides rounds (option.id :: visiting) source)
    if (validateOptionValue p option value (qstr "$")).errors = [] then return value
    else throw (qstr "The compositor option value " ++ option.id ++ qstr " is invalid")

def resolvedOptionValues (catalog : Catalog) (overrides : QJsonObject) :
    List OptionDefinition → Except QString (List (QString × QJsonValue))
  | [] => pure []
  | option :: rest => do
    let value ← resolvedOptionValue p catalog overrides (catalog.options.length + 1) [] option
    let values ← resolvedOptionValues catalog overrides rest
    return (option.id, value) :: values

def allOptionValues (catalog : Catalog) (snapshot : QJsonObject) : Except QString (QMap QJsonValue) :=
  match snapshot.value (qstr "overrides") with
  | .object overrides => do
    let values ← resolvedOptionValues p catalog overrides catalog.options
    return QMap.ofList values
  | _ => throw (qstr "The compositor snapshot has invalid overrides")

/-- The values asked for, each strictly of the type of a writable option. -/
def strictOptionValues (catalog : Catalog) : QMap QVariant → Except QString (QMap QJsonValue)
  | [] => pure []
  | (key, variant) :: rest =>
    match findOption catalog key with
    | none => throw (qstr "Only known writable compositor option values are accepted")
    | some option => do
      if !option.writable then throw (qstr "Only known writable compositor option values are accepted")
      match hasStrictOptionValue p option variant with
      | none => throw (qstr "A compositor option value is invalid")
      | some value =>
        let values ← strictOptionValues catalog rest
        return (option.id, value) :: values

/-- What an option resolves to without an override of its own. -/
def otherwiseResolved (catalog : Catalog) (snapshot provisionalOverrides : QJsonObject) (option : OptionDefinition) :
    Except QString QJsonValue :=
  if option.inheritedDefaultFrom.isNone then pure option.defaultValue
  else do
    let resolved ← allOptionValues p catalog
      (snapshot.insert (qstr "overrides") (.object (provisionalOverrides.remove option.id)))
    match resolved.lookup option.id with
    | none => throw (qstr "The compositor option default could not be resolved")
    | some value => return value

/-- Store the values that differ from what their options would resolve to, and drop the others. -/
def storeOverrides (catalog : Catalog) (snapshot provisionalOverrides : QJsonObject) :
    QMap QJsonValue → QJsonObject → Except QString QJsonObject
  | [], overrides => pure overrides
  | (id, value) :: rest, overrides =>
    match findOption catalog id with
    | none => throw (qstr "Only known writable compositor option values are accepted")
    | some option => do
      let defaultValue ← otherwiseResolved p catalog snapshot provisionalOverrides option
      storeOverrides catalog snapshot provisionalOverrides rest
        (if value = defaultValue then overrides.remove option.id else overrides.insert option.id value)

def replaceAllOptionValues (catalog : Catalog) (values : QMap QVariant) (snapshot : QJsonObject) :
    Except QString (QJsonObject × Bool) := do
  let originalOverrides := (snapshot.value (qstr "overrides")).toObject
  let strictValues ← strictOptionValues p catalog values
  let provisionalOverrides := strictValues.foldl (fun overrides e => overrides.insert e.1 e.2) originalOverrides
  let overrides ← storeOverrides p catalog snapshot provisionalOverrides strictValues originalOverrides
  return (snapshot.insert (qstr "overrides") (.object overrides), overrides ≠ originalOverrides)

def arrayFields : List QString :=
  [qstr "monitors", qstr "devices", qstr "curves", qstr "animations", qstr "gestures", qstr "workspaceRules",
    qstr "windowRules", qstr "layerRules", qstr "submaps", qstr "bindings", qstr "permissions", qstr "environment"]

def snapshotMatchesAuthority (snapshot : QJsonObject) (expectedRevision : UInt64)
    (expectedCatalogDigest expectedActionCatalogDigest : QString) : Bool :=
  snapshot.keys.all rootFields.contains && rootFields.all snapshot.keys.contains &&
    (snapshot.value (qstr "formatVersion")).integer? = some 1 && (snapshot.value (qstr "revision")).isString &&
    (snapshot.value (qstr "revision")).toString = decimal expectedRevision.toNat &&
    (snapshot.value (qstr "targetHyprland")).isString && !(snapshot.value (qstr "targetHyprland")).toString.isEmpty &&
    (snapshot.value (qstr "catalogDigest")).toString = expectedCatalogDigest &&
    (snapshot.value (qstr "actionCatalogDigest")).toString = expectedActionCatalogDigest &&
    (snapshot.value (qstr "overrides")).isObject && arrayFields.all fun key => (snapshot.value key).isArray

def firstError (errors : ValidationErrors) : QString :=
  match errors with
  | [] => qstr "The complete compositor snapshot is invalid"
  | error :: _ => error.path ++ qstr ": " ++ error.message

def validatedCandidate (candidateObject : QJsonObject) (changed : Bool) (catalog : Catalog) (actionCatalog : ActionCatalog) :
    Except QString SnapshotEdit :=
  let candidate := canonicalJson p (.object candidateObject) ++ [0x0a]
  if maximumDesiredStateBytes < candidate.length then throw (qstr "The compositor snapshot exceeds its size limit")
  else
    let parsed := parseDesiredState p candidate catalog actionCatalog
    match parsed.value with
    | none => throw (firstError parsed.errors)
    | some state =>
      if changed && validateManagedActivationSafety state catalog ≠ [] then
        throw (firstError (validateManagedActivationSafety state catalog))
      else return { candidate, changed }

def replaceAllOptions (snapshot : QJsonObject) (expectedRevision : UInt64)
    (expectedCatalogDigest expectedActionCatalogDigest : QString) (catalog : Catalog) (actionCatalog : ActionCatalog)
    (values : QMap QVariant) : Except QString SnapshotEdit :=
  if expectedRevision = 0xffffffffffffffff || catalog.digest ≠ expectedCatalogDigest ||
      actionCatalog.digest ≠ expectedActionCatalogDigest ||
      !snapshotMatchesAuthority snapshot expectedRevision expectedCatalogDigest expectedActionCatalogDigest then
    throw (qstr "The compositor snapshot authority is stale")
  else do
    let (candidateObject, changed) ← replaceAllOptionValues p catalog values snapshot
    validatedCandidate p candidateObject changed catalog actionCatalog

end Editor

end HyprShelld.Client
