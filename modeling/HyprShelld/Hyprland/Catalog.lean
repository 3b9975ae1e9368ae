import HyprShelld.Hyprland.Platform

/-! The scalar catalog: option definitions, version compatibility and option values. -/
namespace HyprShelld.Hyprland

def currentCatalogContractVersion : Nat := 1
def reviewedCatalogDigest : QString :=
  qstr "402c8a8c570dd3760d4d7bea8c358c7f12021a7c51457e62a4771d69a581254b"

structure SemanticVersion where
  major : Nat := 0
  minor : Nat := 0
  patch : Nat := 0
  deriving DecidableEq

def SemanticVersion.less (a b : SemanticVersion) : Bool :=
  a.major < b.major || (a.major = b.major && (a.minor < b.minor || (a.minor = b.minor && a.patch < b.patch)))

def SemanticVersion.toString (v : SemanticVersion) : QString :=
  decimal v.major ++ unit '.' :: (decimal v.minor ++ unit '.' :: decimal v.patch)

structure HyprlandReleaseRange where
  major : Nat := 0
  minor : Nat := 0
  reviewedVersion : SemanticVersion := {}
  reviewedTag : QString := []
  reviewedCommit : QString := []
  minimumPatch : Nat := 0
  maximumPatch : Option Nat := none

inductive OptionType where
  | boolean | integer | number | string | color | gradient | vector2 | enumeration | cssGap | fontWeight
  deriving DecidableEq

inductive ApplyMode where
  | reload | restart | session
  deriving DecidableEq

structure OptionConstraints where
  minimum : Option QJsonValue := none
  maximum : Option QJsonValue := none
  choices : List QJsonValue := []
  maximumLength : Option Nat := none
  pattern : Option QString := none

structure OptionDefinition where
  id : QString
  path : QString
  luaPath : List QString := []
  module : QString := []
  type : OptionType := .string
  writable : Bool := true
  defaultValue : QJsonValue
  constraints : OptionConstraints := {}
  applyMode : ApplyMode := .reload
  inheritedDefaultFrom : Option QString := none

structure ComplexSurfaceDefinition where
  id : QString
  ordered : Bool := true
  applyMode : ApplyMode := .reload

inductive NewerMinorPolicy where
  | readOnly | unsupported
  deriving DecidableEq

structure CompatibilityPolicy where
  fullyQualified : List QString := []
  newerMinor : NewerMinorPolicy := .readOnly

structure Catalog where
  contractVersion : Nat := currentCatalogContractVersion
  sourceManifestDigest : QString := []
  hyprland : HyprlandReleaseRange := {}
  options : List OptionDefinition := []
  complexSurfaces : List ComplexSurfaceDefinition := []
  compatibility : CompatibilityPolicy := {}
  digest : QString := []
  canonicalDocument : QJsonObject := []

inductive CompatibilityDecision where
  | exact | supportedMinor | unsupportedOlder | unsupportedFuture | unsupportedMajor
  deriving DecidableEq

section Options
variable (p : Platform)

def rejectUnknownCatalogFields (object : QJsonObject) (allowed : List QString) (path : QString) : Reads Unit :=
  .forEach (fun _ key => .rejectIf (!allowed.contains key)
    ⟨path ++ unit '.' :: key, qstr "catalog.unknown-field", qstr "Unknown catalog field: " ++ key⟩)
    0 object.keys

def isIntegral (v : QJsonValue) : Bool := v.integer?.isSome

def isBoundedOptionString (v : QJsonValue) : Bool :=
  v.isString && v.toString.length ≤ 4096 && !v.toString.contains 0

/-- `^0x[0-9A-F]{8}$` -/
def canonicalColor : Pattern :=
  .sequence (.text "0x") (.charset [('0', '9'), ('A', 'F')] 8 (some 8))

def isCanonicalColor (v : QJsonValue) : Bool := v.isString && hasMatch canonicalColor v.toString

def valueHasOptionType (v : QJsonValue) (type : OptionType) (path : QString) : Reads Bool := do
  (if type = .gradient then rejectUnknownCatalogFields v.toObject [qstr "colors", qstr "angle"] path
    else pure ())
  let valid := match type with
    | .boolean => v.isBool
    | .integer => isIntegral v
    | .number => v.finite?.isSome
    | .string => isBoundedOptionString v
    | .enumeration => isBoundedOptionString v || isIntegral v
    | .color => isCanonicalColor v
    | .vector2 => v.isArray && v.toArray.length = 2 && v.toArray.all (·.finite?.isSome)
    | .cssGap => v.isArray && v.toArray.length = 4 && v.toArray.all isIntegral
    | .fontWeight => isIntegral v
    | .gradient =>
      let colors := QJsonObject.value v.toObject (qstr "colors")
      let angle := QJsonObject.value v.toObject (qstr "angle")
      v.isObject && colors.isArray && !colors.toArray.isEmpty && colors.toArray.length ≤ 10 &&
        angle.finite?.isSome && !angle.lessThan (-3600) && !angle.greaterThan 3600 && colors.toArray.all isCanonicalColor
  .rejectIf (!valid) (issue path "option.type-mismatch" "The option value does not match its declared type.")
  return valid

/-- The bound of one component: shared, or taken from an array of bounds. -/
def componentBound (bound : QJsonValue) (index : Nat) : Option Double :=
  match bound with
  | .double d => some d
  | .array items => items[index]?.map (·.toDouble)
  | _ => none

def componentAllowed (constraints : OptionConstraints) (number : Double) (index : Nat) : Bool :=
  let minimum := constraints.minimum.bind fun bound => componentBound bound index
  let maximum := constraints.maximum.bind fun bound => componentBound bound index
  !(minimum.any fun m => number.less m) && !(maximum.any fun m => m.less number)

def constraintAllowsValue (option : OptionDefinition) (v : QJsonValue) : Bool :=
  let constraints := option.constraints
  !(v.isDouble && !componentAllowed constraints v.toDouble 0) &&
  (v.toArray.zipIdx.all fun (item, index) => !item.isDouble || componentAllowed constraints item.toDouble index) &&
  !(v.isString && (constraints.maximumLength.any (· < v.toString.length) ||
    constraints.pattern.any fun pattern => !p.matchesPattern pattern v.toString)) &&
  (constraints.choices.isEmpty || constraints.choices.any fun choice =>
    canonicalJson p (choice.toObject.value (qstr "value")) = canonicalJson p v)

def canonicalCatalogJson (catalog : Catalog) : QByteArray := canonicalJson p (.object catalog.canonicalDocument)

def catalogDigest (catalog : Catalog) : QString :=
  if catalog.digest ≠ [] then catalog.digest else p.sha256 (canonicalCatalogJson p catalog)

def compatibilityForVersion (catalog : Catalog) (version : SemanticVersion) : CompatibilityDecision :=
  let range := catalog.hyprland
  if version.major ≠ range.major then .unsupportedMajor
  else if version.minor = range.minor then
    if version = range.reviewedVersion then .exact
    else if range.minimumPatch ≤ version.patch ∧ ¬ range.maximumPatch.any (· < version.patch) then .supportedMinor
    else if version.patch < range.minimumPatch then .unsupportedOlder
    else .unsupportedFuture
  else if catalog.compatibility.fullyQualified.contains
      (decimal version.major ++ unit '.' :: (decimal version.minor ++ qstr ".x")) then .supportedMinor
  else if version.less ⟨range.major, range.minor, range.minimumPatch⟩ then .unsupportedOlder
  else .unsupportedFuture

def findOption (catalog : Catalog) (id : QString) : Option OptionDefinition :=
  catalog.options.find? (·.id = id)

def validateOptionValue (option : OptionDefinition) (v : QJsonValue) (path : QString) : Reads Unit := do
  let typeMatches ← valueHasOptionType v option.type path
  .rejectIf (typeMatches && !constraintAllowsValue p option v)
    (issue path "option.constraint-violation" "The value violates the option constraints.")

end Options

end HyprShelld.Hyprland
