import HyprShelld.Canonical.Text
import HyprShelld.Component.StrictJson
import HyprShelld.Hyprland.Platform

/-! Identifiers, digests and the protected built-in that every component document refers to. -/
namespace HyprShelld

/-- Where a sorted list of keys has exactly the expected ones. -/
def hasExactKeys (object : QJsonObject) (expected : List QString) : Bool := object.keys.isPerm expected

namespace QJsonValue

/-- QJsonValue::toInteger: whole numbers of 64 bits, otherwise the default. -/
def toInteger (v : QJsonValue) (fallback : Int) : Int :=
  match v.finite? with
  | some q => if q.den = 1 ∧ -2 ^ 63 ≤ q.num ∧ q.num < 2 ^ 63 then q.num else fallback
  | none => fallback

end QJsonValue

namespace Components

/-- What the text checks take from the Unicode tables of Qt. -/
structure UnicodeTables extends CanonicalJson.Unicode where
  /-- The category Cn. -/
  isUnassigned : Nat → Bool

/-- QString::normalized to form C. -/
def UnicodeTables.normalized (t : UnicodeTables) (s : QString) : QString := t.normalizationFormC s

/-- What the Unicode standard promises of normalization form C. -/
structure UnicodeTables.Documented (t : UnicodeTables) : Prop where
  normalized_idem : ∀ s, t.normalized (t.normalized s) = t.normalized s
  normalized_text : ∀ s, IsText s → IsText (t.normalized s)
  normalized_ascii : ∀ s : QString, (∀ u ∈ s, u.toNat < 0x80) → t.normalized s = s

/-- The category Cc. -/
def isControl (c : Nat) : Bool := c < 0x20 || (0x7f ≤ c && c < 0xa0)

def hasControl (s : QString) : Bool := s.any fun u => isControl u.toNat

def workspaceSwitcherId : QString := qstr "io.github.coastlinesec.hyprshelld.workspace-switcher"
def workspaceSwitcherFactory : QString := qstr "workspace-switcher"
def currentComponentApiVersion : QString := qstr "1.0"
def workspacesReadCapability : QString := qstr "shell.workspaces.read"
def workspacesActivateCapability : QString := qstr "shell.workspaces.activate"
def workspaceSwitcherDefaultInstanceId : QString := qstr "7b4e2329-4320-4e15-894d-218fa690d782"
def defaultBarLayoutId : QString := qstr "main"

inductive ComponentOrigin where
  | system
  | user
  deriving DecidableEq

inductive ComponentType where
  | barWidget
  | desktopWidget
  | shellApplication
  | shellService
  deriving DecidableEq

inductive RuntimeKind where
  | builtinV1
  | declarativeV1
  | qmlFullTrustV1
  | processV1
  deriving DecidableEq

def lowerHexDigits : List (Char × Char) := [('0', '9'), ('a', 'f')]
def lowerAlphanumeric : List (Char × Char) := [('a', 'z'), ('0', '9')]

def digestPattern : Pattern := .charset lowerHexDigits 64 (some 64)

def uuidV4Pattern : Pattern := .sequenceOf [
  .charset lowerHexDigits 8 (some 8), .text "-", .charset lowerHexDigits 4 (some 4), .text "-4",
  .charset lowerHexDigits 3 (some 3), .text "-", .charset [('8', '9'), ('a', 'b')] 1 (some 1),
  .charset lowerHexDigits 3 (some 3), .text "-", .charset lowerHexDigits 12 (some 12)]

def isFullSha256Digest (digest : QString) : Bool := hasMatch digestPattern digest
def isLowercaseUuidV4 (uuid : QString) : Bool := hasMatch uuidV4Pattern uuid

/-- Words of lower case letters and digits joined by single hyphens. The words after the first
are a hyphen each with at least one letter or digit, which is the same as text without two hyphens
together and without one at the end. -/
def isKebabCase (s : QString) : Bool :=
  let codes := (toUcs4 s)
  let body := if codes.getLast? = some 0x0a then codes.dropLast else codes
  match body with
  | [] => false
  | c :: rest =>
    Pattern.among [('a', 'z')] c &&
      (rest.splitOn '-'.toNat).zipIdx.all fun (word, index) =>
        word.all (Pattern.among lowerAlphanumeric) && (index = 0 || word ≠ [])

def labelPattern : Pattern :=
  .sequence (.charset [('a', 'z')] 1 (some 1)) (.optional (.sequence
    (.charset (lowerAlphanumeric ++ [('-', '-')]) 0 (some 61)) (.charset lowerAlphanumeric 1 (some 1))))

/-- QString::split at a separator, empty parts kept. -/
def splitAt (s : QString) (separator : Char) : List QString := s.splitOn (unit separator)

def isValidComponentId (id : QString) : Bool :=
  let labels := splitAt id '.'
  id.length ≤ 255 && 3 ≤ labels.length &&
    labels.all fun label => label.length ≤ 63 && hasMatch labelPattern label

/-- At least two labels, the last of which may be followed by a line feed. -/
def isValidCapabilityId (id : QString) : Bool :=
  let codes := toUcs4 id
  let body := if codes.getLast? = some 0x0a then codes.dropLast else codes
  let labels := body.splitOn '.'.toNat
  id.length ≤ 255 && 2 ≤ labels.length &&
    labels.all fun label => (labelPattern.remainders label).any (· = [])

/-! The settings of the workspace switcher. -/

def isExactInteger (value : QJsonValue) (minimum maximum : Int) : Bool :=
  let integer := value.toInteger (minimum - 1)
  value.isDouble && minimum ≤ integer && integer ≤ maximum && value.toDouble = .finite integer

def workspaceSwitcherKeys : List QString := [qstr "showIdentifiers", qstr "showNames", qstr "showApplications",
  qstr "maximumApplications", qstr "occupiedOnly", qstr "scrollMode"]

def workspaceSwitcherDefaultSettings : QJsonObject := .ofList [
  (qstr "showIdentifiers", .bool true), (qstr "showNames", .bool false), (qstr "showApplications", .bool false),
  (qstr "maximumApplications", .double (.finite 3)), (qstr "occupiedOnly", .bool false),
  (qstr "scrollMode", .string (qstr "disabled"))]

def isScrollMode (scroll : QString) : Bool :=
  scroll = qstr "disabled" || scroll = qstr "normal" || scroll = qstr "reversed"

def isValidWorkspaceSwitcherSettings (settings : QJsonObject) : Bool :=
  let value (key : String) := QJsonObject.value settings (qstr key)
  hasExactKeys settings workspaceSwitcherKeys &&
    (value "showIdentifiers").isBool && (value "showNames").isBool && (value "showApplications").isBool &&
    isExactInteger (value "maximumApplications") 1 5 && (value "occupiedOnly").isBool &&
    (value "scrollMode").isString && isScrollMode (value "scrollMode").toString

end Components
end HyprShelld
