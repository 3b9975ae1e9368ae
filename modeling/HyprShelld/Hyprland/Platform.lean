import HyprShelld.Canonical.Text
import HyprShelld.Component.Persistable

/-! What validation takes from the libraries it links against, and the tests on JSON
values that every validator shares. -/
namespace HyprShelld.Hyprland

/-- Qt's Unicode tables, number text and regular expressions, RE2, xkbcommon and SHA-256. -/
structure Platform where
  unicode : CanonicalJson.Unicode
  toUpper : QString → QString
  number : NumberText
  /-- QRegularExpression(pattern).match(text).hasMatch() for a pattern of a catalog. -/
  matchesPattern : QString → QString → Bool
  /-- RE2 compiles the expression. -/
  re2Compiles : QByteArray → Bool
  /-- Case-insensitive lookup; none is XKB_KEY_NoSymbol. -/
  keysymFromName : QByteArray → Option Nat
  /-- The name of a keysym, none where the library reports no name. -/
  keysymGetName : Nat → Option QByteArray
  /-- The lowercase hexadecimal digest. -/
  sha256 : QByteArray → QString
  /-- QByteArray::number(number, 'g', 17). -/
  generalNumber : Double → QByteArray
  /-- What static_cast<qint64> makes of a double outside its range, which the language leaves undefined. -/
  overflowInt64 : ℚ → Int64
  isAbsolutePath : QString → Bool
  cleanPath : QString → QString
  /-- The C0 controls have category Other_Control. -/
  control : ∀ c < 0x20, unicode.isControlOrFormat c = true

variable (p : Platform)

/-- static_cast<qint64> of an integral double. -/
def Platform.toInt64 (q : ℚ) : Int := if -2 ^ 63 ≤ q ∧ q < 2 ^ 63 then q.num else (p.overflowInt64 q).toInt

/-- JsonSupport::canonicalJson; rebuilding sorted objects changes nothing. -/
def canonicalJson (v : QJsonValue) : QByteArray := Components.compactJson p.number v

def parseStrictObject (bytes : QByteArray) (maximumBytes maximumDepth : Int) : ValidationResult QJsonObject :=
  Components.parseStrictJsonObject p.number bytes ⟨maximumBytes, maximumDepth⟩

/-- A C string ends at its first NUL. -/
def cString (bytes : QByteArray) : QByteArray := bytes.takeWhile (· ≠ 0)

def compilesAsRe2 (expression : QString) : Bool := p.re2Compiles (cString (toUtf8 expression))

def isControlOrFormat (codePoint : Nat) : Bool := p.unicode.isControlOrFormat codePoint

def isNormalizedC (text : QString) : Bool := text = p.unicode.normalizationFormC text

def isLowerHex (u : UInt16) : Bool := (unit '0' ≤ u && u ≤ unit '9') || (unit 'a' ≤ u && u ≤ unit 'f')

/-- The largest integer up to which every integer is a double. -/
def maximumSafeJsonInteger : Int := 9007199254740991

end HyprShelld.Hyprland

namespace HyprShelld

/-- The double ordering; NaN is unordered. -/
def Double.less : Double → Double → Bool
  | .finite p, .finite q => p < q
  | .finite _, .infinity negative => !negative
  | .infinity negative, .finite _ => negative
  | .infinity a, .infinity b => a && !b
  | .nan, _ | _, .nan => false

namespace QJsonValue

def toDouble : QJsonValue → Double
  | double d => d
  | _ => .finite 0

/-- A finite number. -/
def finite? : QJsonValue → Option ℚ
  | double (.finite q) => some q
  | _ => none

/-- An exactly representable integer. -/
def integer? (v : QJsonValue) : Option Int :=
  v.finite?.bind fun q =>
    if q.den = 1 ∧ |q.num| ≤ Hyprland.maximumSafeJsonInteger then some q.num else none

theorem finite?_eq_some {v : QJsonValue} {q : ℚ} : v.finite? = some q ↔ v = .double (.finite q) := by
  constructor
  · intro h
    unfold finite? at h
    split at h
    · cases h
      rfl
    · cases h
  · rintro rfl
    rfl

theorem integer?_eq_some {v : QJsonValue} {n : Int} (h : v.integer? = some n) :
    v = .double (.finite n) := by
  obtain ⟨q, hq, hn⟩ := Option.bind_eq_some_iff.mp h
  split_ifs at hn with hc
  cases hn
  rw [finite?_eq_some.mp hq, Rat.coe_int_num_of_den_eq_one hc.1]

def lessThan (v : QJsonValue) (bound : ℚ) : Bool := v.toDouble.less (.finite bound)
def greaterThan (v : QJsonValue) (bound : ℚ) : Bool := (Double.finite bound).less v.toDouble

end QJsonValue
end HyprShelld
