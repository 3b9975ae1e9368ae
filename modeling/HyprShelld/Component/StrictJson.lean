import HyprShelld.Hyprland.Validation
import HyprShelld.Json.NumberText
import HyprShelld.Json.Reader
import HyprShelld.Text.Strings
import HyprShelld.Text.Utf8

/-! The strict JSON reader for configuration documents: numbers must survive being written
again, and every document has a byte and a depth limit. -/
namespace HyprShelld.Components
open Json

structure NormalizedJsonNumber where
  negative : Bool := false
  significantDigits : QString
  decimalExponent : Int := 0
  deriving DecidableEq

def maximumInt64 : Int := 2 ^ 63 - 1
def minimumInt64 : Int := -2 ^ 63

/-- Where the exponent marker stands, a small e being looked for first. -/
def exponentPosition (s : QString) : Option Nat :=
  match s.findIdx? (· = unit 'e') with
  | some i => some i
  | none => s.findIdx? (· = unit 'E')

def normalizeJsonNumber (lexeme : QString) : Option NormalizedJsonNumber :=
  let negative := lexeme.head? = some (unit '-')
  let body := if negative then lexeme.drop 1 else lexeme
  let significand := match exponentPosition body with
    | some i => body.take i
    | none => body
  let fractionalDigits := ((significand.dropWhile (· ≠ unit '.')).filter (· ≠ unit '.')).length
  let digits := (significand.filter (· ≠ unit '.')).dropWhile (· = unit '0')
  if digits = [] then some { significantDigits := qstr "0" }
  else do
    let explicitExponent ← match exponentPosition body with
      | some i => toLongLong (body.drop (i + 1))
      | none => some 0
    if maximumInt64 < fractionalDigits ∨ explicitExponent < minimumInt64 + fractionalDigits then none
    else
      let trailing := (digits.drop 1).reverse.takeWhile (· = unit '0')
      let decimalExponent := explicitExponent - fractionalDigits
      if maximumInt64 < trailing.length ∨ maximumInt64 - trailing.length < decimalExponent then none
      else some {
        negative := negative
        significantDigits := digits.take (digits.length - trailing.length)
        decimalExponent := decimalExponent + trailing.length }

structure StrictJsonLimits where
  maximumBytes : Int
  maximumDepth : Int

def faultText : Fault → String × String
  | .rootObjectRequired => ("json.root-object-required", "The JSON document root must be an object.")
  | .trailingData => ("json.trailing-data", "Unexpected data follows the JSON value.")
  | .unexpectedEnd => ("json.unexpected-end", "The JSON value is incomplete.")
  | .invalidToken => ("json.invalid-token", "Expected a JSON value.")
  | .invalidLiteral => ("json.invalid-token", "Invalid JSON literal.")
  | .depthLimit => ("json.depth-limit", "The JSON nesting limit was exceeded.")
  -- no values are counted here
  | .valueLimit => ("", "")
  | .objectKeyRequired => ("json.object-key-required", "Expected a quoted object key.")
  | .duplicateKey _ => ("json.duplicate-key", "Duplicate JSON object key: ")
  | .colonRequired => ("json.colon-required", "Expected ':' after the object key.")
  | .objectSeparatorRequired => ("json.object-separator-required", "Expected ',' or '\x7d' in the object.")
  | .arraySeparatorRequired => ("json.array-separator-required", "Expected ',' or ']' in the array.")
  | .unescapedControl => ("json.string-control-character", "Unescaped control character in string.")
  | .loneHighSurrogate | .loneLowSurrogate => ("json.invalid-unicode", "Unpaired Unicode surrogate in string.")
  | .loneLowEscape => ("json.invalid-unicode", "Unpaired low surrogate in string.")
  | .unpairedEscape => ("json.invalid-unicode", "High surrogate requires a low surrogate.")
  | .shortUnicodeEscape => ("json.invalid-unicode-escape", "Unicode escape must contain four hex digits.")
  | .nonHexUnicodeEscape => ("json.invalid-unicode-escape", "Unicode escape contains a non-hex digit.")
  | .invalidEscape => ("json.invalid-escape", "Invalid JSON string escape.")
  | .unterminatedString => ("json.unterminated-string", "Unterminated JSON string.")
  | .invalidNumber | .unreadableNumber => ("json.invalid-number", "Invalid or non-finite JSON number.")
  | .lossyNumber =>
    ("json.lossy-number", "The JSON number cannot be parsed and persisted without changing its value.")

def strictFault (fault : Fault) (path : QString) (_ : Nat) : ValidationError :=
  match fault with
  | .duplicateKey key => ⟨path, qstr (faultText fault).1, qstr (faultText fault).2 ++ key⟩
  | _ => issue path (faultText fault).1 (faultText fault).2

variable (number : NumberText)

/-- The lexeme and the text written for its value must name the same decimal. -/
def strictNumber (lexeme : QString) : Except Fault ℚ :=
  match number.read lexeme with
  | .finite q =>
    let authored := normalizeJsonNumber lexeme
    let serialized := normalizeJsonNumber (number.print q)
    if authored = none ∨ serialized = none ∨ authored ≠ serialized then .error .lossyNumber else .ok q
  | .infinity _ | .nan => .error .invalidNumber

def strictReader (limits : StrictJsonLimits) : Dialect ValidationError where
  fault := strictFault
  checkText := fun _ _ => .ok ()
  number := strictNumber number
  maximumDepth := limits.maximumDepth
  maximumValues := none

def parseStrictJsonObject (bytes : QByteArray) (limits : StrictJsonLimits) : ValidationResult QJsonObject :=
  let failed (code message : String) : ValidationResult QJsonObject := ⟨none, [issue (qstr "$") code message]⟩
  if limits.maximumBytes ≤ 0 ∨ limits.maximumDepth ≤ 0 then
    failed "json.invalid-limits" "JSON limits must be positive."
  else if limits.maximumBytes < bytes.length then
    failed "json.size-limit" "The JSON document exceeds its byte limit."
  else
    match decodeUtf8 bytes with
    | none => failed "json.invalid-utf8" "The JSON document is not valid UTF-8."
    | some text =>
      match readDocument (strictReader number limits) text with
      | .ok o => ⟨some o, []⟩
      | .error e => ⟨none, [e]⟩

end HyprShelld.Components
