import HyprShelld.Canonical.Serializer

/-! The canonical reader and the codec: bytes are accepted only when serializing what was
read from them gives them back. -/
namespace HyprShelld.CanonicalJson
open Json

def readerMessage : Fault → String × String
  | .rootObjectRequired => ("jcs.root-object-required", "A canonical authority record must have an object root.")
  | .trailingData => ("jcs.trailing-data", "Unexpected data follows the JSON object.")
  | .unexpectedEnd => ("jcs.unexpected-end", "The JSON value is incomplete.")
  | .invalidToken => ("jcs.invalid-token", "Expected a JSON value.")
  | .invalidLiteral => ("jcs.invalid-literal", "The JSON literal is invalid.")
  | .depthLimit => ("jcs.depth-limit", "JSON exceeds the configured depth limit.")
  | .valueLimit => ("jcs.value-limit", "JSON exceeds the configured value limit.")
  | .objectKeyRequired => ("jcs.object-key-required", "Expected a quoted object member name.")
  | .duplicateKey _ => ("jcs.duplicate-key", "Duplicate JSON object member name.")
  | .colonRequired => ("jcs.colon-required", "Expected ':' after the object member name.")
  | .objectSeparatorRequired => ("jcs.object-separator-required", "Expected ',' or '\x7d' in the object.")
  | .arraySeparatorRequired => ("jcs.array-separator-required", "Expected ',' or ']' in the array.")
  | .unescapedControl => ("jcs.unescaped-control", "A JSON string contains an unescaped control character.")
  | .loneHighSurrogate => ("jcs.invalid-unicode", "A JSON string contains a lone high surrogate.")
  | .loneLowSurrogate | .loneLowEscape => ("jcs.invalid-unicode", "A JSON string contains a lone low surrogate.")
  | .unpairedEscape => ("jcs.invalid-unicode", "A high surrogate must be followed by a low surrogate.")
  | .shortUnicodeEscape =>
    ("jcs.invalid-unicode-escape", "A Unicode escape must contain four hexadecimal digits.")
  | .nonHexUnicodeEscape =>
    ("jcs.invalid-unicode-escape", "A Unicode escape contains a non-hexadecimal digit.")
  | .invalidEscape => ("jcs.invalid-escape", "A JSON string contains an invalid escape.")
  | .unterminatedString => ("jcs.unterminated-string", "The JSON string is unterminated.")
  | .invalidNumber => ("jcs.invalid-number", "The JSON number grammar is invalid.")
  | .unreadableNumber => ("jcs.non-ijson-number", "The JSON number lexeme is too large to parse safely.")
  | .lossyNumber =>
    ("jcs.non-ijson-number", "The JSON number is not representable as finite IEEE-754 binary64.")

def readerFault (fault : Fault) (path : QString) (position : Nat) : Error :=
  makeError (qstr (readerMessage fault).1) path (qstr (readerMessage fault).2) position

/-- A digit other than zero before any exponent. -/
def significandNonzero (lexeme : QString) : Bool :=
  (lexeme.takeWhile fun u => u ≠ unit 'e' && u ≠ unit 'E').any isNonzeroDigit

/-- A lexeme of the grammar is converted whole, so a conversion that stops early is NaN. -/
def readerNumber (conversion : NumberText) (lexeme : QString) : Except Fault ℚ :=
  if maximumInt < lexeme.length then .error .unreadableNumber
  else
    match conversion.read lexeme with
    | .finite q => if q = 0 ∧ significandNonzero lexeme = true then .error .lossyNumber else .ok q
    | .infinity _ | .nan => .error .lossyNumber

variable (unicode : Unicode) (conversion : NumberText) (policy : TextPolicy) (limits : Limits)

def reader : Dialect Error where
  fault := readerFault
  checkText := validateText unicode policy
  number := readerNumber conversion
  maximumDepth := limits.maximumDepth
  maximumValues := some limits.maximumValues

def byteOrderMark : QByteArray := [0xef, 0xbb, 0xbf]

/-- The bytes without the line feed the framing asks for. -/
def unframe (framing : Framing) (bytes : QByteArray) : Except Error QByteArray :=
  if framing = .oneTrailingLineFeed then
    if bytes.getLast? ≠ some 0x0a then
      .error (makeError (qstr "jcs.missing-line-feed") (qstr "$")
        (qstr "The selected framing requires exactly one trailing LF."))
    else .ok bytes.dropLast
  else .ok bytes

def parseCanonicalObject (bytes : QByteArray) (framing : Framing) : Except Error QJsonObject :=
  match limitsError limits with
  | some invalid => .error invalid
  | none =>
    if validFraming framing = false then .error unknownFraming
    else if validTextPolicy policy = false then .error (unknownTextPolicy (qstr "$"))
    else if limits.maximumBytes < bytes.length then
      .error (makeError (qstr "jcs.input-limit") (qstr "$")
        (qstr "Canonical JSON exceeds the configured byte limit."))
    else do
      let payload ← unframe framing bytes
      if byteOrderMark.isPrefixOf payload then
        .error (makeError (qstr "jcs.bom-forbidden") (qstr "$")
          (qstr "Canonical JSON cannot contain a UTF-8 byte-order mark."))
      else
        match decodeUtf8 payload with
        | none =>
          .error (makeError (qstr "jcs.invalid-utf8") (qstr "$") (qstr "Canonical JSON must be valid UTF-8."))
        | some text => do
          let parsed ← readDocument (reader unicode conversion policy limits) text
          let encoded ← serialize unicode conversion policy limits (.object parsed) framing
          if encoded ≠ bytes then
            .error (makeError (qstr "jcs.noncanonical") (qstr "$")
              (qstr ("The JSON object is valid but is not byte-for-byte RFC 8785 canonical under " ++
                "the selected framing.")))
          else return parsed

end HyprShelld.CanonicalJson
