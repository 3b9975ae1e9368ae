import HyprShelld.Canonical.Text
import HyprShelld.Json.NumberText
import HyprShelld.Json.Reader
import HyprShelld.Json.Render
import HyprShelld.Text.Utf8
import Mathlib.Data.List.Sort

/-! The canonical serializer: bytes are appended piece by piece under a byte limit, every
value is counted and every object writes its members in key order. -/
namespace HyprShelld.CanonicalJson

/-- The fields of the serializer that change while it runs. -/
structure Output where
  output : QByteArray := []
  valueCount : Nat := 0
  deriving DecidableEq

def unsignedMagnitude (value : Int) : Nat := value.natAbs

def exactlyRepresentableAsBinary64 (magnitude : Nat) : Bool :=
  if magnitude = 0 then true
  else
    let width := Nat.log2 magnitude + 1
    if width ≤ 53 then true
    else magnitude % 2 ^ (width - 53) = 0

/-- A value held as an integer: a qint64, whose own range is the reader's to keep. -/
def isInteger64 (q : ℚ) : Bool := q.den = 1 && -2 ^ 63 ≤ q.num && q.num < 2 ^ 63

def jsonNumber (value : Double) (path : QString) : Except Error ℚ :=
  match value with
  | .finite q =>
    if isInteger64 q ∧ exactlyRepresentableAsBinary64 (unsignedMagnitude q.num) = false then
      .error (makeError (qstr "jcs.lossy-integer") path
        (qstr "The integer-backed JSON value is not exactly representable as IEEE-754 binary64."))
    else .ok q
  | .infinity _ | .nan =>
    .error (makeError (qstr "jcs.non-finite-number") path
      (qstr "RFC 8785 cannot serialize NaN or infinity."))

variable (unicode : Unicode) (conversion : NumberText) (policy : TextPolicy) (limits : Limits)

def append (bytes : QByteArray) (path : QString) (o : Output) : Except Error Output :=
  if limits.maximumBytes - o.output.length < bytes.length then
    .error (makeError (qstr "jcs.output-limit") path
      (qstr "Canonical JSON exceeds the configured byte limit."))
  else .ok { o with output := o.output ++ bytes }

def countValue (path : QString) (o : Output) : Except Error Output :=
  if limits.maximumValues ≤ o.valueCount then
    .error (makeError (qstr "jcs.value-limit") path
      (qstr "Canonical JSON exceeds the configured value limit."))
  else .ok { o with valueCount := o.valueCount + 1 }

def writeNumber (value : Double) (path : QString) (o : Output) : Except Error Output := do
  let number ← jsonNumber value path
  append limits (toUtf8 (conversion.print number)) path o

/-- The loop over a validated string: a high surrogate is written with its partner. -/
def writeUnits (path : QString) : QString → Output → Except Error Output
  | [], o => .ok o
  | u :: rest, o =>
    if isHighSurrogate u then
      match rest with
      | [] => append limits (toUtf8 [u]) path o
      | v :: tail => do
        let o ← append limits (toUtf8 [u, v]) path o
        writeUnits path tail o
    else do
      let o ← append limits (toUtf8 (escapeUnit u)) path o
      writeUnits path rest o

def writeString (text path : QString) (o : Output) : Except Error Output := do
  validateText unicode policy text path
  let o ← append limits (toUtf8 (qstr "\"")) path o
  let o ← writeUnits limits path text o
  append limits (toUtf8 (qstr "\"")) path o

/-- The writer of one value, still to be told its path and depth. -/
abbrev Writer := QString → Nat → Output → Except Error Output

def depthLimit (path : QString) : Error :=
  makeError (qstr "jcs.depth-limit") path (qstr "Canonical JSON exceeds the configured depth limit.")

/-- A separator stands before every element but the first. -/
def separate (index : Nat) (path : QString) (o : Output) : Except Error Output :=
  if 0 < index then append limits (toUtf8 (qstr ",")) path o else .ok o

def writeElements (path : QString) (depth : Nat) : Nat → List Writer → Output → Except Error Output
  | _, [], o => .ok o
  | index, write :: rest, o => do
    let o ← separate limits index path o
    let o ← write (Json.elementPath path index) (depth + 1) o
    writeElements path depth (index + 1) rest o

def writeArray (elements : List Writer) : Writer := fun path depth o =>
  if limits.maximumDepth < depth then .error (depthLimit path)
  else do
    let o ← append limits (toUtf8 (qstr "[")) path o
    let o ← writeElements limits path depth 0 elements o
    append limits (toUtf8 (qstr "]")) path o

def writeMembers (path : QString) (depth : Nat) :
    Nat → List (QString × Writer) → Output → Except Error Output
  | _, [], o => .ok o
  | index, (key, write) :: rest, o => do
    let memberPath := Json.childPath path key
    let o ← separate limits index path o
    let o ← writeString unicode policy limits key memberPath o
    let o ← append limits (toUtf8 (qstr ":")) memberPath o
    let o ← write memberPath (depth + 1) o
    writeMembers path depth (index + 1) rest o

def keyLess (a b : QString × Writer) : Prop := utf16Less a.1 b.1 = true

instance : DecidableRel keyLess := fun _ _ => inferInstanceAs (Decidable (_ = true))

def writeObject (members : List (QString × Writer)) : Writer := fun path depth o =>
  if limits.maximumDepth < depth then .error (depthLimit path)
  else do
    let o ← append limits (toUtf8 (qstr "\x7b")) path o
    let o ← writeMembers unicode policy limits path depth 0 (members.insertionSort keyLess) o
    append limits (toUtf8 (qstr "\x7d")) path o

mutual
def writeValue (v : QJsonValue) : Writer := fun path depth o => do
  let o ← countValue limits path o
  match v with
  | .null => append limits (toUtf8 (qstr "null")) path o
  | .bool b => append limits (toUtf8 (qstr (if b then "true" else "false"))) path o
  | .double x => writeNumber conversion limits x path o
  | .string s => writeString unicode policy limits s path o
  | .array items => writeArray limits (elementWriters items) path depth o
  | .object entries => writeObject unicode policy limits (memberWriters entries) path depth o
  | .undefined =>
    .error (makeError (qstr "jcs.undefined-value") path (qstr "Undefined is not an I-JSON value."))

def elementWriters : List QJsonValue → List Writer
  | [] => []
  | v :: rest => writeValue v :: elementWriters rest

def memberWriters : List (QString × QJsonValue) → List (QString × Writer)
  | [] => []
  | (k, v) :: rest => (k, writeValue v) :: memberWriters rest
end

def frame (framing : Framing) (o : Output) : Except Error Output :=
  if framing = .oneTrailingLineFeed then append limits [0x0a] (qstr "$") o else .ok o

/-- The serializer's run over a whole value. -/
def serialize (value : QJsonValue) (framing : Framing) : Except Error QByteArray :=
  match limitsError limits with
  | some invalid => .error invalid
  | none =>
    if validFraming framing = false then .error unknownFraming
    else if validTextPolicy policy = false then .error (unknownTextPolicy (qstr "$"))
    else do
      let o ← writeValue unicode conversion policy limits value (qstr "$") 1 {}
      let o ← frame limits framing o
      return o.output

end HyprShelld.CanonicalJson
