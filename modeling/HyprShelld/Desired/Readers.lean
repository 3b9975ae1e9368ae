import HyprShelld.Desired.Types

/-! Field readers: each returns the field's value, or a fallback with an error. -/
namespace HyprShelld.Hyprland

variable (p : Platform)

def field (path key : QString) : QString := path ++ unit '.' :: key
def element (path : QString) (index : Nat) : QString := Json.elementPath path index

def rejectUnknownFields (object : QJsonObject) (allowed : List QString) (path : QString) : Reads Unit :=
  .forEach (fun _ key => .rejectIf (!allowed.contains key)
    ⟨field path key, qstr "state.unknown-field", qstr "Unknown desired-state field: " ++ key⟩)
    0 object.keys

def hasDisallowedCharacter (text : QString) (allowNewlines : Bool) : Bool :=
  (toUcs4 text).any fun codePoint => isControlOrFormat p codePoint &&
    !(allowNewlines && (codePoint = 0x0a || codePoint = 0x0d || codePoint = 0x09))

def readString (object : QJsonObject) (key path : QString) (maximumLength : Nat := maximumStateStringLength)
    (allowEmpty : Bool := false) (allowNewlines : Bool := false) : Reads QString :=
  match object.value key with
  | .string text =>
    if (!allowEmpty && text.isEmpty) || maximumLength < text.length || !isNormalizedC p text ||
        hasDisallowedCharacter p text allowNewlines then
      ⟨[], [issue (field path key) "state.invalid-string"
        "The string is empty, non-canonical, too long, or contains a disallowed character."]⟩
    else pure text
  | _ => ⟨[], [issue (field path key) "state.string-required" "A string value is required."]⟩

def readBoolean (object : QJsonObject) (key path : QString) (fallback : Bool := false) : Reads Bool :=
  match object.value key with
  | .bool b => pure b
  | _ => ⟨fallback, [issue (field path key) "state.boolean-required" "A boolean value is required."]⟩

/-- A number in a range; the fallback is what the record holds otherwise. -/
def readNumber (object : QJsonObject) (key path : QString) (minimum maximum fallback : ℚ) : Reads ℚ :=
  match (object.value key).finite? with
  | some q =>
    if q < minimum ∨ maximum < q then
      ⟨fallback, [issue (field path key) "state.number-out-of-range" "The number is outside the accepted range."]⟩
    else pure q
  | none => ⟨fallback, [issue (field path key) "state.number-required" "A finite number is required."]⟩

def readInteger (object : QJsonObject) (key path : QString) (minimum maximum fallback : Int) : Reads Int :=
  match (object.value key).integer?.filter fun n => minimum ≤ n ∧ n ≤ maximum with
  | some n => pure n
  | none => ⟨fallback, [issue (field path key) "state.integer-out-of-range"
      "A bounded exactly representable integer is required."]⟩

def readObject (parent : QJsonObject) (key path : QString) : Reads QJsonObject :=
  match parent.value key with
  | .object o => pure o
  | _ => ⟨[], [issue (field path key) "state.object-required" "An object is required."]⟩

def readArray (parent : QJsonObject) (key path : QString) : Reads QJsonArray :=
  match parent.value key with
  | .array items => pure items
  | _ => ⟨[], [issue (field path key) "state.array-required" "An array is required."]⟩

/-- `^[A-Za-z0-9][A-Za-z0-9._:-]{0,127}$` -/
def stableId : Pattern :=
  .sequence (.charset [('A', 'Z'), ('a', 'z'), ('0', '9')] 1 (some 1))
    (.charset [('A', 'Z'), ('a', 'z'), ('0', '9'), ('.', '.'), ('_', '_'), (':', ':'), ('-', '-')] 0 (some 127))

def isStableId (text : QString) : Bool := hasMatch stableId text

def validateStableId (id path : QString) : Reads Unit :=
  .rejectIf (!isStableId id)
    (issue path "state.invalid-id" "A stable one-to-128-character record ID is required.")

/-- The strings of an array; items that are no valid strings are left out. -/
def readStrings (arrayPath : QString) (allowEmptyStrings : Bool) : Nat → List QJsonValue → Reads (List QString)
  | _, [] => pure []
  | index, item :: rest => do
    let tail := readStrings arrayPath allowEmptyStrings (index + 1) rest
    match item with
    | .string text =>
      if (!allowEmptyStrings && text.isEmpty) || maximumStateStringLength < text.length || !isNormalizedC p text ||
          hasDisallowedCharacter p text true then do
        addError (element arrayPath index) "state.invalid-string" "The string array item is invalid."
        tail
      else do
        let texts ← tail
        return text :: texts
    | _ => do
      addError (element arrayPath index) "state.string-required" "A string array item is required."
      tail

def readStringArray (object : QJsonObject) (key path : QString) (maximumItems : Nat)
    (allowEmptyStrings : Bool := true) : Reads (List QString) := do
  let array ← readArray object key path
  .rejectIf (maximumItems < array.length)
    (issue (field path key) "state.collection-limit" "The array exceeds its item limit.")
  readStrings p (field path key) allowEmptyStrings 0 (array.take maximumItems)

def canonicalModifiers : List QString :=
  [qstr "ctrl", qstr "alt", qstr "shift", qstr "super", qstr "caps", qstr "mod2", qstr "mod3", qstr "mod5"]

def validateModifiersFrom (path : QString) : Nat → List QString → List QString → Reads Unit
  | _, _, [] => pure ()
  | index, seen, modifier :: rest => do
    .rejectIf (!canonicalModifiers.contains modifier)
      (issue (element path index) "state.invalid-modifier"
        "Persisted modifiers must use the canonical lowercase contract spelling.")
    .rejectIf (seen.contains modifier)
      (issue (element path index) "state.duplicate-modifier" "Persisted modifiers must be unique.")
    validateModifiersFrom path (index + 1) (modifier :: seen) rest

def validatePersistedModifiers (modifiers : List QString) (path : QString) : Reads Unit :=
  validateModifiersFrom path 0 [] modifiers

def validateNonEmptySchemaStringList (texts : List QString) (path : QString) : Reads Unit :=
  .forEach (fun index text => .rejectIf (text.isEmpty || 256 < text.length || !isNormalizedC p text ||
      hasDisallowedCharacter p text false)
    (issue (element path index) "state.invalid-string"
      "The list item must satisfy the non-empty 256-character schema contract.")) 0 texts

/-- Records from an index on, with the ids seen before. -/
def parseRecords {α : Type} (arrayPath : QString) (id : α → QString) (parser : QJsonObject → QString → Reads α) :
    Nat → List QString → List QJsonValue → Reads (List α)
  | _, _, [] => pure []
  | index, ids, item :: rest =>
    match item with
    | .object o => do
      let record ← parser o (element arrayPath index)
      .rejectIf (ids.contains (id record))
        (issue (element arrayPath index ++ qstr ".id") "state.duplicate-id"
          "Record IDs must be unique inside a collection.")
      let records ← parseRecords arrayPath id parser (index + 1) (id record :: ids) rest
      return record :: records
    | _ => do
      addError (element arrayPath index) "state.object-required" "A complex record object is required."
      parseRecords arrayPath id parser (index + 1) ids rest

def parseRecordArray {α : Type} (root : QJsonObject) (key : QString) (maximumItems : Nat) (id : α → QString)
    (parser : QJsonObject → QString → Reads α) : Reads (List α) := do
  let array ← readArray root key (qstr "$")
  .rejectIf (maximumItems < array.length)
    (issue (qstr "$." ++ key) "state.collection-limit" "The complex collection exceeds its item limit.")
  parseRecords (qstr "$." ++ key) id parser 0 [] (array.take maximumItems)

end HyprShelld.Hyprland
