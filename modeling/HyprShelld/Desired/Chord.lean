import HyprShelld.Desired.Selectors

/-! Binding keys and chords, and the payload rules of dispatcher actions. -/
namespace HyprShelld.Hyprland

variable (p : Platform)

/-- `^[^\x{0000}-\x{0020}\x{007f}+,]{1,64}$` -/
def lexicalKey : Pattern := .many (fun c => 0x20 < c && c ≠ 0x7f && c ≠ 0x2b && c ≠ 0x2c) 1 (some 64)

/-- `^(code|mouse):(0|[1-9][0-9]{0,9})$` -/
def numericToken : Pattern :=
  .sequenceOf [.anyOf [.text "code", .text "mouse"], .text ":", .either (.text "0") (positive 9)]

def wheelTokens : List QString := [qstr "mouse_down", qstr "mouse_up", qstr "mouse_left", qstr "mouse_right"]

/-- The number of a numeric token in its reviewed domain. -/
def isNumericKey (key : QString) (allowBindingSpecials : Bool) : Bool :=
  let kind := key.takeWhile (· ≠ unit ':')
  let digits := ((key.dropWhile (· ≠ unit ':')).drop 1).takeWhile isDigit
  let codeMaximum := if allowBindingSpecials then 4294967294 else 2147483647
  (toULongLong digits).any fun n =>
    (kind = qstr "code" && n ≤ codeMaximum) || (kind = qstr "mouse" && 272 ≤ n && n ≤ 767)

def refuseKey (path : QString) (code message : String) : Reads (Option QString) :=
  ⟨none, [issue path code message]⟩

/-- The canonical name of a keysym, when it has a bounded one. -/
def keysymName (symbol : Nat) : Option QString :=
  ((p.keysymGetName symbol).filter fun name => 0 < name.length ∧ name.length < 128).map
    (List.map fun byte => UInt16.ofNat byte.toNat)

def canonicalBindingKey (key path : QString) (requireCanonical : Bool) (allowBindingSpecials : Bool := true) :
    Reads (Option QString) :=
  if !hasMatch lexicalKey key then
    refuseKey path "state.invalid-key"
      "A binding key must be one canonical single-key token without whitespace or chord separators."
  else if wheelTokens.contains key || key = qstr "catchall" then
    if !allowBindingSpecials then
      refuseKey path "state.invalid-action-key"
        "Action key payloads do not accept binding-only wheel or catchall tokens."
    else pure (some key)
  else if hasMatch numericToken key then
    if !isNumericKey key allowBindingSpecials then
      refuseKey path "state.invalid-key" "The numeric binding key is outside its reviewed domain."
    else pure (some key)
  else
    match p.keysymFromName (cString (toUtf8 key)) with
    | none => refuseKey path "state.invalid-key" "The binding key is not a recognized XKB keysym name."
    | some symbol =>
      match keysymName p symbol with
      | none => refuseKey path "state.invalid-key" "The binding key has no bounded canonical XKB name."
      | some canonical =>
        if requireCanonical && key ≠ canonical then
          refuseKey path "state.non-canonical-key"
            "Persisted binding keys must use xkbcommon's canonical keysym name."
        else pure (some canonical)

def canonicalModifierOrder : List QString :=
  [qstr "SHIFT", qstr "CAPS", qstr "CTRL", qstr "ALT", qstr "MOD2", qstr "MOD3", qstr "SUPER", qstr "MOD5"]

def validateCanonicalActionModifiers (arguments : QJsonObject) (path : QString) : Reads Unit :=
  match arguments.value (qstr "mods") with
  | .string authored =>
    let tokens := if authored = [] then [] else authored.splitOn (unit ' ')
    let positions := tokens.map (canonicalModifierOrder.idxOf ·)
    let valid := tokens.length ≤ canonicalModifierOrder.length &&
      positions.all (· < canonicalModifierOrder.length) && decide (positions.Pairwise (· < ·))
    .rejectIf (!valid || authored ≠ join (canonicalModifierOrder.filter tokens.contains) (qstr " "))
      (issue (field path (qstr "mods")) "state.non-canonical-action-modifiers"
        "Action modifiers must be unique canonical tokens in the pinned order.")
  | _ => pure ()

/-- Run a check on a string argument, when the action has one. -/
def onString (arguments : QJsonObject) (key : String) (check : QString → Reads Unit) : Reads Unit :=
  match arguments.value (qstr key) with
  | .string text => check text
  | _ => pure ()

def validateDispatcherPayloadSemantics (action : QString) (arguments : QJsonObject) (path : QString) :
    Reads Unit := do
  .forEach (fun _ key => onString arguments key fun text =>
    validateWindowSelector p text (field path (qstr key))) 0 ["window", "target"]
  onString arguments "workspace" fun text =>
    validateWorkspaceSpec text (field path (qstr "workspace"))
      ([qstr "workspace.rename", qstr "workspace.change_id", qstr "workspace.move"].contains action)
  .forEach (fun _ key => onString arguments key fun text =>
    validateMonitorSpec p text (field path (qstr key))) 0 ["monitor", "monitor1", "monitor2"]
  (if action = qstr "window.tag" then
      validateStringField arguments (qstr "tag") path (hasMatch windowTag) "state.invalid-window-tag"
        "A managed window tag requires a nonempty canonical base name."
    else pure ())
  (if action = qstr "send_shortcut" ∨ action = qstr "send_key_state" then do
      validateCanonicalActionModifiers arguments path
      onString arguments "key" fun text => do
        let _ ← canonicalBindingKey p text (field path (qstr "key")) true false
    else pure ())
  (if action = qstr "global" then
      validateStringField arguments (qstr "name") path
        (hasMatch (.sequenceOf [globalNamePart, .text ":", globalNamePart])) "state.invalid-global-name"
        "A global shortcut name must be canonical appid:name with one non-empty colon-separated pair."
    else pure ())

def modifierAliases : List (QString × QString) :=
  [("CTRL", "CTRL"), ("CONTROL", "CTRL"), ("ALT", "ALT"), ("MOD1", "ALT"), ("SHIFT", "SHIFT"),
    ("CAPS", "CAPS"), ("SUPER", "SUPER"), ("MOD4", "SUPER"), ("WIN", "SUPER"), ("LOGO", "SUPER"),
    ("META", "SUPER"), ("MOD2", "MOD2"), ("MOD3", "MOD3"), ("MOD5", "MOD5")].map fun a => (qstr a.1, qstr a.2)

def chordModifierOrder : List QString :=
  [qstr "SUPER", qstr "CTRL", qstr "ALT", qstr "SHIFT", qstr "CAPS", qstr "MOD2", qstr "MOD3", qstr "MOD5"]

/-- The modifiers of a chord without their aliases, those seen before first. -/
def normalizeModifiers : Nat → List QString → List QString → Reads (List QString)
  | _, seen, [] => pure seen
  | index, seen, modifier :: rest =>
    let path := element (qstr "$.modifiers") index
    match modifierAliases.lookup (p.toUpper (trimmed modifier)) with
    | none => do
      addError path "state.invalid-modifier" "The modifier is not supported by Hyprland's Lua binding API."
      normalizeModifiers (index + 1) seen rest
    | some modifierName => do
      .rejectIf (seen.contains modifierName)
        (issue path "state.duplicate-modifier" "A modifier is repeated in the chord.")
      normalizeModifiers (index + 1) (modifierName :: seen) rest

def escapedChordKey (key : QString) : QString :=
  replaceUnit (replaceUnit (p.toUpper key) (unit '\\') (qstr "\\\\")) (unit '+') (qstr "\\+")

def chordText (modifiers : List QString) (key : QString) : QString :=
  join (chordModifierOrder.filter modifiers.contains ++ [escapedChordKey p key]) (qstr "+")

def normalizeBindingChord (modifiers : List QString) (key : QString) : ValidationResult QString :=
  Checked.result <|
    if maximumBindingModifiers < modifiers.length then
      ⟨[], [issue (qstr "$.modifiers") "state.collection-limit" "Too many binding modifiers were provided."]⟩
    else do
      let normalizedModifiers ← normalizeModifiers p 0 [] modifiers
      let canonicalKey ← canonicalBindingKey p key (qstr "$.key") false
      return chordText p normalizedModifiers (canonicalKey.getD [])

end HyprShelld.Hyprland
