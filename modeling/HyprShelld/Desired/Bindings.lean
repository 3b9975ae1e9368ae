import HyprShelld.Desired.Records

/-! The parser of binding records. -/
namespace HyprShelld.Hyprland

variable (p : Platform)

def bindingFields : List QString :=
  [qstr "id", qstr "modifiers", qstr "key", qstr "actionType", qstr "action", qstr "arguments",
    qstr "description", qstr "enabled", qstr "submap", qstr "options"]

def bindingOptionFields : List QString :=
  [qstr "repeating", qstr "locked", qstr "release", qstr "nonConsuming", qstr "autoConsuming",
    qstr "transparent", qstr "ignoreMods", qstr "dontInhibit", qstr "longPress", qstr "submapUniversal",
    qstr "click", qstr "drag", qstr "allowInputCapture", qstr "device"]

def BindingActionType.toString : BindingActionType → QString
  | .dispatcher => qstr "dispatcher"
  | .defaultApp => qstr "defaultApp"
  | .hyprShelld => qstr "hyprshelld"

def BindingActionType.kind : BindingActionType → ActionKind
  | .dispatcher => .dispatcher
  | .defaultApp => .defaultApp
  | .hyprShelld => .hyprShelld

def readActionType (object : QJsonObject) (path : QString) : Reads BindingActionType := do
  let text ← readString p object (qstr "actionType") path 32
  rejectChoice text ["dispatcher", "defaultApp", "hyprshelld"] (field path (qstr "actionType"))
    "state.invalid-action-type" "The binding action type is not closed by this contract."
  return if text = qstr "defaultApp" then .defaultApp
    else if text = qstr "hyprshelld" then .hyprShelld else .dispatcher

def validateBindingAction (actionCatalog : ActionCatalog) (kind : ActionKind) (action : QString)
    (arguments : QJsonObject) (path : QString) : Reads Unit :=
  let argumentsPath := field path (qstr "arguments")
  match findAction actionCatalog kind action with
  | some definition => do
    validateActionPayload p definition (.object arguments) argumentsPath
    (if kind = .dispatcher then validateDispatcherPayloadSemantics p action arguments argumentsPath
      else pure ())
    .rejectIf (kind ≠ .dispatcher && !arguments.isEmpty)
      (issue argumentsPath "state.unexpected-action-arguments"
        "Semantic actions do not accept arguments in this contract.")
  | none => .rejectIf (!action.isEmpty) (issue (field path (qstr "action")) "state.unknown-binding-action"
      "The action is not in the compiled action catalog.")

def parseDeviceFilter (options : QJsonObject) (path : QString) : Reads BindingDeviceFilter := do
  let device ← readObject options (qstr "device") path
  let devicePath := field path (qstr "device")
  rejectUnknownFields device [qstr "inclusive", qstr "list"] devicePath
  let inclusive ← readBoolean device (qstr "inclusive") devicePath true
  let list ← readStringArray p device (qstr "list") devicePath maximumBindingDevices false
  validateNonEmptySchemaStringList p list (field devicePath (qstr "list"))
  .rejectRepeated (fun index => issue (element (field devicePath (qstr "list")) index) "state.duplicate-device"
    "Binding device filters must be unique.") 0 [] (list.map some)
  return { inclusive, list }

/-- Absence is the only representation for no device filter. -/
def readDeviceFilter (options : QJsonObject) (path : QString) : Reads (Option BindingDeviceFilter) :=
  if !options.contains (qstr "device") then pure none
  else if (options.value (qstr "device")).isNull then
    ⟨none, [issue (field path (qstr "device")) "state.object-required"
      "A device filter must be omitted or be an object."]⟩
  else do
    let filter ← parseDeviceFilter p options path
    return some filter

def parseBindingOptions (options : QJsonObject) (path : QString) : Reads BindingOptions := do
  rejectUnknownFields options bindingOptionFields path
  let repeating ← readBoolean options (qstr "repeating") path
  let locked ← readBoolean options (qstr "locked") path
  let release ← readBoolean options (qstr "release") path
  let nonConsuming ← readBoolean options (qstr "nonConsuming") path
  let autoConsuming ← readBoolean options (qstr "autoConsuming") path
  let transparent ← readBoolean options (qstr "transparent") path
  let ignoreMods ← readBoolean options (qstr "ignoreMods") path
  let dontInhibit ← readBoolean options (qstr "dontInhibit") path
  let longPress ← readBoolean options (qstr "longPress") path
  let submapUniversal ← readBoolean options (qstr "submapUniversal") path
  let click ← readBoolean options (qstr "click") path
  let drag ← readBoolean options (qstr "drag") path
  let allowInputCapture ← readBoolean options (qstr "allowInputCapture") path
  let device ← readDeviceFilter p options path
  .rejectIf (click && drag)
    (issue path "state.incompatible-bind-options" "click and drag are mutually exclusive.")
  .rejectIf ((click || drag) && !release)
    (issue (field path (qstr "release")) "state.incompatible-bind-options"
      "click and drag bindings must explicitly persist release=true.")
  .rejectIf (repeating && (longPress || release || click || drag))
    (issue path "state.incompatible-bind-options"
      "longPress/release/click/drag cannot be combined with repeating.")
  return {
    repeating, locked, release, nonConsuming, autoConsuming, transparent, ignoreMods, dontInhibit, longPress,
    submapUniversal, click, drag, allowInputCapture, device }

/-- The chord of a record, its errors moved below the record. -/
def readChord (modifiers : List QString) (key path : QString) : Reads QString :=
  let chord := normalizeBindingChord p modifiers key
  ⟨chord.value.getD [], chord.errors.map fun error => { error with path := path ++ error.path.drop 1 }⟩

def parseBinding (actionCatalog : ActionCatalog) (object : QJsonObject) (path : QString) :
    Reads BindingConfiguration := do
  rejectUnknownFields object bindingFields path
  let id ← readId p object path
  let modifiers ← readStringArray p object (qstr "modifiers") path maximumBindingModifiers false
  validatePersistedModifiers modifiers (field path (qstr "modifiers"))
  let key ← readString p object (qstr "key") path 64
  (if key.isEmpty then pure ()
    else do
      let _ ← canonicalBindingKey p key (field path (qstr "key")) true)
  let actionType ← readActionType p object path
  let action ← readString p object (qstr "action") path 128
  let arguments ← readObject object (qstr "arguments") path
  validateBindingAction p actionCatalog actionType.kind action arguments path
  let description ← readString p object (qstr "description") path 512 false true
  let enabled ← readBoolean object (qstr "enabled") path true
  let submap ← readString p object (qstr "submap") path 256 true
  let optionsObject ← readObject object (qstr "options") path
  let options ← parseBindingOptions p optionsObject (field path (qstr "options"))
  let normalizedChord ← readChord p modifiers key path
  return {
    id, modifiers, key, actionType, action, arguments, description, enabled, submap, options, normalizedChord }

end HyprShelld.Hyprland
