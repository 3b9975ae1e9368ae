import HyprShelld.Desired.Chord

/-! The shipped default key bindings and the user records that replace them. -/
namespace HyprShelld.Hyprland

variable (p : Platform)

/-- A dispatcher binding at top level, before its chord is normalized. -/
def binding (id : QString) (modifiers : List String) (key action : String)
    (arguments : List (String × QJsonValue)) (description : QString) (options : BindingOptions := {}) :
    BindingConfiguration where
  id := id
  modifiers := modifiers.map qstr
  key := qstr key
  action := qstr action
  arguments := .ofList (arguments.map fun a => (qstr a.1, a.2))
  description := description
  options := options

def superKey : List String := ["super"]
def superShift : List String := ["super", "shift"]
def superCtrl : List String := ["super", "ctrl"]
def superShiftCtrl : List String := ["super", "ctrl", "shift"]

def jsonText (s : String) : QJsonValue := .string (qstr s)
def jsonInt (n : Int) : QJsonValue := .double (.finite n)

/-- Name, arrow key and vim key. -/
def directions : List (String × String × String) :=
  [("left", "Left", "h"), ("down", "Down", "j"), ("up", "Up", "k"), ("right", "Right", "l")]

def defaultId (kind name variant : String) : QString :=
  qstr "hyprshelld.default." ++ qstr kind ++ unit '.' :: qstr name ++ unit '.' :: qstr variant

/-- One binding for each direction, first on the arrow keys and then on the vim keys. -/
def onDirections (make : (name key variant : String) → BindingConfiguration) : List BindingConfiguration :=
  (directions.map fun d => make d.1 d.2.1 "arrow") ++ (directions.map fun d => make d.1 d.2.2 "vim")

def onWorkspaces (make : (number : String) → BindingConfiguration) : List BindingConfiguration :=
  ["1", "2", "3", "4", "5", "6", "7", "8", "9"].map make

def windowDefaults : List BindingConfiguration := [
  binding (qstr "hyprshelld.default.session.exit") superShift "e" "exit" [] (qstr "Exit Hyprland"),
  binding (qstr "hyprshelld.default.window.close") superKey "q" "window.kill" [] (qstr "Close the focused window"),
  binding (qstr "hyprshelld.default.window.maximize") superKey "f" "window.fullscreen"
    [("mode", jsonText "maximized"), ("action", jsonText "toggle")] (qstr "Toggle maximized window"),
  binding (qstr "hyprshelld.default.window.fullscreen") superShift "f" "window.fullscreen"
    [("mode", jsonText "fullscreen"), ("action", jsonText "toggle")] (qstr "Toggle fullscreen window"),
  binding (qstr "hyprshelld.default.window.float") superShift "t" "window.float" [("action", jsonText "toggle")]
    (qstr "Toggle floating window"),
  binding (qstr "hyprshelld.default.window.group") superKey "w" "group.toggle" [] (qstr "Toggle the focused window group")]

def directionDefaults : List BindingConfiguration :=
  (onDirections fun name key variant =>
    binding (defaultId "focus.window" name variant) superKey key "focus"
      [("direction", jsonText name)] (qstr "Focus the window to the " ++ qstr name)) ++
  (onDirections fun name key variant =>
    binding (defaultId "move.window" name variant) superShift key "window.move"
      [("direction", jsonText name)] (qstr "Move the focused window " ++ qstr name))

def monitorDefaults : List BindingConfiguration :=
  ([("left", "Left", "arrow"), ("right", "Right", "arrow"), ("left", "h", "vim"), ("down", "j", "vim"),
      ("up", "k", "vim"), ("right", "l", "vim")].map fun (name, key, variant) =>
    binding (defaultId "focus.monitor" name variant) superCtrl key "focus"
      [("monitor", jsonText name)] (qstr "Focus the monitor to the " ++ qstr name)) ++
  (onDirections fun name key variant =>
    binding (defaultId "move.monitor" name variant) superShiftCtrl key "window.move"
      [("monitor", jsonText name)] (qstr "Move the focused window to the " ++ qstr name ++ qstr " monitor"))

def workspaceDefaults : List BindingConfiguration :=
  (onWorkspaces fun number =>
    binding (qstr "hyprshelld.default.focus.workspace." ++ qstr number) superKey number "focus"
      [("workspace", jsonText number)] (qstr "Focus workspace " ++ qstr number)) ++
  (onWorkspaces fun number =>
    binding (qstr "hyprshelld.default.move.workspace." ++ qstr number) superShift number "window.move"
      [("workspace", jsonText number)] (qstr "Move the focused window to workspace " ++ qstr number))

def resizeArguments (x y : Int) : List (String × QJsonValue) :=
  [("x", jsonInt x), ("y", jsonInt y), ("relative", .bool true)]

def pointerDefaults : List BindingConfiguration := [
  binding (qstr "hyprshelld.default.window.maximize-set") superCtrl "f" "window.fullscreen"
    [("mode", jsonText "maximized"), ("action", jsonText "set")] (qstr "Maximize the focused window"),
  binding (qstr "hyprshelld.default.window.drag") superKey "mouse:272" "window.drag" [] (qstr "Drag the focused window"),
  binding (qstr "hyprshelld.default.window.resize-pointer") superKey "mouse:273" "window.resize" []
    (qstr "Resize the focused window with the pointer"),
  binding (qstr "hyprshelld.default.window.resize-code-20") superKey "code:20" "window.resize"
    (resizeArguments (-100) 0) (qstr "Shrink the focused window horizontally"),
  binding (qstr "hyprshelld.default.window.resize-code-21") superKey "code:21" "window.resize"
    (resizeArguments 100 0) (qstr "Grow the focused window horizontally")]

def resizeDefaults : List BindingConfiguration :=
  [("width-decrease", superKey, "minus", resizeArguments (-100) 0, "Shrink the focused window horizontally"),
    ("width-increase", superKey, "equal", resizeArguments 100 0, "Grow the focused window horizontally"),
    ("height-decrease", superShift, "minus", resizeArguments 0 (-100), "Shrink the focused window vertically"),
    ("height-increase", superShift, "equal", resizeArguments 0 100, "Grow the focused window vertically")].map
    fun (id, modifiers, key, arguments, description) =>
      binding (qstr "hyprshelld.default.window.resize." ++ qstr id) modifiers key "window.resize" arguments
        (qstr description) { repeating := true }

def displayDefaults : List BindingConfiguration :=
  [binding (qstr "hyprshelld.default.display.dpms-toggle") superShift "p" "dpms" [("action", jsonText "toggle")]
    (qstr "Toggle display power")]

def unchordedDefaults : List BindingConfiguration :=
  windowDefaults ++ directionDefaults ++ monitorDefaults ++ workspaceDefaults ++ pointerDefaults ++
    resizeDefaults ++ displayDefaults

/-- The chord a record's modifiers and key name. -/
def withChord (record : BindingConfiguration) : BindingConfiguration :=
  { record with normalizedChord := (normalizeBindingChord p record.modifiers record.key).value.getD [] }

def shippedDefaultKeybindings : List BindingConfiguration := unchordedDefaults.map (withChord p)

def shippedDefaultKeybindingById (id : QString) : Option BindingConfiguration :=
  (shippedDefaultKeybindings p).find? (·.id = id)

def matchedShippedDefaultKeybinding (record : BindingConfiguration) : Option BindingConfiguration :=
  match shippedDefaultKeybindingById p record.id with
  | some byId => some byId
  | none => (shippedDefaultKeybindings p).find? fun candidate =>
      candidate.submap = record.submap && candidate.normalizedChord = record.normalizedChord

end HyprShelld.Hyprland
