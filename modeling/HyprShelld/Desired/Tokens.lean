import HyprShelld.Component.Identifiers
import HyprShelld.Desired.RoundTrip

/-! The tokens of a desired state that have a grammar of their own, and what the parser says about them. -/
namespace HyprShelld.Hyprland
open Json QJsonObject

section Grammar
variable (p : Platform)

/-- The C0 and C1 controls and DEL; the line breaks among them are control characters too. -/
def IsControl (c : Nat) : Prop := c < 0x20 ∨ 0x7f ≤ c ∧ c ≤ 0x9f

instance (c : Nat) : Decidable (IsControl c) := inferInstanceAs (Decidable (_ ∨ _))

def ControlFree (s : QString) : Prop := ∀ u ∈ s, ¬IsControl u.toNat

def EndsInLineFeed (s : QString) : Prop := s.getLast? = some (unit '\n')

/-- The whole text is of the grammar. -/
def Exactly (grammar : Pattern) (s : QString) : Prop := grammar.Language (Components.units s)

def IsDescription (s : QString) : Prop := ∃ description, s = qstr "desc:" ++ description ∧ isDescription p description = true

def IsNamed (marker : String) (s : QString) : Prop := ∃ name, s = qstr marker ++ name ∧ Exactly workspaceName name

/-- A positive decimal of at most ten digits in the range of a signed 32-bit integer. -/
def IsPositiveInt32 (s : QString) : Prop := Exactly (positive 9) s ∧ (toLongLong s).any (fun n => n ≤ maximumInt32) = true

def IsMonitorSpec (s : QString) : Prop :=
  s ∈ relativeMonitors ∨
    (Exactly monitorNumber s ∧ (toLongLong s).any (fun n => -maximumInt32 ≤ n && n ≤ maximumInt32) = true) ∨
    Exactly outputName s ∨ IsDescription p s

def relativeWorkspaces : List QString := [qstr "previous", qstr "previous_per_monitor", qstr "next", qstr "empty"]

def IsWorkspaceSpec (requireExisting : Bool) (s : QString) : Prop :=
  (requireExisting = false ∧ s ∈ relativeWorkspaces) ∨ s = qstr "special" ∨ IsNamed "name:" s ∨ IsNamed "special:" s ∨
    IsPositiveInt32 s

def expressionMarkers : List QString := [qstr "class:", qstr "initialclass:", qstr "title:", qstr "initialtitle:", qstr "tag:"]

/-- A selector by a regular expression. -/
def IsExpressionSelector (s : QString) : Prop :=
  ∃ marker ∈ expressionMarkers, ∃ expression, s = marker ++ expression ∧ expression ≠ [] ∧ compilesAsRe2 p expression = true

def windowStates : List QString := [qstr "active", qstr "floating", qstr "tiled"]

def windowPid : Pattern := .sequence (.text "pid:") (positive 9)
def windowStableId : Pattern := .sequence (.text "stableid:") lowerHexNumber
def windowAddress : Pattern := .sequence (.text "address:0x") lowerHexNumber

def IsWindowSelector (s : QString) : Prop :=
  s ∈ windowStates ∨ IsExpressionSelector p s ∨ Exactly windowStableId s ∨ Exactly windowAddress s ∨
    (Exactly windowPid s ∧ (toLongLong (s.drop 4)).any (fun n => n ≤ maximumInt32) = true)

/-- `[A-Za-z0-9_]{1,64}` -/
def keysymToken : Pattern := .charset (alphanumerics ++ [('_', '_')]) 1 (some 64)

inductive TokenKind
  | color | staticMonitor | monitorSpec | monitorTarget | workspaceRule | workspaceTarget
  | workspaceSpec (requireExisting : Bool)
  | windowSelector | windowTag | matchTag | windowStyle | workspaceStyle | layerStyle
  | animationStyle (name : QString)
  | key (allowBindingSpecials : Bool)
  deriving DecidableEq

/-- The documented grammar of each kind of token. -/
def TokenGrammar : TokenKind → QString → Prop
  | .color, s => Exactly canonicalColor s
  | .staticMonitor, s => (Exactly outputName s ∧ s ∉ relativeMonitors) ∨ IsDescription p s
  | .monitorSpec, s => IsMonitorSpec p s
  | .monitorTarget, s => s = qstr "unset" ∨ IsMonitorSpec p s
  | .workspaceRule, s => s = sharedSpacingWorkspaceRuleSelector ∨ IsPositiveInt32 s ∨ Exactly namedWorkspace s
  | .workspaceTarget, s => s = qstr "unset" ∨ IsWorkspaceSpec false s
  | .workspaceSpec requireExisting, s => IsWorkspaceSpec requireExisting s
  | .windowSelector, s => IsWindowSelector p s
  | .windowTag, s => Exactly windowTag s
  | .matchTag, s => isSchemaString p (.string s) 256 false = true
  | .windowStyle, s => Exactly (.either .empty windowStyle) s
  | .workspaceStyle, s => Exactly (.either .empty workspaceStyle) s
  | .layerStyle, s => Exactly layerStyle s
  | .animationStyle name, s => s = [] ∨
      (memberOf ["windows", "windowsIn", "windowsOut", "windowsMove"] name = true ∧ Exactly windowStyle s) ∨
      (memberOf ["workspaces", "workspacesIn", "workspacesOut", "specialWorkspace", "specialWorkspaceIn",
        "specialWorkspaceOut"] name = true ∧ Exactly workspaceStyle s) ∨
      (memberOf ["borderangle", "shadowangle", "glowangle"] name = true ∧ memberOf ["loop", "once"] s = true) ∨
      (memberOf ["layers", "layersIn", "layersOut"] name = true ∧ Exactly layerStyle s)
  | .key allowBindingSpecials, s =>
      (allowBindingSpecials = true ∧ (s ∈ wheelTokens ∨ s = qstr "catchall")) ∨
        (Exactly numericToken s ∧ isNumericKey s allowBindingSpecials = true) ∨ Exactly keysymToken s

end Grammar

section Collection

def gradientTokens (v : QJsonValue) : List (TokenKind × QString) :=
  (QJsonObject.value v.toObject (qstr "colors")).toArray.map fun color => (.color, color.toString)

def stringToken (object : QJsonObject) (key : String) (kind : TokenKind) : List (TokenKind × QString) :=
  match object.value (qstr key) with
  | .string s => [(kind, s)]
  | _ => []

def targetToken (object : QJsonObject) (key : String) (kind : TokenKind) : List (TokenKind × QString) :=
  match object.value (qstr key) with
  | .object target => [(kind, (QJsonObject.value target (qstr "target")).toString)]
  | _ => []

/-- A selector that may be left empty. -/
def optionalToken (kind : TokenKind) (s : QString) : List (TokenKind × QString) := if s.isEmpty then [] else [(kind, s)]

def overrideTokens (catalog : Catalog) (entry : QString × QJsonValue) : List (TokenKind × QString) :=
  match findOption catalog entry.1 with
  | none => []
  | some option =>
    (if option.type = .gradient then gradientTokens entry.2 else []) ++
      (if option.path = qstr "cursor:default_monitor" then optionalToken .staticMonitor entry.2.toString else [])

def monitorTokens (record : MonitorConfiguration) : List (TokenKind × QString) :=
  (.staticMonitor, record.selector) :: optionalToken .staticMonitor record.mirror

def workspaceRuleTokens (record : WorkspaceRule) : List (TokenKind × QString) :=
  (.workspaceRule, record.selector) ::
    (optionalToken .staticMonitor record.monitor ++ stringToken record.overrides "animation" .workspaceStyle)

def windowRuleTokens (record : WindowRule) : List (TokenKind × QString) :=
  stringToken record.ruleMatch "workspace" .workspaceRule ++ stringToken record.ruleMatch "tag" .matchTag ++
    targetToken record.effects "monitor" .monitorTarget ++ targetToken record.effects "workspace" .workspaceTarget ++
    stringToken record.effects "animation" .windowStyle ++ stringToken record.effects "tag" .windowTag ++
    gradientTokens (record.effects.value (qstr "border_color"))

def layerRuleTokens (record : LayerRule) : List (TokenKind × QString) := stringToken record.effects "animation" .layerStyle

def argumentTokens (action : QString) (arguments : QJsonObject) : List (TokenKind × QString) :=
  stringToken arguments "window" .windowSelector ++ stringToken arguments "target" .windowSelector ++
    stringToken arguments "workspace"
      (.workspaceSpec ([qstr "workspace.rename", qstr "workspace.change_id", qstr "workspace.move"].contains action)) ++
    stringToken arguments "monitor" .monitorSpec ++ stringToken arguments "monitor1" .monitorSpec ++
    stringToken arguments "monitor2" .monitorSpec ++
    (if action = qstr "window.tag" then stringToken arguments "tag" .windowTag else []) ++
    (if action = qstr "send_shortcut" ∨ action = qstr "send_key_state" then stringToken arguments "key" (.key false) else [])

def bindingTokens (record : BindingConfiguration) : List (TokenKind × QString) :=
  (.key true, record.key) ::
    if record.actionType = .dispatcher then argumentTokens record.action record.arguments else []

/-- Every token of a state that has a grammar of its own. -/
def tokens (catalog : Catalog) (state : DesiredState) : List (TokenKind × QString) :=
  state.overrides.flatMap (overrideTokens catalog) ++ state.monitors.flatMap monitorTokens ++
    state.animations.map (fun record => (.animationStyle record.name, record.style)) ++
    state.workspaceRules.flatMap workspaceRuleTokens ++ state.windowRules.flatMap windowRuleTokens ++
    state.layerRules.flatMap layerRuleTokens ++ state.bindings.flatMap bindingTokens

end Collection

section Accepted
variable (p : Platform)

/-- What the parser checks of each kind of token. -/
def TokenAccepted : TokenKind → QString → Prop
  | .color, s => hasMatch canonicalColor s = true
  | .staticMonitor, s => ∃ path, (validateStaticMonitorSelector p s path).errors = []
  | .monitorSpec, s => ∃ path, (validateMonitorSpec p s path).errors = []
  | .monitorTarget, s => s = qstr "unset" ∨ ∃ path, (validateMonitorSpec p s path).errors = []
  | .workspaceRule, s => ∃ id path, (validateWorkspaceRuleSelector s id path).errors = []
  | .workspaceTarget, s => s = qstr "unset" ∨ ∃ path, (validateWorkspaceSpec s path false).errors = []
  | .workspaceSpec requireExisting, s => ∃ path, (validateWorkspaceSpec s path requireExisting).errors = []
  | .windowSelector, s => ∃ path, (validateWindowSelector p s path).errors = []
  | .windowTag, s => hasMatch windowTag s = true
  | .matchTag, s => isSchemaString p (.string s) 256 false = true
  | .windowStyle, s => isWindowAnimationStyle s = true
  | .workspaceStyle, s => isWorkspaceAnimationStyle s = true
  | .layerStyle, s => isLayerAnimationStyle s = true
  | .animationStyle name, s => isAnimationStyle name s = true
  | .key allowBindingSpecials, s => ∃ path, (canonicalBindingKey p s path true allowBindingSpecials).errors = []

/-- A line feed at the end, or a control character in the expression of a selector, which the grammar
of a token does not have. -/
def MisreadToken (token : TokenKind × QString) : Prop :=
  EndsInLineFeed token.2 ∨ token.1 = .windowSelector ∧ ∃ marker ∈ expressionMarkers, ∃ expression,
    token.2 = marker ++ expression ∧ ¬ControlFree expression

/-- What the libraries document of control characters and of the names of keysyms. -/
structure Platform.Tabulated : Prop where
  control : ∀ c, IsControl c → p.unicode.isControlOrFormat c = true
  keysym : ∀ symbol name, keysymName p symbol = some name →
    ∀ u ∈ name, Pattern.among (alphanumerics ++ [('_', '_')]) u.toNat = true

end Accepted

section Printable
open Pattern Components

/-- The printable characters of ASCII. -/
def Printable (c : Nat) : Prop := 0x20 ≤ c ∧ c ≤ 0x7e

instance (c : Nat) : Decidable (Printable c) := inferInstanceAs (Decidable (_ ∧ _))

theorem printable_charset {ranges : List (Char × Char)} {least : Nat} {most : Option Nat}
    (h : ∀ r ∈ ranges, 0x20 ≤ r.1.toNat ∧ r.2.toNat ≤ 0x7e) : (Pattern.charset ranges least most).Over Printable :=
  over_charset fun r hr _ hlower hupper => ⟨Nat.le_trans (h r hr).1 hlower, Nat.le_trans hupper (h r hr).2⟩

theorem printable_text {s : String} (h : ∀ c ∈ s.toList.map Char.toNat, Printable c) : (Pattern.text s).Over Printable := h

theorem outputName_printable : outputName.Over Printable :=
  .intro (printable_charset (by decide)) (printable_charset (by decide))

theorem workspaceName_printable : workspaceName.Over Printable :=
  .intro (printable_charset (by decide)) (printable_charset (by decide))

theorem positive_printable (n : Nat) : (positive n).Over Printable :=
  .intro (printable_charset (by decide)) (printable_charset (by decide))

theorem lowerHexNumber_printable : lowerHexNumber.Over Printable :=
  .intro (printable_charset (by decide)) (printable_charset (by decide))

theorem sign_printable : (Pattern.charset [('+', '+'), ('-', '-')] 1 (some 1)).Over Printable := printable_charset (by decide)

theorem canonicalColor_printable : canonicalColor.Over Printable :=
  .intro (printable_text (by decide)) (printable_charset (by decide))

theorem monitorNumber_printable : monitorNumber.Over Printable :=
  .intro (printable_text (by decide)) (.intro (positive_printable 9) (.intro sign_printable (positive_printable 9)))

theorem namedWorkspace_printable : namedWorkspace.Over Printable :=
  .intro (.intro (printable_text (by decide)) workspaceName_printable)
    (.intro (printable_text (by decide)) (.intro (.intro (printable_text (by decide)) workspaceName_printable) trivial))

theorem windowTag_printable : windowTag.Over Printable :=
  .intro (.intro sign_printable trivial) (.intro (printable_charset (by decide)) (printable_charset (by decide)))

theorem windowPid_printable : windowPid.Over Printable := .intro (printable_text (by decide)) (positive_printable 9)

theorem windowStableId_printable : windowStableId.Over Printable := .intro (printable_text (by decide)) lowerHexNumber_printable

theorem windowAddress_printable : windowAddress.Over Printable := .intro (printable_text (by decide)) lowerHexNumber_printable

theorem numericToken_printable : numericToken.Over Printable :=
  .intro (.intro (printable_text (by decide)) (printable_text (by decide)))
    (.intro (printable_text (by decide)) (.intro (.intro (printable_text (by decide)) (positive_printable 9)) trivial))

theorem keysymToken_printable : keysymToken.Over Printable := printable_charset (by decide)

theorem sideSuffix_printable : sideSuffix.Over Printable :=
  .intro (.intro (printable_text (by decide)) (.intro (.intro (printable_text (by decide)) (.intro (printable_text (by decide))
    (.intro (printable_text (by decide)) (printable_text (by decide))))) trivial)) trivial

theorem percentSuffix_printable : percentSuffix.Over Printable :=
  .intro (.intro (printable_text (by decide)) (.intro (.intro (printable_text (by decide)) (.intro (positive_printable 1)
    (printable_text (by decide)))) (.intro (printable_text (by decide)) trivial))) trivial

theorem windowStyle_printable : windowStyle.Over Printable :=
  .intro (.intro (printable_text (by decide)) sideSuffix_printable) (.intro (printable_text (by decide))
    (.intro (printable_text (by decide)) (.intro (printable_text (by decide)) percentSuffix_printable)))

theorem workspaceStyle_printable : workspaceStyle.Over Printable :=
  .intro (printable_text (by decide)) (.intro (.intro (printable_text (by decide)) (.intro (printable_text (by decide))
    (.intro (printable_text (by decide)) (printable_text (by decide)))))
    (.intro sideSuffix_printable (.intro percentSuffix_printable trivial)))

theorem layerStyle_printable : layerStyle.Over Printable :=
  .intro trivial (.intro (printable_text (by decide)) (.intro (.intro (printable_text (by decide)) sideSuffix_printable)
    (.intro (printable_text (by decide)) percentSuffix_printable)))

theorem printable_orEmpty {a : Pattern} (h : a.Over Printable) : (Pattern.either .empty a).Over Printable := ⟨trivial, h⟩

theorem controlFree_of_exactly {grammar : Pattern} (hover : grammar.Over Printable) {s : QString}
    (h : Exactly grammar s) : ControlFree s := by
  intro u hu hcontrol
  obtain ⟨hlower, hupper⟩ := hover.language h u.toNat (List.mem_map_of_mem hu)
  unfold IsControl at hcontrol
  omega

/-- Away from a final line feed an anchored expression accepts its own texts only. -/
theorem exactly_of_hasMatch {grammar : Pattern} (hover : grammar.Over Printable) {s : QString}
    (h : hasMatch grammar s = true) (hend : ¬EndsInLineFeed s) : Exactly grammar s ∧ ControlFree s := by
  have hbasic (t : List Nat) (ht : grammar.Language t) : ∀ c ∈ t, c < 0xd800 := by
    intro c hc
    obtain ⟨-, hupper⟩ := hover.language ht c hc
    omega
  have hexact : Exactly grammar s := by
    rcases (hasMatch_iff (fun _ => Iff.rfl) hbasic).mp h with h | ⟨t, ht, -⟩
    · exact h
    · obtain ⟨front, back, rfl, -, hback⟩ := List.map_eq_append_iff.mp ht
      obtain ⟨u, rfl, hu⟩ := List.map_eq_singleton_iff.mp hback
      obtain rfl : u = unit '\n' := UInt16.toNat_inj.mp hu
      exact absurd (List.getLast?_concat) hend
  exact ⟨hexact, controlFree_of_exactly hover hexact⟩

end Printable

section Exact
variable {p : Platform} {s path : QString}

/-- A token of its grammar and without control characters. -/
def ExactToken (p : Platform) (token : TokenKind × QString) : Prop := TokenGrammar p token.1 token.2 ∧ ControlFree token.2

theorem controlFree_append {a b : QString} : ControlFree (a ++ b) ↔ ControlFree a ∧ ControlFree b := by
  simp only [ControlFree, List.mem_append, or_imp, forall_and]

/-- The fixed words of the grammars. -/
def grammarWords : List QString :=
  relativeMonitors ++ relativeWorkspaces ++ windowStates ++ wheelTokens ++ expressionMarkers ++
    [qstr "unset", qstr "special", qstr "catchall", qstr "loop", qstr "once", sharedSpacingWorkspaceRuleSelector,
      qstr "desc:", qstr "name:", qstr "special:"]

theorem grammarWords_clean : (grammarWords.all fun word => word.all fun u => 0x20 ≤ u.toNat && u.toNat < 0x7f) = true := by
  decide +kernel

theorem controlFree_of_word {word : QString} (h : word ∈ grammarWords) : ControlFree word := by
  intro u hu hcontrol
  have hclean := List.all_eq_true.mp (List.all_eq_true.mp grammarWords_clean word h) u hu
  simp only [Bool.and_eq_true, decide_eq_true_eq] at hclean
  unfold IsControl at hcontrol
  omega

theorem startsWith_drop {s marker : QString} (h : startsWith s marker = true) : s = marker ++ s.drop marker.length := by
  obtain ⟨rest, rfl⟩ := List.isPrefixOf_iff_prefix.mp h
  rw [List.drop_left]

theorem mem_toUcs4 {u : UInt16} (hu : u.toNat < 0xd800) (hmem : u ∈ s) : u.toNat ∈ toUcs4 s := by
  fun_induction toUcs4 s with
  | case1 => exact absurd hmem List.not_mem_nil
  | case2 => grind [isHighSurrogate]
  | case3 => grind [isHighSurrogate, isLowSurrogate]
  | case4 => grind [isHighSurrogate]
  | case5 => grind [isLowSurrogate]
  | case6 => grind

theorem controlFree_of_clean (tabulated : p.Tabulated) (h : hasDisallowedCharacter p s false = false) : ControlFree s := by
  intro u hu hcontrol
  have hbasic : u.toNat < 0xd800 := by
    unfold IsControl at hcontrol
    omega
  have hallowed := List.any_eq_false.mp h u.toNat (mem_toUcs4 hbasic hu)
  simp [isControlOrFormat, tabulated.control _ hcontrol] at hallowed

theorem description_exact (tabulated : p.Tabulated)
    (h : (startsWith s (qstr "desc:") && isDescription p (s.drop 5)) = true) : IsDescription p s ∧ ControlFree s := by
  obtain ⟨hstarts, hdescription⟩ := Bool.and_eq_true_iff.mp h
  have hlength : (qstr "desc:").length = 5 := by decide +kernel
  have hsplit := startsWith_drop hstarts
  rw [hlength] at hsplit
  refine ⟨⟨_, hsplit, hdescription⟩, ?_⟩
  rw [hsplit, controlFree_append]
  refine ⟨controlFree_of_word (by decide +kernel), controlFree_of_clean tabulated ?_⟩
  simpa using (Bool.and_eq_true_iff.mp hdescription).2

theorem staticMonitor_exact (tabulated : p.Tabulated) (h : (validateStaticMonitorSelector p s path).errors = [])
    (hend : ¬EndsInLineFeed s) : ExactToken p (.staticMonitor, s) := by
  simp only [validateStaticMonitorSelector, Checked.rejectIf_errors, Bool.and_eq_false_iff, Bool.not_eq_false'] at h
  rcases h with h | h
  · obtain ⟨hname, hrelative⟩ := Bool.and_eq_true_iff.mp h
    obtain ⟨hexact, hfree⟩ := exactly_of_hasMatch outputName_printable hname hend
    exact ⟨.inl ⟨hexact, by simpa using hrelative⟩, hfree⟩
  · obtain ⟨hdescription, hfree⟩ := description_exact tabulated h
    exact ⟨.inr hdescription, hfree⟩

theorem monitorSpec_exact (tabulated : p.Tabulated) (h : (validateMonitorSpec p s path).errors = [])
    (hend : ¬EndsInLineFeed s) : IsMonitorSpec p s ∧ ControlFree s := by
  simp only [validateMonitorSpec, Checked.rejectIf_errors, Bool.and_eq_false_iff, Bool.not_eq_false'] at h
  rcases h with ((h | h) | h) | h
  · have hword : s ∈ relativeMonitors := by simpa using h
    exact ⟨.inl hword, controlFree_of_word (by simp [grammarWords, hword])⟩
  · obtain ⟨hnumber, hrange⟩ := Bool.and_eq_true_iff.mp h
    obtain ⟨hexact, hfree⟩ := exactly_of_hasMatch monitorNumber_printable hnumber hend
    exact ⟨.inr (.inl ⟨hexact, hrange⟩), hfree⟩
  · obtain ⟨hexact, hfree⟩ := exactly_of_hasMatch outputName_printable h hend
    exact ⟨.inr (.inr (.inl hexact)), hfree⟩
  · obtain ⟨hdescription, hfree⟩ := description_exact tabulated h
    exact ⟨.inr (.inr (.inr hdescription)), hfree⟩

theorem positiveInt32_exact (h : isInt32Decimal s = true) (hend : ¬EndsInLineFeed s) : IsPositiveInt32 s ∧ ControlFree s := by
  obtain ⟨hdecimal, hrange⟩ := Bool.and_eq_true_iff.mp h
  obtain ⟨hexact, hfree⟩ := exactly_of_hasMatch (positive_printable 9) hdecimal hend
  exact ⟨⟨hexact, hrange⟩, hfree⟩

theorem workspaceRule_exact {id : QString} (h : (validateWorkspaceRuleSelector s id path).errors = [])
    (hend : ¬EndsInLineFeed s) : ExactToken p (.workspaceRule, s) := by
  unfold validateWorkspaceRuleSelector at h
  split_ifs at h with hshared
  · exact ⟨.inl hshared, controlFree_of_word (by simp [grammarWords, hshared])⟩
  · simp only [Checked.rejectIf_errors, Bool.and_eq_false_iff, Bool.not_eq_false'] at h
    rcases h with h | h
    · obtain ⟨hdecimal, hfree⟩ := positiveInt32_exact h hend
      exact ⟨.inr (.inl hdecimal), hfree⟩
    · obtain ⟨hexact, hfree⟩ := exactly_of_hasMatch namedWorkspace_printable h hend
      exact ⟨.inr (.inr hexact), hfree⟩

theorem endsInLineFeed_append {a b : QString} (h : EndsInLineFeed b) : EndsInLineFeed (a ++ b) := by
  unfold EndsInLineFeed at h ⊢
  rw [List.getLast?_append, h, Option.some_or]

theorem named_exact {marker : String} (hmarker : qstr marker ∈ grammarWords)
    (h : (startsWith s (qstr marker) && isPinnedWorkspaceName (s.drop (qstr marker).length)) = true)
    (hend : ¬EndsInLineFeed s) : IsNamed marker s ∧ ControlFree s := by
  obtain ⟨hstarts, hname⟩ := Bool.and_eq_true_iff.mp h
  have hsplit := startsWith_drop hstarts
  obtain ⟨hexact, hfree⟩ := exactly_of_hasMatch workspaceName_printable hname
    fun hname => hend (hsplit ▸ endsInLineFeed_append hname)
  refine ⟨⟨_, hsplit, hexact⟩, ?_⟩
  rw [hsplit, controlFree_append]
  exact ⟨controlFree_of_word hmarker, hfree⟩

theorem workspaceSpec_exact {requireExisting : Bool} (h : (validateWorkspaceSpec s path requireExisting).errors = [])
    (hend : ¬EndsInLineFeed s) : IsWorkspaceSpec requireExisting s ∧ ControlFree s := by
  simp only [validateWorkspaceSpec, Checked.rejectIf_errors, Bool.and_eq_false_iff, Bool.not_eq_false'] at h
  rcases h with (((h | h) | h) | h) | h
  · obtain ⟨hnew, hword⟩ := Bool.and_eq_true_iff.mp h
    have hword : s ∈ relativeWorkspaces := by simpa [relativeWorkspaces] using hword
    exact ⟨.inl ⟨by simpa using hnew, hword⟩, controlFree_of_word (by simp [grammarWords, hword])⟩
  · have hword : s = qstr "special" := by simpa using h
    exact ⟨.inr (.inl hword), controlFree_of_word (by simp [grammarWords, hword])⟩
  · obtain ⟨hnamed, hfree⟩ := named_exact (by simp [grammarWords]) h hend
    exact ⟨.inr (.inr (.inl hnamed)), hfree⟩
  · obtain ⟨hnamed, hfree⟩ := named_exact (by simp [grammarWords]) h hend
    exact ⟨.inr (.inr (.inr (.inl hnamed))), hfree⟩
  · obtain ⟨hdecimal, hfree⟩ := positiveInt32_exact h hend
    exact ⟨.inr (.inr (.inr (.inr hdecimal))), hfree⟩

theorem windowSelector_exact (h : (validateWindowSelector p s path).errors = []) (hread : ¬MisreadToken (.windowSelector, s)) :
    ExactToken p (.windowSelector, s) := by
  have hend : ¬EndsInLineFeed s := fun hend => hread (.inl hend)
  unfold validateWindowSelector at h
  split_ifs at h with hstate
  · have hword : s ∈ windowStates := by simpa [windowStates] using hstate
    exact ⟨.inl hword, controlFree_of_word (by simp [grammarWords, hword])⟩
  split at h
  · rename_i marker hfound
    have hmarker : marker ∈ expressionMarkers := List.mem_of_find?_eq_some hfound
    have hsplit := startsWith_drop (List.find?_some hfound)
    simp only [Checked.rejectIf_errors, Bool.or_eq_false_iff, Bool.not_eq_false'] at h
    refine ⟨.inr (.inl ⟨marker, hmarker, _, hsplit, by simpa using h.1, h.2⟩), ?_⟩
    by_contra hcontrol
    refine hread (.inr ⟨rfl, marker, hmarker, _, hsplit, fun hexpression => hcontrol ?_⟩)
    rw [hsplit, controlFree_append]
    exact ⟨controlFree_of_word (by simp [grammarWords, hmarker]), hexpression⟩
  · simp only [Checked.rejectIf_errors, Bool.and_eq_false_iff, Bool.not_eq_false'] at h
    rcases h with (h | h) | h
    · obtain ⟨hexact, hfree⟩ := exactly_of_hasMatch windowStableId_printable h hend
      exact ⟨.inr (.inr (.inl hexact)), hfree⟩
    · obtain ⟨hexact, hfree⟩ := exactly_of_hasMatch windowAddress_printable h hend
      exact ⟨.inr (.inr (.inr (.inl hexact))), hfree⟩
    · obtain ⟨hpid, hrange⟩ := Bool.and_eq_true_iff.mp h
      obtain ⟨hexact, hfree⟩ := exactly_of_hasMatch windowPid_printable hpid hend
      exact ⟨.inr (.inr (.inr (.inr ⟨hexact, hrange⟩))), hfree⟩

/-- A key of letters, digits and underscores that is one lexical token is a keysym token. -/
theorem keysymToken_of_lexical (tabulated : p.Tabulated) {symbol : Nat} (hname : keysymName p symbol = some s)
    (hlexical : hasMatch lexicalKey s = true) : Exactly keysymToken s := by
  have hall := tabulated.keysym symbol s hname
  have hunits : ∀ c ∈ Components.units s, Pattern.among (alphanumerics ++ [('_', '_')]) c = true := by
    simpa [Components.units] using hall
  have hbelow : ∀ c ∈ Components.units s, c < 0x7f ∧ c ≠ 0x0a := by
    intro c hc
    have hc := hunits c hc
    simp only [Pattern.among, alphanumerics, List.cons_append, List.nil_append, List.any_cons, List.any_nil, Bool.or_false,
      Bool.or_eq_true, Bool.and_eq_true, decide_eq_true_eq] at hc
    change (65 ≤ c ∧ c ≤ 90) ∨ (97 ≤ c ∧ c ≤ 122) ∨ (48 ≤ c ∧ c ≤ 57) ∨ (95 ≤ c ∧ c ≤ 95) at hc
    omega
  have hcodes : toUcs4 s = Components.units s := Components.toUcs4_units fun c hc => by have := hbelow c hc; omega
  have hlanguage : lexicalKey.Language (Components.units s) := by
    rw [← hcodes]
    refine Pattern.language_of_matchesWhole hlexical fun hfeed => ?_
    rw [hcodes] at hfeed
    exact (hbelow _ hfeed).2 rfl
  exact ⟨hunits, hlanguage.2⟩

theorem key_exact (tabulated : p.Tabulated) {allow : Bool} (h : (canonicalBindingKey p s path true allow).errors = [])
    (hend : ¬EndsInLineFeed s) : ExactToken p (.key allow, s) := by
  revert h
  unfold canonicalBindingKey
  split_ifs with hlexical hwheel hallow hnumeric hdomain
  · simp [refuseKey]
  · simp [refuseKey]
  · intro _
    have hword : s ∈ wheelTokens ∨ s = qstr "catchall" := by simpa using hwheel
    refine ⟨.inl ⟨by simpa using hallow, hword⟩, controlFree_of_word ?_⟩
    rcases hword with hword | hword <;> simp [grammarWords, hword]
  · simp [refuseKey]
  · intro _
    obtain ⟨hexact, hfree⟩ := exactly_of_hasMatch numericToken_printable hnumeric hend
    exact ⟨.inr (.inl ⟨hexact, by simpa using hdomain⟩), hfree⟩
  · split
    · simp [refuseKey]
    · rename_i symbol _
      split
      · simp [refuseKey]
      · rename_i canonical hname
        split_ifs with hcanonical
        · simp [refuseKey]
        · intro _
          obtain rfl : s = canonical := by simpa using hcanonical
          have hexact := keysymToken_of_lexical tabulated hname (by simpa using hlexical)
          exact ⟨.inr (.inr hexact), controlFree_of_exactly keysymToken_printable hexact⟩

theorem style_exact {name : QString} (h : isAnimationStyle name s = true) (hend : ¬EndsInLineFeed s) :
    ExactToken p (.animationStyle name, s) := by
  unfold isAnimationStyle at h
  split_ifs at h with hempty hwindows hworkspaces hangles hlayers
  · have hnil : s = [] := by simpa using hempty
    exact ⟨.inl hnil, by simp [hnil, ControlFree]⟩
  · obtain ⟨hexact, hfree⟩ := exactly_of_hasMatch windowStyle_printable h hend
    exact ⟨.inr (.inl ⟨hwindows, hexact⟩), hfree⟩
  · obtain ⟨hexact, hfree⟩ := exactly_of_hasMatch workspaceStyle_printable h hend
    exact ⟨.inr (.inr (.inl ⟨hworkspaces, hexact⟩)), hfree⟩
  · refine ⟨.inr (.inr (.inr (.inl ⟨hangles, h⟩))), controlFree_of_word ?_⟩
    have hword : s = qstr "loop" ∨ s = qstr "once" := by simpa [memberOf] using h
    rcases hword with hword | hword <;> simp [grammarWords, hword]
  · obtain ⟨hexact, hfree⟩ := exactly_of_hasMatch layerStyle_printable h hend
    exact ⟨.inr (.inr (.inr (.inr ⟨hlayers, hexact⟩))), hfree⟩

theorem controlFree_unset : ControlFree (qstr "unset") := controlFree_of_word (by simp [grammarWords])

/-- An accepted token is exact unless it is misread. -/
theorem accepted_exact (tabulated : p.Tabulated) {token : TokenKind × QString} (h : TokenAccepted p token.1 token.2)
    (hread : ¬MisreadToken token) : ExactToken p token := by
  obtain ⟨kind, s⟩ := token
  have hend : ¬EndsInLineFeed s := fun hend => hread (.inl hend)
  cases kind with
  | color => exact exactly_of_hasMatch canonicalColor_printable h hend
  | staticMonitor =>
    obtain ⟨path, h⟩ := h
    exact staticMonitor_exact tabulated h hend
  | monitorSpec =>
    obtain ⟨path, h⟩ := h
    exact monitorSpec_exact tabulated h hend
  | monitorTarget =>
    rcases h with h | ⟨path, h⟩
    · exact ⟨.inl h, h ▸ controlFree_unset⟩
    · obtain ⟨hspec, hfree⟩ := monitorSpec_exact tabulated h hend
      exact ⟨.inr hspec, hfree⟩
  | workspaceRule =>
    obtain ⟨id, path, h⟩ := h
    exact workspaceRule_exact h hend
  | workspaceTarget =>
    rcases h with h | ⟨path, h⟩
    · exact ⟨.inl h, h ▸ controlFree_unset⟩
    · obtain ⟨hspec, hfree⟩ := workspaceSpec_exact h hend
      exact ⟨.inr hspec, hfree⟩
  | workspaceSpec requireExisting =>
    obtain ⟨path, h⟩ := h
    exact workspaceSpec_exact h hend
  | windowSelector =>
    obtain ⟨path, h⟩ := h
    exact windowSelector_exact h hread
  | windowTag => exact exactly_of_hasMatch windowTag_printable h hend
  | matchTag =>
    refine ⟨h, controlFree_of_clean tabulated ?_⟩
    simpa [QJsonValue.toString] using (Bool.and_eq_true_iff.mp h).2
  | windowStyle => exact exactly_of_hasMatch (printable_orEmpty windowStyle_printable) h hend
  | workspaceStyle => exact exactly_of_hasMatch (printable_orEmpty workspaceStyle_printable) h hend
  | layerStyle => exact exactly_of_hasMatch layerStyle_printable h hend
  | animationStyle name => exact style_exact h hend
  | key allow =>
    obtain ⟨path, h⟩ := h
    exact key_exact tabulated h hend

/-- A token without control characters is not misread. -/
theorem not_misread {token : TokenKind × QString} (h : ControlFree token.2) : ¬MisreadToken token := by
  rintro (hend | ⟨-, marker, -, expression, hsplit, hcontrol⟩)
  · exact h (unit '\n') (List.mem_of_getLast? hend) (.inl (by decide))
  · rw [hsplit, controlFree_append] at h
    exact hcontrol h.2

end Exact

end HyprShelld.Hyprland
