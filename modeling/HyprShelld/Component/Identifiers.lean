import HyprShelld.Component.SettingsSchema
import HyprShelld.Support.Repetition
import HyprShelld.Surface.Plan

/-! The grammars of identifiers, and what the checks accept. -/
namespace HyprShelld.Components
open Pattern

/-- The check of a layout id in a configuration. -/
def isLayoutId (value : QString) : Bool := value.length ≤ 64 && isKebabCase value

def digits : List (Char × Char) := [('0', '9')]
def identifierCharacters : List (Char × Char) := [('0', '9'), ('A', 'Z'), ('a', 'z'), ('-', '-')]

def numericIdentifier : Pattern :=
  .either (.text "0") (.sequence (.charset [('1', '9')] 1 (some 1)) (.charset digits 0 none))

def prereleaseIdentifier : Pattern :=
  .anyOf [.text "0", .sequence (.charset [('1', '9')] 1 (some 1)) (.charset digits 0 none),
    .sequenceOf [.charset digits 0 none, .charset [('A', 'Z'), ('a', 'z'), ('-', '-')] 1 (some 1),
      .charset identifierCharacters 0 none]]

def buildIdentifier : Pattern := .charset identifierCharacters 1 none

def versionCore : Pattern :=
  .sequenceOf [numericIdentifier, .text ".", numericIdentifier, .text ".", numericIdentifier]

/-- An optional part: a sign, and identifiers separated by dots. -/
def optionalIdentifiers (sign : String) (p : Pattern) (s : List Nat) : List (List Nat) :=
  s :: ((Pattern.sequence (.text sign) p).remainders s).flatMap fun rest =>
    (Pattern.sequence (.text ".") p).repeated rest.length rest

def isStrictSemanticVersion (version : QString) : Bool :=
  version.length ≤ 64 &&
    ((versionCore.remainders (toUcs4 version)).flatMap fun s =>
      (optionalIdentifiers "-" prereleaseIdentifier s).flatMap (optionalIdentifiers "+" buildIdentifier)).any
        fun rest => rest = [] || rest = [0x0a]

def units (s : QString) : List Nat := s.map UInt16.toNat

section Grammars

def IsDigit (c : Nat) : Prop := 0x30 ≤ c ∧ c ≤ 0x39
def IsLower (c : Nat) : Prop := 0x61 ≤ c ∧ c ≤ 0x7a
def IsUpper (c : Nat) : Prop := 0x41 ≤ c ∧ c ≤ 0x5a
def IsHex (c : Nat) : Prop := IsDigit c ∨ 0x61 ≤ c ∧ c ≤ 0x66
def IsIdentifierCharacter (c : Nat) : Prop := IsDigit c ∨ IsUpper c ∨ IsLower c ∨ c = 0x2d

/-- Sixty-four lower case hexadecimal digits. -/
def Digest (t : List Nat) : Prop := t.length = 64 ∧ ∀ c ∈ t, IsHex c

/-- The thirty-six characters of a UUID of version 4 and variant 1. -/
def UuidV4 (t : List Nat) : Prop :=
  ∃ a b c d e v, t = a ++ 0x2d :: b ++ 0x2d :: 0x34 :: c ++ 0x2d :: v :: d ++ 0x2d :: e ∧
    (a.length = 8 ∧ b.length = 4 ∧ c.length = 3 ∧ d.length = 3 ∧ e.length = 12) ∧
    (∀ x ∈ a ++ b ++ c ++ d ++ e, IsHex x) ∧ v ∈ [0x38, 0x39, 0x61, 0x62]

/-- Words of lower case letters and digits joined by single hyphens, the first of which starts with
a letter. -/
def KebabCase (t : List Nat) : Prop :=
  ∃ words, t = [0x2d].intercalate words ∧ (∃ c, t.head? = some c ∧ IsLower c) ∧
    ∀ word ∈ words, word ≠ [] ∧ ∀ c ∈ word, IsLower c ∨ IsDigit c

def LayoutId (t : List Nat) : Prop := t.length ≤ 64 ∧ KebabCase t

def SettingKey (t : List Nat) : Prop :=
  t.length ≤ 64 ∧ (∃ c, t.head? = some c ∧ IsLower c) ∧ ∀ c ∈ t, IsLower c ∨ IsUpper c ∨ IsDigit c

/-- A label of a component id: at most 63 lower case letters, digits and hyphens, a letter first and no
hyphen last. -/
structure Label (t : List Nat) : Prop where
  length : t.length ≤ 63
  first : ∃ c, t.head? = some c ∧ IsLower c
  characters : ∀ c ∈ t, IsLower c ∨ IsDigit c ∨ c = 0x2d
  last : t.getLast? ≠ some 0x2d

/-- At least three labels, separated by dots. -/
def ComponentId (s : QString) : Prop :=
  s.length ≤ 255 ∧ 3 ≤ (splitAt s '.').length ∧ ∀ label ∈ splitAt s '.', Label (units label)

/-- Decimal digits without a leading zero. -/
def NumericIdentifier (t : List Nat) : Prop :=
  t ≠ [] ∧ (∀ c ∈ t, IsDigit c) ∧ (t.head? = some 0x30 → t = [0x30])

/-- One that consists of digits only is a number. -/
def PrereleaseIdentifier (t : List Nat) : Prop :=
  t ≠ [] ∧ (∀ c ∈ t, IsIdentifierCharacter c) ∧ ((∀ c ∈ t, IsDigit c) → NumericIdentifier t)

def BuildIdentifier (t : List Nat) : Prop := t ≠ [] ∧ ∀ c ∈ t, IsIdentifierCharacter c

/-- Nothing, or a sign and identifiers separated by dots. -/
def OptionalIdentifiers (sign : Nat) (identifier : List Nat → Prop) (t : List Nat) : Prop :=
  t = [] ∨ ∃ identifiers, identifiers ≠ [] ∧ t = sign :: [0x2e].intercalate identifiers ∧
    ∀ i ∈ identifiers, identifier i

def VersionText (t : List Nat) : Prop :=
  ∃ major minor patch prerelease build, t = major ++ 0x2e :: minor ++ 0x2e :: patch ++ prerelease ++ build ∧
    (NumericIdentifier major ∧ NumericIdentifier minor ∧ NumericIdentifier patch) ∧
    OptionalIdentifiers 0x2d PrereleaseIdentifier prerelease ∧ OptionalIdentifiers 0x2b BuildIdentifier build

/-- A semantic version of at most 64 characters. -/
def SemanticVersion (t : List Nat) : Prop := t.length ≤ 64 ∧ VersionText t

end Grammars

section Units

theorem toUcs4_units {s : QString} (h : ∀ c ∈ units s, c < 0xd800) : toUcs4 s = units s := by
  induction s with
  | nil => rfl
  | cons u s ih =>
    obtain ⟨hu, hs⟩ := List.forall_mem_cons.mp h
    have hhigh : isHighSurrogate u = false := by simp [isHighSurrogate]; omega
    have hlow : isLowSurrogate u = false := by simp [isLowSurrogate]; omega
    unfold toUcs4
    rw [hhigh, hlow, ih hs]
    rfl

/-- A grammar below the surrogates may be read off the code units. -/
theorem grammar_units {grammar : List Nat → Prop} (hbasic : ∀ t, grammar t → ∀ c ∈ t, c < 0xd800) {s : QString} :
    grammar (toUcs4 s) ↔ grammar (units s) := by
  constructor
  · intro h
    have hunits : units s = toUcs4 s := toUcs4_basic (hbasic _ h)
    rwa [hunits]
  · intro h
    rwa [toUcs4_units (hbasic _ h)]

theorem basic_lineFeedAfter {grammar : List Nat → Prop} (hbasic : ∀ t, grammar t → ∀ c ∈ t, c < 0xd800) :
    ∀ t, grammar t ∨ LineFeedAfter grammar t → ∀ c ∈ t, c < 0xd800 := by
  rintro t (h | ⟨u, rfl, h⟩) c hc
  · exact hbasic t h c hc
  · rcases List.mem_append.mp hc with hc | hc
    · exact hbasic u h c hc
    · rw [List.mem_singleton.mp hc]
      decide

/-- What an anchored expression accepts: its texts, and its texts before a final line feed. -/
theorem hasMatch_iff {p : Pattern} {grammar : List Nat → Prop} (hp : ∀ t, p.Language t ↔ grammar t)
    (hbasic : ∀ t, grammar t → ∀ c ∈ t, c < 0xd800) {s : QString} :
    hasMatch p s = true ↔ grammar (units s) ∨ LineFeedAfter grammar (units s) := by
  obtain rfl : p.Language = grammar := funext fun t => propext (hp t)
  rw [hasMatch, matchesWhole_iff, grammar_units (basic_lineFeedAfter hbasic)]

end Units

section Classes

theorem isHex_iff (c : Nat) : among lowerHexDigits c = true ↔ IsHex c := by
  simp [among, lowerHexDigits, IsHex, IsDigit]

theorem isDigit_iff (c : Nat) : among digits c = true ↔ IsDigit c := by simp [among, digits, IsDigit]

theorem isLower_iff (c : Nat) : among [('a', 'z')] c = true ↔ IsLower c := by simp [among, IsLower]

theorem isIdentifierCharacter_iff (c : Nat) : among identifierCharacters c = true ↔ IsIdentifierCharacter c := by
  simp only [among, identifierCharacters, IsIdentifierCharacter, IsDigit, IsUpper, IsLower, List.any_cons, List.any_nil,
    Bool.or_false, Bool.or_eq_true, Bool.and_eq_true, decide_eq_true_eq]
  have hhyphen : '-'.toNat ≤ c ∧ c ≤ '-'.toNat ↔ c = 0x2d := by
    rw [show '-'.toNat = 0x2d from rfl]
    omega
  exact or_congr Iff.rfl (or_congr Iff.rfl (or_congr Iff.rfl hhyphen))

end Classes

section Languages
variable {t : List Nat} {ranges : List (Char × Char)}

theorem language_exact {n : Nat} : (Pattern.charset ranges n (some n)).Language t ↔
    t.length = n ∧ ∀ c ∈ t, among ranges c = true := by
  simp only [Pattern.charset, Pattern.Language, Option.some.injEq, forall_eq']
  constructor
  · rintro ⟨h, hleast, hmost⟩
    exact ⟨Nat.le_antisymm hmost hleast, h⟩
  · rintro ⟨hl, h⟩
    exact ⟨h, hl.ge, hl.le⟩

theorem language_one : (Pattern.charset ranges 1 (some 1)).Language t ↔ ∃ c, t = [c] ∧ among ranges c = true := by
  rw [language_exact, List.length_eq_one_iff]
  constructor
  · rintro ⟨⟨c, rfl⟩, h⟩
    exact ⟨c, rfl, h c (List.mem_singleton_self c)⟩
  · rintro ⟨c, rfl, h⟩
    exact ⟨⟨c, rfl⟩, fun x hx => List.mem_singleton.mp hx ▸ h⟩

theorem language_any : (Pattern.charset ranges 0 none).Language t ↔ ∀ c ∈ t, among ranges c = true := by
  simp [Pattern.charset, Pattern.Language]

theorem language_some : (Pattern.charset ranges 1 none).Language t ↔ t ≠ [] ∧ ∀ c ∈ t, among ranges c = true := by
  simp only [Pattern.charset, Pattern.Language, reduceCtorEq, false_implies, implies_true, and_true, ← List.length_pos_iff]
  exact and_comm

theorem language_digest : digestPattern.Language t ↔ Digest t := by
  rw [digestPattern, language_exact]
  simp only [isHex_iff, Digest]

theorem language_uuidV4 : uuidV4Pattern.Language t ↔ UuidV4 t := by
  have hvariant (c : Nat) : among [('8', '9'), ('a', 'b')] c = true ↔ c ∈ [0x38, 0x39, 0x61, 0x62] := by
    simp [among]
    omega
  have htext : ("-".toList.map Char.toNat = [0x2d]) ∧ "-4".toList.map Char.toNat = [0x2d, 0x34] := by decide
  simp only [uuidV4Pattern, sequenceOf, List.foldr_cons, List.foldr_nil, Pattern.Language, language_one, Pattern.text, htext.1,
    htext.2, UuidV4]
  simp only [language_exact, isHex_iff, hvariant]
  constructor
  · rintro ⟨a, _, rfl, ⟨ha, hax⟩, _, _, rfl, rfl, b, _, rfl, ⟨hb, hbx⟩, _, _, rfl, rfl, c, _, rfl, ⟨hc, hcx⟩, _, _, rfl,
      rfl, _, _, rfl, ⟨v, rfl, hv⟩, d, _, rfl, ⟨hd, hdx⟩, _, _, rfl, rfl, e, _, rfl, ⟨he, hex⟩, rfl⟩
    refine ⟨a, b, c, d, e, v, by simp, ⟨ha, hb, hc, hd, he⟩, ?_, hv⟩
    simp only [List.mem_append]
    rintro x ((((h | h) | h) | h) | h)
    exacts [hax x h, hbx x h, hcx x h, hdx x h, hex x h]
  · rintro ⟨a, b, c, d, e, v, rfl, ⟨ha, hb, hc, hd, he⟩, hx, hv⟩
    simp only [List.mem_append] at hx
    exact ⟨a, _, by simp, ⟨ha, fun x h => hx x (by simp [h])⟩, _, _, rfl, rfl, b, _, rfl,
      ⟨hb, fun x h => hx x (by simp [h])⟩, _, _, rfl, rfl, c, _, rfl, ⟨hc, fun x h => hx x (by simp [h])⟩, _, _, rfl, rfl,
      _, _, rfl, ⟨v, rfl, hv⟩, d, _, rfl, ⟨hd, fun x h => hx x (by simp [h])⟩, _, _, rfl, rfl, e, _, rfl,
      ⟨he, fun x h => hx x (by simp [h])⟩, rfl⟩

theorem language_settingKey : settingKeyPattern.Language t ↔ SettingKey t := by
  have hclass (c : Nat) : among [('A', 'Z'), ('a', 'z'), ('0', '9')] c = true ↔ IsLower c ∨ IsUpper c ∨ IsDigit c := by
    simp [among, IsLower, IsUpper, IsDigit]
    omega
  simp only [settingKeyPattern, Pattern.Language, language_one, isLower_iff]
  simp only [Pattern.charset, Pattern.Language, hclass, Option.some.injEq, forall_eq', Nat.zero_le, true_and, SettingKey]
  constructor
  · rintro ⟨_, rest, rfl, ⟨c, rfl, hc⟩, hrest, hlength⟩
    refine ⟨by simp; omega, ⟨c, rfl, hc⟩, ?_⟩
    rintro x hx
    rcases List.mem_cons.mp hx with rfl | hx
    · exact .inl hc
    · exact hrest x hx
  · rintro ⟨hlength, ⟨c, hhead, hc⟩, hall⟩
    obtain ⟨rest, rfl⟩ := List.head?_eq_some_iff.mp hhead
    exact ⟨[c], rest, rfl, ⟨c, rfl, hc⟩, fun x hx => hall x (List.mem_cons_of_mem _ hx),
      Nat.le_of_lt_succ (by simpa using hlength)⟩

theorem language_label : labelPattern.Language t ↔ Label t := by
  have hinner (c : Nat) : among (lowerAlphanumeric ++ [('-', '-')]) c = true ↔ IsLower c ∨ IsDigit c ∨ c = 0x2d := by
    simp [among, lowerAlphanumeric, IsLower, IsDigit]
    omega
  have hlast (c : Nat) : among lowerAlphanumeric c = true ↔ IsLower c ∨ IsDigit c := by
    simp [among, lowerAlphanumeric, IsLower, IsDigit]
  simp only [labelPattern, Pattern.Language, Pattern.optional, language_one, isLower_iff, hlast]
  simp only [Pattern.charset, Pattern.Language, hinner, Option.some.injEq, forall_eq', Nat.zero_le, true_and]
  constructor
  · rintro ⟨_, _, rfl, ⟨c, rfl, hc⟩, ⟨inner, _, rfl, ⟨hinner, hlength⟩, l, rfl, hl⟩ | rfl⟩
    · refine ⟨by simp; omega, ⟨c, rfl, hc⟩, ?_, ?_⟩
      · intro x hx
        simp only [List.singleton_append, List.mem_cons, List.mem_append, List.not_mem_nil, or_false] at hx
        rcases hx with rfl | hx | rfl
        · exact .inl hc
        · exact hinner x hx
        · exact hl.imp_right .inl
      · rw [← List.append_assoc, List.getLast?_concat]
        rintro h
        obtain rfl := Option.some.inj h
        rcases hl with h | h
        · exact absurd h.1 (by decide)
        · exact absurd h.1 (by decide)
    · refine ⟨by simp, ⟨c, rfl, hc⟩, ?_, ?_⟩
      · intro x hx
        rw [List.append_nil, List.mem_singleton] at hx
        exact .inl (hx ▸ hc)
      · rintro h
        obtain rfl := Option.some.inj h
        exact absurd hc.1 (by decide)
  · rintro ⟨hlength, ⟨c, hhead, hc⟩, hall, hend⟩
    obtain ⟨rest, rfl⟩ := List.head?_eq_some_iff.mp hhead
    refine ⟨[c], rest, rfl, ⟨c, rfl, hc⟩, ?_⟩
    rcases List.eq_nil_or_concat rest with rfl | ⟨inner, l, rfl⟩
    · exact .inr rfl
    · rw [List.concat_eq_append] at *
      refine .inl ⟨inner, [l], rfl, ⟨fun x hx => hall x (by simp [hx]), by simp at hlength; omega⟩, l, rfl, ?_⟩
      rcases hall l (by simp) with h | h | rfl
      · exact .inl h
      · exact .inr h
      · exact absurd (by rw [← List.cons_append, List.getLast?_concat]) hend

theorem language_numericIdentifier : numericIdentifier.Language t ↔ NumericIdentifier t := by
  have hfirst (c : Nat) : among [('1', '9')] c = true ↔ IsDigit c ∧ c ≠ 0x30 := by
    simp [among, IsDigit]
    omega
  have htext : "0".toList.map Char.toNat = [0x30] := by decide
  simp only [numericIdentifier, Pattern.Language, language_one, language_any, Pattern.text, htext, hfirst, isDigit_iff]
  constructor
  · rintro (rfl | ⟨_, rest, rfl, ⟨c, rfl, hc, hne⟩, hrest⟩)
    · exact ⟨by simp, by simp [IsDigit], fun _ => rfl⟩
    · exact ⟨by simp, List.forall_mem_cons.mpr ⟨hc, hrest⟩, fun h => absurd (Option.some.inj h) hne⟩
  · rintro ⟨hne, hall, hzero⟩
    obtain ⟨c, rest, rfl⟩ := List.exists_cons_of_ne_nil hne
    by_cases hc : c = 0x30
    · exact .inl (hzero (by rw [hc]; rfl))
    · obtain ⟨hdigit, hrest⟩ := List.forall_mem_cons.mp hall
      exact .inr ⟨[c], rest, rfl, ⟨c, rfl, hdigit, hc⟩, hrest⟩

theorem language_prereleaseIdentifier : prereleaseIdentifier.Language t ↔ PrereleaseIdentifier t := by
  have hnumeric := @language_numericIdentifier t
  have hsign (c : Nat) : among [('A', 'Z'), ('a', 'z'), ('-', '-')] c = true ↔ IsIdentifierCharacter c ∧ ¬ IsDigit c := by
    rw [← isIdentifierCharacter_iff]
    simp [among, identifierCharacters, IsDigit]
    omega
  have hsplit : prereleaseIdentifier.Language t ↔ numericIdentifier.Language t ∨ ∃ u c v, t = u ++ c :: v ∧
      (∀ x ∈ u, IsDigit x) ∧ (IsIdentifierCharacter c ∧ ¬ IsDigit c) ∧ ∀ x ∈ v, IsIdentifierCharacter x := by
    simp only [prereleaseIdentifier, numericIdentifier, anyOf, sequenceOf, List.foldr_cons, List.foldr_nil, Pattern.Language,
      language_one, language_any, hsign, isDigit_iff, isIdentifierCharacter_iff, ← or_assoc]
    refine or_congr Iff.rfl ?_
    constructor
    · rintro ⟨u, _, rfl, hu, _, _, rfl, ⟨c, rfl, hc⟩, v, _, rfl, hv, rfl⟩
      exact ⟨u, c, v, by simp, hu, hc, hv⟩
    · rintro ⟨u, c, v, rfl, hu, hc, hv⟩
      exact ⟨u, _, rfl, hu, [c], v, rfl, ⟨c, rfl, hc⟩, v, [], by simp, hv, rfl⟩
  rw [hsplit, hnumeric]
  constructor
  · rintro (⟨hne, hall, hzero⟩ | ⟨u, c, v, rfl, hu, ⟨hc, hsome⟩, hv⟩)
    · exact ⟨hne, fun x hx => .inl (hall x hx), fun _ => ⟨hne, hall, hzero⟩⟩
    · refine ⟨by simp, ?_, fun h => absurd (h c (by simp)) hsome⟩
      intro x hx
      rcases List.mem_append.mp hx with hx | hx
      · exact .inl (hu x hx)
      · rcases List.mem_cons.mp hx with rfl | hx
        · exact hc
        · exact hv x hx
  · rintro ⟨hne, hall, hdigits⟩
    by_cases h : ∀ c ∈ t, IsDigit c
    · exact .inl (hdigits h)
    · -- The first character that is no digit decides.
      refine .inr ?_
      clear hne hdigits hnumeric hsplit
      induction t with
      | nil => simp at h
      | cons c t ih =>
        obtain ⟨hc, ht⟩ := List.forall_mem_cons.mp hall
        by_cases hdigit : IsDigit c
        · obtain ⟨u, d, v, rfl, hu, hd, hv⟩ := ih ht fun hall => h (List.forall_mem_cons.mpr ⟨hdigit, hall⟩)
          exact ⟨c :: u, d, v, rfl, List.forall_mem_cons.mpr ⟨hdigit, hu⟩, hd, hv⟩
        · exact ⟨[], c, t, rfl, by simp, ⟨hc, hdigit⟩, ht⟩

theorem language_buildIdentifier : buildIdentifier.Language t ↔ BuildIdentifier t := by
  rw [buildIdentifier, language_some]
  simp only [isIdentifierCharacter_iff, BuildIdentifier]

theorem mem_optionalIdentifiers {sign : String} {code : Nat} (hsign : sign.toList.map Char.toNat = [code])
    {p : Pattern} {identifier : List Nat → Prop} (hp : ∀ t, p.Language t ↔ identifier t) {s rest : List Nat} :
    rest ∈ optionalIdentifiers sign p s ↔ ∃ t, s = t ++ rest ∧ OptionalIdentifiers code identifier t := by
  have hdot : ".".toList.map Char.toNat = [0x2e] := by decide
  simp only [optionalIdentifiers, List.mem_cons, List.mem_flatMap, mem_remainders, mem_repeated le_rfl, Pattern.Language,
    Pattern.text, hsign, hdot, hp, OptionalIdentifiers]
  constructor
  · rintro (rfl | ⟨_, ⟨_, rfl, _, first, rfl, rfl, hfirst⟩, parts, rfl, hparts⟩)
    · exact ⟨[], rfl, .inl rfl⟩
    · obtain ⟨others, rfl, hothers⟩ : ∃ others : List (List Nat), parts = others.map (0x2e :: ·) ∧ ∀ i ∈ others, identifier i := by
        clear hfirst
        induction parts with
        | nil => exact ⟨[], rfl, by simp⟩
        | cons part parts ih =>
          obtain ⟨⟨_, i, rfl, rfl, hi⟩, htail⟩ := List.forall_mem_cons.mp hparts
          obtain ⟨others, rfl, hothers⟩ := ih htail
          exact ⟨i :: others, rfl, List.forall_mem_cons.mpr ⟨hi, hothers⟩⟩
      refine ⟨code :: (first ++ (others.map (0x2e :: ·)).flatten), by simp, .inr ⟨first :: others, by simp, ?_, ?_⟩⟩
      · rw [flatten_separated]
      · exact List.forall_mem_cons.mpr ⟨hfirst, hothers⟩
  · rintro ⟨_, rfl, rfl | ⟨identifiers, hne, rfl, hall⟩⟩
    · exact .inl rfl
    · obtain ⟨first, others, rfl⟩ := List.exists_cons_of_ne_nil hne
      obtain ⟨hfirst, hothers⟩ := List.forall_mem_cons.mp hall
      refine .inr ⟨(others.map (0x2e :: ·)).flatten ++ rest, ⟨code :: first, ?_, [code], first, rfl, rfl, hfirst⟩,
        others.map (0x2e :: ·), rfl, ?_⟩
      · rw [← flatten_separated]
        simp
      · intro part hpart
        obtain ⟨i, hi, rfl⟩ := List.mem_map.mp hpart
        exact ⟨[0x2e], i, rfl, rfl, hothers i hi⟩

end Languages

section Kebab

/-- The words are the parts between the hyphens. -/
theorem kebabCase_cons {c : Nat} {rest : List Nat} : KebabCase (c :: rest) ↔
    IsLower c ∧ ∀ word ∈ (c :: rest).splitOn 0x2d, word ≠ [] ∧ ∀ x ∈ word, IsLower x ∨ IsDigit x := by
  constructor
  · rintro ⟨words, hwords, ⟨_, hhead, hc⟩, hall⟩
    obtain rfl := Option.some.inj hhead
    refine ⟨hc, ?_⟩
    have hne : words ≠ [] := by
      rintro rfl
      cases hwords
    rw [hwords, List.splitOn_intercalate]
    · exact hall
    · intro word hword hhyphen
      rcases (hall word hword).2 _ hhyphen with h | h
      · exact absurd h.1 (by decide)
      · exact absurd h.1 (by decide)
    · exact hne
  · rintro ⟨hc, hall⟩
    exact ⟨_, (List.intercalate_splitOn 0x2d).symm, ⟨c, rfl, hc⟩, hall⟩

theorem kebabWords_iff {words : List (List Nat)} (start : Nat) (hstart : 0 < start) :
    ((words.zipIdx start).all fun (word, index) => word.all (among lowerAlphanumeric) && (index = 0 || word ≠ [])) = true ↔
      ∀ word ∈ words, word ≠ [] ∧ ∀ x ∈ word, IsLower x ∨ IsDigit x := by
  have hclass (c : Nat) : among lowerAlphanumeric c = true ↔ IsLower c ∨ IsDigit c := by
    simp [among, lowerAlphanumeric, IsLower, IsDigit]
  induction words generalizing start with
  | nil => simp
  | cons word words ih =>
    rw [List.zipIdx_cons, List.all_cons, Bool.and_eq_true, List.forall_mem_cons]
    refine and_congr ?_ (ih (start + 1) (Nat.succ_pos _))
    simp only [Bool.and_eq_true, List.all_eq_true, hclass, Bool.or_eq_true, decide_eq_true_eq, hstart.ne', false_or]
    exact and_comm

theorem mem_intercalate {α : Type} {x c : α} {words : List (List α)} (h : c ∈ [x].intercalate words) :
    c = x ∨ ∃ word ∈ words, c ∈ word := by
  induction words with
  | nil => simp at h
  | cons word words ih =>
    cases words with
    | nil => exact .inr ⟨word, List.mem_cons_self, by simpa using h⟩
    | cons second words =>
      rw [List.intercalate_cons_cons] at h
      simp only [List.mem_append, List.mem_singleton] at h
      rcases h with (h | h) | h
      · exact .inr ⟨word, List.mem_cons_self, h⟩
      · exact .inl h
      · exact (ih h).imp_right (Exists.imp fun _ => And.imp_left (List.mem_cons_of_mem _))

theorem kebabCase_characters {t : List Nat} (h : KebabCase t) : ∀ c ∈ t, IsLower c ∨ IsDigit c ∨ c = 0x2d := by
  obtain ⟨words, rfl, -, hall⟩ := h
  intro c hc
  rcases mem_intercalate hc with rfl | ⟨word, hword, hc⟩
  · exact .inr (.inr rfl)
  · exact ((hall word hword).2 c hc).imp_right .inl

theorem kebabCase_basic (t : List Nat) (h : KebabCase t) : ∀ c ∈ t, c < 0xd800 := by
  intro c hc
  have := kebabCase_characters h c hc
  unfold IsLower IsDigit at this
  omega

/-- The check of the text without a line feed at its end. -/
theorem isKebabCase_body {s : QString} {body : List Nat}
    (hbody : (if (toUcs4 s).getLast? = some 0x0a then (toUcs4 s).dropLast else toUcs4 s) = body) :
    isKebabCase s = true ↔ KebabCase body := by
  have hclass (c : Nat) : among lowerAlphanumeric c = true ↔ IsLower c ∨ IsDigit c := by
    simp [among, lowerAlphanumeric, IsLower, IsDigit]
  unfold isKebabCase
  dsimp only
  rw [hbody]
  cases body with
  | nil =>
    refine iff_of_false (by simp) ?_
    rintro ⟨words, -, ⟨c, hhead, -⟩, -⟩
    cases hhead
  | cons c rest =>
    rw [kebabCase_cons, Bool.and_eq_true, isLower_iff]
    refine and_congr_right fun hc => ?_
    have hne : (c == 0x2d) = false := by
      simp only [beq_eq_false_iff_ne]
      rintro rfl
      exact absurd hc.1 (by decide)
    obtain ⟨first, others, hsplit⟩ := List.exists_cons_of_ne_nil (List.splitOn_ne_nil 0x2d rest)
    rw [List.splitOn_cons_eq_if_modifyHead, hne, show '-'.toNat = 0x2d from rfl, hsplit, List.zipIdx_cons, List.all_cons,
      Bool.and_eq_true, kebabWords_iff (0 + 1) Nat.one_pos]
    simp only [Bool.false_eq_true, if_false, List.modifyHead_cons, List.forall_mem_cons, ne_eq, reduceCtorEq, not_false_eq_true,
      true_and, Bool.and_eq_true, List.all_eq_true, hclass, decide_true, Bool.true_or, and_true, hc, true_or]

theorem isKebabCase_iff {s : QString} : isKebabCase s = true ↔
    KebabCase (units s) ∨ LineFeedAfter KebabCase (units s) := by
  rw [← grammar_units (basic_lineFeedAfter kebabCase_basic)]
  refine (isKebabCase_body rfl).trans ?_
  split_ifs with hlast
  · obtain ⟨body, hcodes⟩ := List.getLast?_eq_some_iff.mp hlast
    rw [hcodes, List.dropLast_concat]
    constructor
    · exact fun h => .inr ⟨body, rfl, h⟩
    · rintro (h | ⟨t, ht, h⟩)
      · exact absurd (kebabCase_characters h 0x0a (by simp)) (by simp [IsLower, IsDigit])
      · rwa [(List.append_inj' ht rfl).1]
  · refine ⟨.inl, fun h => h.resolve_right ?_⟩
    rintro ⟨t, ht, -⟩
    exact hlast (by rw [ht, List.getLast?_concat])

end Kebab

section Checks

theorem versionText_characters {t : List Nat} (h : VersionText t) :
    ∀ c ∈ t, IsIdentifierCharacter c ∨ c = 0x2e ∨ c = 0x2b := by
  have hnumeric {u : List Nat} (hu : NumericIdentifier u) : ∀ c ∈ u, IsIdentifierCharacter c := fun c hc => .inl (hu.2.1 c hc)
  have hidentifiers {sign : Nat} {identifier : List Nat → Prop} {u : List Nat} (hu : OptionalIdentifiers sign identifier u)
      (hsign : IsIdentifierCharacter sign ∨ sign = 0x2b)
      (hall : ∀ i, identifier i → ∀ c ∈ i, IsIdentifierCharacter c) : ∀ c ∈ u, IsIdentifierCharacter c ∨ c = 0x2e ∨ c = 0x2b := by
    rcases hu with rfl | ⟨identifiers, -, rfl, hi⟩
    · simp
    · rintro c hc
      rcases List.mem_cons.mp hc with rfl | hc
      · exact hsign.imp_right .inr
      · rcases mem_intercalate hc with rfl | ⟨i, hmem, hc⟩
        · exact .inr (.inl rfl)
        · exact .inl (hall i (hi i hmem) c hc)
  obtain ⟨major, minor, patch, prerelease, build, rfl, ⟨hmajor, hminor, hpatch⟩, hprerelease, hbuild⟩ := h
  intro c hc
  simp only [List.mem_append, List.mem_cons] at hc
  rcases hc with (((hc | rfl | hc) | rfl | hc) | hc) | hc
  · exact .inl (hnumeric hmajor c hc)
  · exact .inr (.inl rfl)
  · exact .inl (hnumeric hminor c hc)
  · exact .inr (.inl rfl)
  · exact .inl (hnumeric hpatch c hc)
  · exact hidentifiers hprerelease (.inl (.inr (.inr (.inr rfl)))) (fun i hi => hi.2.1) c hc
  · exact hidentifiers hbuild (.inr rfl) (fun i hi => hi.2) c hc

theorem versionText_basic (t : List Nat) (h : VersionText t) : ∀ c ∈ t, c < 0xd800 := by
  intro c hc
  have := versionText_characters h c hc
  unfold IsIdentifierCharacter IsDigit IsUpper IsLower at this
  omega

theorem language_versionCore {t : List Nat} : versionCore.Language t ↔
    ∃ major minor patch, t = major ++ 0x2e :: minor ++ 0x2e :: patch ∧
      NumericIdentifier major ∧ NumericIdentifier minor ∧ NumericIdentifier patch := by
  have hdot : ".".toList.map Char.toNat = [0x2e] := by decide
  simp only [versionCore, sequenceOf, List.foldr_cons, List.foldr_nil, Pattern.Language, language_numericIdentifier, Pattern.text, hdot]
  constructor
  · rintro ⟨major, _, rfl, hmajor, _, _, rfl, rfl, minor, _, rfl, hminor, _, _, rfl, rfl, patch, _, rfl, hpatch, rfl⟩
    exact ⟨major, minor, patch, by simp, hmajor, hminor, hpatch⟩
  · rintro ⟨major, minor, patch, rfl, hmajor, hminor, hpatch⟩
    exact ⟨major, 0x2e :: (minor ++ 0x2e :: patch), by simp, hmajor, _, _, rfl, rfl, minor, _, rfl, hminor, _, _, rfl, rfl,
      patch, [], (List.append_nil _).symm, hpatch, rfl⟩

theorem isStrictSemanticVersion_iff {s : QString} : isStrictSemanticVersion s = true ↔
    s.length ≤ 64 ∧ (VersionText (units s) ∨ LineFeedAfter VersionText (units s)) := by
  rw [← grammar_units (basic_lineFeedAfter versionText_basic), isStrictSemanticVersion, Bool.and_eq_true, decide_eq_true_eq]
  refine and_congr_right fun _ => ?_
  have hremainders (rest : List Nat) : rest ∈ ((versionCore.remainders (toUcs4 s)).flatMap fun s =>
      (optionalIdentifiers "-" prereleaseIdentifier s).flatMap (optionalIdentifiers "+" buildIdentifier)) ↔
      ∃ t, toUcs4 s = t ++ rest ∧ VersionText t := by
    simp only [List.mem_flatMap, mem_remainders, language_versionCore,
      mem_optionalIdentifiers (show "-".toList.map Char.toNat = [0x2d] by decide) (fun _ => language_prereleaseIdentifier),
      mem_optionalIdentifiers (show "+".toList.map Char.toNat = [0x2b] by decide) (fun _ => language_buildIdentifier)]
    constructor
    · rintro ⟨_, ⟨_, hs, major, minor, patch, rfl, hcore⟩, _, ⟨prerelease, rfl, hprerelease⟩, build, rfl, hbuild⟩
      exact ⟨_, by rw [hs]; simp, major, minor, patch, prerelease, build, rfl, hcore, hprerelease, hbuild⟩
    · rintro ⟨_, hs, major, minor, patch, prerelease, build, rfl, hcore, hprerelease, hbuild⟩
      exact ⟨prerelease ++ (build ++ rest), ⟨_, by rw [hs]; simp, major, minor, patch, rfl, hcore⟩, build ++ rest,
        ⟨prerelease, rfl, hprerelease⟩, build, rfl, hbuild⟩
  simp only [List.any_eq_true, hremainders, Bool.or_eq_true, decide_eq_true_eq]
  constructor
  · rintro ⟨rest, ⟨t, hs, ht⟩, rfl | rfl⟩
    · exact .inl (by rwa [hs, List.append_nil])
    · exact .inr ⟨t, hs, ht⟩
  · rintro (h | ⟨t, hs, ht⟩)
    · exact ⟨[], ⟨_, (List.append_nil _).symm, h⟩, .inl rfl⟩
    · exact ⟨[0x0a], ⟨t, hs, ht⟩, .inr rfl⟩

theorem isFullSha256Digest_iff {s : QString} : isFullSha256Digest s = true ↔
    Digest (units s) ∨ LineFeedAfter Digest (units s) := by
  refine hasMatch_iff (fun _ => language_digest) ?_
  rintro t ⟨-, h⟩ c hc
  have := h c hc
  unfold IsHex IsDigit at this
  omega

theorem uuidV4_characters {t : List Nat} (h : UuidV4 t) : ∀ c ∈ t, IsHex c ∨ c = 0x2d := by
  obtain ⟨a, b, c, d, e, v, rfl, -, hx, hv⟩ := h
  intro x hin
  have hvariant : IsHex v := by
    simp only [List.mem_cons, List.not_mem_nil, or_false] at hv
    unfold IsHex IsDigit
    omega
  have hfour : IsHex 0x34 := by
    unfold IsHex IsDigit
    omega
  by_cases hhyphen : x = 0x2d
  · exact .inr hhyphen
  · left
    by_cases hfield : x ∈ a ++ b ++ c ++ d ++ e
    · exact hx x hfield
    · have hrest : x = 0x34 ∨ x = v := by
        simp only [List.mem_append, List.mem_cons] at hin hfield
        tauto
      rcases hrest with rfl | rfl
      · exact hfour
      · exact hvariant

theorem isLowercaseUuidV4_iff {s : QString} : isLowercaseUuidV4 s = true ↔
    UuidV4 (units s) ∨ LineFeedAfter UuidV4 (units s) := by
  refine hasMatch_iff (fun _ => language_uuidV4) ?_
  intro t h c hc
  have := uuidV4_characters h c hc
  unfold IsHex IsDigit at this
  omega

theorem isSettingKey_iff {s : QString} : isSettingKey s = true ↔
    SettingKey (units s) ∨ LineFeedAfter SettingKey (units s) := by
  refine hasMatch_iff (fun _ => language_settingKey) ?_
  rintro t ⟨-, -, h⟩ c hc
  have := h c hc
  unfold IsLower IsUpper IsDigit at this
  omega

theorem label_iff {s : QString} : hasMatch labelPattern s = true ↔ Label (units s) ∨ LineFeedAfter Label (units s) := by
  refine hasMatch_iff (fun _ => language_label) ?_
  intro t h c hc
  have := h.characters c hc
  unfold IsLower IsDigit at this
  omega

/-- A label, or one with a line feed behind it that the length limit still counts in. -/
def LooseLabel (label : QString) : Prop :=
  label.length ≤ 63 ∧ (Label (units label) ∨ LineFeedAfter Label (units label))

theorem isValidComponentId_iff {s : QString} : isValidComponentId s = true ↔
    s.length ≤ 255 ∧ 3 ≤ (splitAt s '.').length ∧ ∀ label ∈ splitAt s '.', LooseLabel label := by
  simp only [isValidComponentId, Bool.and_eq_true, decide_eq_true_eq, List.all_eq_true, label_iff, LooseLabel, and_assoc]

end Checks

section Exact

/-- A component id but for a line feed at the end of at least one label. -/
def MisreadId (s : QString) : Prop :=
  (s.length ≤ 255 ∧ 3 ≤ (splitAt s '.').length ∧ ∀ label ∈ splitAt s '.', LooseLabel label) ∧
    ∃ label ∈ splitAt s '.', LineFeedAfter Label (units label)

/-- A check that accepts a grammar and some texts outside it is exact on all others. -/
theorem exact_iff {accepts grammar beside : Prop} (h : accepts ↔ grammar ∨ beside) (hdisjoint : grammar → ¬ beside) :
    (accepts ↔ grammar) ↔ ¬ beside := by tauto

theorem not_lineFeedAfter {grammar : List Nat → Prop} (hclean : ∀ t, grammar t → 0x0a ∉ t) {t : List Nat} (h : grammar t) :
    ¬ LineFeedAfter grammar t := by
  rintro ⟨u, rfl, -⟩
  exact hclean _ h (by simp)

theorem clean_of_characters {t : List Nat} {class' : Nat → Prop} (h : ∀ c ∈ t, class' c) (hfeed : ¬ class' 0x0a)
    (hslash : ¬ class' 0x2f) : 0x0a ∉ t ∧ 0x2f ∉ t :=
  ⟨fun hc => hfeed (h _ hc), fun hc => hslash (h _ hc)⟩

/-- No text of the grammars has a line feed or a path separator in it. -/
theorem digest_clean (t : List Nat) (h : Digest t) : 0x0a ∉ t ∧ 0x2f ∉ t :=
  clean_of_characters h.2 (by unfold IsHex IsDigit; omega) (by unfold IsHex IsDigit; omega)

theorem uuidV4_clean (t : List Nat) (h : UuidV4 t) : 0x0a ∉ t ∧ 0x2f ∉ t :=
  clean_of_characters (uuidV4_characters h) (by unfold IsHex IsDigit; omega) (by unfold IsHex IsDigit; omega)

theorem kebabCase_clean (t : List Nat) (h : KebabCase t) : 0x0a ∉ t ∧ 0x2f ∉ t :=
  clean_of_characters (kebabCase_characters h) (by unfold IsLower IsDigit; omega) (by unfold IsLower IsDigit; omega)

theorem settingKey_clean (t : List Nat) (h : SettingKey t) : 0x0a ∉ t ∧ 0x2f ∉ t :=
  clean_of_characters h.2.2 (by unfold IsLower IsUpper IsDigit; omega) (by unfold IsLower IsUpper IsDigit; omega)

theorem label_clean (t : List Nat) (h : Label t) : 0x0a ∉ t ∧ 0x2f ∉ t :=
  clean_of_characters h.characters (by unfold IsLower IsDigit; omega) (by unfold IsLower IsDigit; omega)

theorem versionText_clean (t : List Nat) (h : VersionText t) : 0x0a ∉ t ∧ 0x2f ∉ t :=
  clean_of_characters (versionText_characters h) (by unfold IsIdentifierCharacter IsDigit IsUpper IsLower; omega)
    (by unfold IsIdentifierCharacter IsDigit IsUpper IsLower; omega)

theorem componentId_clean {s : QString} (h : ComponentId s) :
    0x0a ∉ units s ∧ 0x2f ∉ units s ∧ ∀ label ∈ splitAt s '.', label ≠ [] := by
  have hunits : ∀ c ∈ units s, c = 0x2e ∨ ∃ label ∈ splitAt s '.', c ∈ units label := by
    intro c hc
    obtain ⟨u, hu, rfl⟩ := List.mem_map.mp hc
    have hsplit : [unit '.'].intercalate (splitAt s '.') = s := List.intercalate_splitOn _
    rw [← hsplit] at hu
    rcases mem_intercalate hu with rfl | ⟨label, hlabel, hu⟩
    · exact .inl rfl
    · exact .inr ⟨label, hlabel, List.mem_map_of_mem hu⟩
  refine ⟨fun hc => ?_, fun hc => ?_, ?_⟩
  · rcases hunits _ hc with h' | ⟨label, hlabel, hc⟩
    · cases h'
    · exact (label_clean _ (h.2.2 label hlabel)).1 hc
  · rcases hunits _ hc with h' | ⟨label, hlabel, hc⟩
    · cases h'
    · exact (label_clean _ (h.2.2 label hlabel)).2 hc
  · rintro label hlabel rfl
    obtain ⟨c, hhead, -⟩ := (h.2.2 _ hlabel).first
    cases hhead

theorem componentId_exact_iff {s : QString} : (isValidComponentId s = true ↔ ComponentId s) ↔ ¬ MisreadId s := by
  have hdisjoint {label : QString} (h : Label (units label)) : ¬ LineFeedAfter Label (units label) :=
    not_lineFeedAfter (fun t ht => (label_clean t ht).1) h
  rw [isValidComponentId_iff]
  constructor
  · rintro h ⟨hloose, label, hlabel, hfeed⟩
    exact hdisjoint ((h.mp hloose).2.2 label hlabel) hfeed
  · intro h
    constructor
    · rintro hloose
      refine ⟨hloose.1, hloose.2.1, fun label hlabel => (hloose.2.2 label hlabel).2.resolve_right fun hfeed => ?_⟩
      exact h ⟨hloose, label, hlabel, hfeed⟩
    · rintro ⟨hlength, hcount, hlabels⟩
      exact ⟨hlength, hcount, fun label hlabel =>
        ⟨by simpa [units] using (hlabels label hlabel).length, .inl (hlabels label hlabel)⟩⟩

/-- The checks accept their grammars, except that the end anchor of each expression also stands before
a final line feed: they are exact on every text that is not of that form. -/
theorem identifiers_exact (s : QString) :
    ((isFullSha256Digest s = true ↔ Digest (units s)) ↔ ¬ LineFeedAfter Digest (units s)) ∧
    ((isLowercaseUuidV4 s = true ↔ UuidV4 (units s)) ↔ ¬ LineFeedAfter UuidV4 (units s)) ∧
    ((isLayoutId s = true ↔ LayoutId (units s)) ↔ ¬ (s.length ≤ 64 ∧ LineFeedAfter KebabCase (units s))) ∧
    ((isSettingKey s = true ↔ SettingKey (units s)) ↔ ¬ LineFeedAfter SettingKey (units s)) ∧
    ((isValidComponentId s = true ↔ ComponentId s) ↔ ¬ MisreadId s) ∧
    ((isStrictSemanticVersion s = true ↔ SemanticVersion (units s)) ↔
      ¬ (s.length ≤ 64 ∧ LineFeedAfter VersionText (units s))) ∧
    (Digest (units s) ∨ UuidV4 (units s) ∨ LayoutId (units s) ∨ SettingKey (units s) ∨ SemanticVersion (units s) →
      0x0a ∉ units s ∧ 0x2f ∉ units s) ∧
    (ComponentId s → 0x0a ∉ units s ∧ 0x2f ∉ units s ∧ ∀ label ∈ splitAt s '.', label ≠ []) ∧
    hasMatch surfacePlanDigest s = isFullSha256Digest s ∧ hasMatch surfacePlanUuidV4 s = isLowercaseUuidV4 s := by
  have hlength : (units s).length = s.length := List.length_map _
  refine ⟨?_, ?_, ?_, ?_, componentId_exact_iff, ?_, ?_, componentId_clean, rfl, rfl⟩
  · exact exact_iff isFullSha256Digest_iff (not_lineFeedAfter fun t h => (digest_clean t h).1)
  · exact exact_iff isLowercaseUuidV4_iff (not_lineFeedAfter fun t h => (uuidV4_clean t h).1)
  · refine exact_iff ?_ fun h => mt And.right (not_lineFeedAfter (fun t h => (kebabCase_clean t h).1) h.2)
    rw [isLayoutId, Bool.and_eq_true, decide_eq_true_eq, isKebabCase_iff, LayoutId, hlength, and_or_left]
  · exact exact_iff isSettingKey_iff (not_lineFeedAfter fun t h => (settingKey_clean t h).1)
  · refine exact_iff ?_ fun h => mt And.right (not_lineFeedAfter (fun t h => (versionText_clean t h).1) h.2)
    rw [isStrictSemanticVersion_iff, SemanticVersion, hlength, and_or_left]
  · rintro (h | h | h | h | h)
    exacts [digest_clean _ h, uuidV4_clean _ h, kebabCase_clean _ h.2, settingKey_clean _ h, versionText_clean _ h.2]

def sampleDigestText : QString := List.replicate 64 (unit 'b')

/-- A digest with a line feed behind it is accepted, and so is an id with one inside. -/
theorem identifiers_lineFeed :
    isFullSha256Digest (sampleDigestText ++ qstr "\n") = true ∧ ¬ Digest (units (sampleDigestText ++ qstr "\n")) ∧
    isValidComponentId (qstr "org.example\n.clock") = true ∧ ¬ ComponentId (qstr "org.example\n.clock") := by
  refine ⟨by decide +kernel, fun h => (digest_clean _ h).1 (by decide +kernel), by decide +kernel, fun h => ?_⟩
  exact (componentId_clean h).1 (by decide +kernel)

theorem identifiers_exact_sample : Digest (units sampleDigestText) := by
  have hfeed : ¬ LineFeedAfter Digest (units sampleDigestText) := by
    rintro ⟨t, ht, -⟩
    have hin : 0x0a ∈ units sampleDigestText := by simp [ht]
    exact absurd hin (by decide +kernel)
  exact ((identifiers_exact sampleDigestText).1.mpr hfeed).mp (by decide +kernel)

end Exact

end HyprShelld.Components
