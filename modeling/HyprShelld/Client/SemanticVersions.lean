import HyprShelld.Component.Identifiers
import HyprShelld.Component.NumberNormalForm

/-! The order of package versions, and the precedence of semantic versions. -/
namespace HyprShelld.Client
open Components

section Code

/-- QString::compare: code unit by code unit. An integer below, at or above zero is an ordering here. -/
def compareUnits (left right : QString) : Ordering := List.compareLex (compareOn UInt16.toNat) left right

def compareNumericSemverIdentifier (left right : QString) : Ordering :=
  if left.length ≠ right.length then
    if left.length < right.length then .lt else .gt
  else compareUnits left right

def withoutBuild (version : QString) : QString := version.takeWhile (· ≠ unit '+')

def coreParts (value : QString) : List QString := splitAt (value.takeWhile (· ≠ unit '-')) '.'

/-- The identifiers behind the first hyphen, when there is one. -/
def prereleaseParts (value : QString) : Option (List QString) :=
  if value.contains (unit '-') then some (splitAt ((value.dropWhile (· ≠ unit '-')).drop 1) '.') else none

/-- The three numbers, up to the first difference. -/
def compareCore (left right : List QString) : Ordering :=
  (compareNumericSemverIdentifier (left.getD 0 []) (right.getD 0 [])).then <|
    (compareNumericSemverIdentifier (left.getD 1 []) (right.getD 1 [])).then <|
      compareNumericSemverIdentifier (left.getD 2 []) (right.getD 2 [])

def isNumericPart (part : QString) : Bool := part.all isDecimalDigit

def comparePart (left right : QString) : Ordering :=
  if isNumericPart left ≠ isNumericPart right then
    if isNumericPart left then .lt else .gt
  else if isNumericPart left then compareNumericSemverIdentifier left right
  else compareUnits left right

def comparePrerelease : List QString → List QString → Ordering
  | left :: lefts, right :: rights =>
    match comparePart left right with
    | .eq => comparePrerelease lefts rights
    | different => different
  | lefts, rights =>
    if lefts.length = rights.length then .eq else if lefts.length < rights.length then .lt else .gt

/-- A version with a pre-release is below the one without. -/
def comparePrereleaseParts : Option (List QString) → Option (List QString) → Ordering
  | some _, none => .lt
  | none, some _ => .gt
  | none, none => .eq
  | some left, some right => comparePrerelease left right

def compareSemanticVersions (left right : QString) : Ordering :=
  let leftValue := withoutBuild left
  let rightValue := withoutBuild right
  (compareCore (coreParts leftValue) (coreParts rightValue)).then <|
    comparePrereleaseParts (prereleaseParts leftValue) (prereleaseParts rightValue)

end Code

section Precedence

inductive Identifier where
  | numeric (n : Nat)
  | alphanumeric (characters : List Nat)
  deriving DecidableEq

/-- Numbers by value and before other identifiers, these in ASCII order. -/
def Identifier.precedence : Identifier → Identifier → Ordering
  | numeric m, numeric n => compare m n
  | numeric _, alphanumeric _ => .lt
  | alphanumeric _, numeric _ => .gt
  | alphanumeric s, alphanumeric t => List.compareLex compare s t

structure Version where
  major : Nat
  minor : Nat
  patch : Nat
  /-- No identifiers in a release. -/
  prerelease : List Identifier
  deriving DecidableEq

/-- The precedence of semantic versions: a pre-release before its release, and a list of identifiers
before the longer lists it starts. -/
def Version.precedence (a b : Version) : Ordering :=
  (compare a.major b.major).then <| (compare a.minor b.minor).then <| (compare a.patch b.patch).then <|
    match a.prerelease, b.prerelease with
    | [], [] => .eq
    | [], _ :: _ => .gt
    | _ :: _, [] => .lt
    | _, _ => List.compareLex Identifier.precedence a.prerelease b.prerelease

inductive ReadsIdentifier : QString → Identifier → Prop where
  | numeric {t : QString} (h : NumericIdentifier (units t)) : ReadsIdentifier t (.numeric (naturalValue t))
  | alphanumeric {t : QString} (h : PrereleaseIdentifier (units t)) (hother : ∃ c ∈ units t, ¬ IsDigit c) :
      ReadsIdentifier t (.alphanumeric (units t))

/-- The parts of a version text. -/
structure VersionParts (s major minor patch : QString) (identifiers : List QString) (build : QString) : Prop where
  text : s = [unit '.'].intercalate [major, minor, patch] ++
    (if identifiers = [] then [] else unit '-' :: [unit '.'].intercalate identifiers) ++ build
  numbers : NumericIdentifier (units major) ∧ NumericIdentifier (units minor) ∧ NumericIdentifier (units patch)
  identifiers : ∀ i ∈ identifiers, PrereleaseIdentifier (units i)
  build : OptionalIdentifiers 0x2b BuildIdentifier (units build)

/-- A text of the grammar and the version it names, whatever its build metadata is. -/
def ReadsVersion (s : QString) (v : Version) : Prop :=
  ∃ major minor patch identifiers build, VersionParts s major minor patch identifiers build ∧
    v.major = naturalValue major ∧ v.minor = naturalValue minor ∧ v.patch = naturalValue patch ∧
    List.Forall₂ ReadsIdentifier identifiers v.prerelease

end Precedence

section Order
open Std

instance : TransCmp compareUnits := inferInstanceAs (TransCmp (List.compareLex (compareOn UInt16.toNat)))

instance : LawfulEqCmp compareUnits where
  eq_of_compare {a b} h := by
    have : LawfulEqCmp (compareOn UInt16.toNat) := ⟨fun h => UInt16.toNat_inj.mp (Std.LawfulEqOrd.eq_of_compare h)⟩
    exact @LawfulEqCmp.eq_of_compare _ (List.compareLex (compareOn UInt16.toNat)) _ _ _ h

theorem compareNumeric_eq : compareNumericSemverIdentifier = compareLex (compareOn List.length) compareUnits := by
  funext left right
  unfold compareNumericSemverIdentifier compareLex compareOn
  split_ifs with hne hlt
  · rw [Nat.compare_eq_lt.mpr hlt]
    rfl
  · rw [Nat.compare_eq_gt.mpr (by omega)]
    rfl
  · rw [Nat.compare_eq_eq.mpr (not_not.mp hne)]
    rfl

instance : TransCmp compareNumericSemverIdentifier := by
  rw [compareNumeric_eq]
  infer_instance

instance : LawfulEqCmp compareNumericSemverIdentifier where
  eq_of_compare {a b} h := by
    rw [compareNumeric_eq, compareLex_eq_eq] at h
    exact LawfulEqCmp.eq_of_compare h.2

/-- Comparison by one of two orders, each on its own kind and the first kind before the second. -/
theorem transCmp_ofKinds {α : Type} (first : α → Bool) {cmp cmp' : α → α → Ordering} [TransCmp cmp] [TransCmp cmp']
    {both : α → α → Ordering} (h : ∀ a b, both a b =
      if first a ≠ first b then (if first a then .lt else .gt) else if first a then cmp a b else cmp' a b) : TransCmp both where
  eq_swap {a b} := by
    rw [h, h]
    cases ha : first a <;> cases hb : first b <;> simp
    · exact OrientedCmp.eq_swap
    · exact OrientedCmp.eq_swap
  isLE_trans {a b c} hab hbc := by
    rw [h] at hab hbc ⊢
    cases ha : first a <;> cases hb : first b <;> cases hc : first c <;> simp only [ha, hb, hc] at hab hbc ⊢ <;> simp at hab hbc ⊢
    · exact TransCmp.isLE_trans hab hbc
    · exact TransCmp.isLE_trans hab hbc

instance : TransCmp comparePart := transCmp_ofKinds isNumericPart fun _ _ => rfl

instance : LawfulEqCmp comparePart where
  eq_of_compare {a b} h := by
    unfold comparePart at h
    split_ifs at h
    · exact LawfulEqCmp.eq_of_compare h
    · exact LawfulEqCmp.eq_of_compare h

theorem comparePrerelease_eq : comparePrerelease = List.compareLex comparePart := by
  funext left right
  induction left generalizing right with
  | nil => cases right <;> simp [comparePrerelease, List.compareLex]
  | cons l left ih =>
    cases right with
    | nil => simp [comparePrerelease, List.compareLex]
    | cons r right =>
      rw [comparePrerelease, List.compareLex_cons_cons, ih]
      cases comparePart l r <;> rfl

instance : TransCmp comparePrerelease := by
  rw [comparePrerelease_eq]
  infer_instance

instance : LawfulEqCmp comparePrerelease := by
  rw [comparePrerelease_eq]
  infer_instance

instance : TransCmp comparePrereleaseParts where
  eq_swap {a b} := by
    cases a <;> cases b <;> simp only [comparePrereleaseParts, Ordering.swap_lt, Ordering.swap_gt, Ordering.swap_eq]
    exact OrientedCmp.eq_swap
  isLE_trans {a b c} hab hbc := by
    cases a <;> cases b <;> cases c <;> simp only [comparePrereleaseParts] at hab hbc ⊢ <;>
      first | rfl | exact absurd hab (by decide) | exact absurd hbc (by decide) | exact TransCmp.isLE_trans hab hbc

instance : LawfulEqCmp comparePrereleaseParts where
  eq_of_compare {a b} h := by
    cases a <;> cases b <;> simp only [comparePrereleaseParts, reduceCtorEq] at h ⊢
    rw [LawfulEqCmp.eq_of_compare h]

/-- An order of what a function takes out of the values. -/
theorem transCmp_on {α β : Type} (f : α → β) {cmp : β → β → Ordering} [TransCmp cmp] : TransCmp fun a b => cmp (f a) (f b) where
  eq_swap := OrientedCmp.eq_swap
  isLE_trans := TransCmp.isLE_trans

instance : TransCmp compareCore := by
  have hpart (i : Nat) := @transCmp_on _ _ (fun parts : List QString => parts.getD i []) compareNumericSemverIdentifier _
  have h0 := hpart 0
  have h1 := hpart 1
  have h2 := hpart 2
  exact inferInstanceAs (TransCmp (compareLex _ (compareLex _ _)))

/-- The comparison of versions is a total preorder on all texts. -/
instance : TransCmp compareSemanticVersions := by
  have hcore := @transCmp_on _ _ (fun version : QString => coreParts (withoutBuild version)) compareCore _
  have hprerelease := @transCmp_on _ _ (fun version : QString => prereleaseParts (withoutBuild version)) comparePrereleaseParts _
  exact inferInstanceAs (TransCmp (compareLex _ _))

end Order

section Numbers

theorem digits_of_numeric {t : QString} (h : NumericIdentifier (units t)) : t.all isDigit = true := by
  refine List.all_eq_true.mpr fun u hu => ?_
  have := h.2.1 _ (List.mem_map_of_mem hu)
  unfold IsDigit at this
  simpa [isDigit] using this

theorem naturalValue_lt {t : QString} (h : t.all isDigit = true) : naturalValue t < 10 ^ t.length := by
  induction t with
  | nil => decide
  | cons u t ih =>
    obtain ⟨hu, ht⟩ := Bool.and_eq_true_iff.mp h
    simp only [isDigit, Bool.and_eq_true, decide_eq_true_eq] at hu
    have hrest := ih ht
    have hle : u.toNat - 0x30 ≤ 9 := by omega
    rw [naturalValue_cons, List.length_cons, pow_succ]
    nlinarith [Nat.mul_le_mul_right (10 ^ t.length) hle]

theorem le_naturalValue {t : QString} (h : NumericIdentifier (units t)) (hlong : 1 < t.length) :
    10 ^ (t.length - 1) ≤ naturalValue t := by
  cases t with
  | nil => simp at hlong
  | cons u t =>
    have hu : u ≠ unit '0' := by
      rintro rfl
      have hone := congrArg List.length (h.2.2 rfl)
      simp only [units, List.length_map, List.length_cons, List.length_nil] at hone hlong
      omega
    have hdigit := nonzero_digit (Bool.and_eq_true_iff.mp (digits_of_numeric h)).1 hu
    rw [naturalValue_cons, List.length_cons, Nat.add_sub_cancel]
    nlinarith [Nat.mul_le_mul_right (10 ^ t.length) hdigit.1]

/-- The leading digit decides first. -/
theorem compare_leading {d e x y p : Nat} (hx : x < p) (hy : y < p) :
    (compare d e).then (compare x y) = compare (d * p + x) (e * p + y) := by
  rcases Nat.lt_trichotomy d e with hlt | rfl | hgt
  · have hstep : (d + 1) * p ≤ e * p := Nat.mul_le_mul_right p hlt
    rw [add_mul, one_mul] at hstep
    rw [Nat.compare_eq_lt.mpr hlt, Nat.compare_eq_lt.mpr (show d * p + x < e * p + y by omega)]
    rfl
  · rw [Nat.compare_eq_eq.mpr rfl, Ordering.eq_then]
    rcases Nat.lt_trichotomy x y with hlt | rfl | hgt
    · rw [Nat.compare_eq_lt.mpr hlt, Nat.compare_eq_lt.mpr (by omega)]
    · rw [Nat.compare_eq_eq.mpr rfl, Nat.compare_eq_eq.mpr rfl]
    · rw [Nat.compare_eq_gt.mpr hgt, Nat.compare_eq_gt.mpr (by omega)]
  · have hstep : (e + 1) * p ≤ d * p := Nat.mul_le_mul_right p hgt
    rw [add_mul, one_mul] at hstep
    rw [Nat.compare_eq_gt.mpr hgt, Nat.compare_eq_gt.mpr (show e * p + y < d * p + x by omega)]
    rfl

theorem compareUnits_digits {s t : QString} (hs : s.all isDigit = true) (ht : t.all isDigit = true) (hlength : s.length = t.length) :
    compareUnits s t = compare (naturalValue s) (naturalValue t) := by
  induction s generalizing t with
  | nil =>
    obtain rfl := List.length_eq_zero_iff.mp hlength.symm
    rfl
  | cons u s ih =>
    cases t with
    | nil => simp at hlength
    | cons w t =>
      obtain ⟨hu, hs⟩ := Bool.and_eq_true_iff.mp hs
      obtain ⟨hw, ht⟩ := Bool.and_eq_true_iff.mp ht
      have hlength : s.length = t.length := by simpa using hlength
      simp only [isDigit, Bool.and_eq_true, decide_eq_true_eq] at hu hw
      have hdigit : compareOn UInt16.toNat u w = compare (u.toNat - 0x30) (w.toNat - 0x30) := by
        unfold compareOn
        rcases Nat.lt_trichotomy u.toNat w.toNat with hlt | heq | hgt
        · rw [Nat.compare_eq_lt.mpr hlt, Nat.compare_eq_lt.mpr (by omega)]
        · rw [heq, Nat.compare_eq_eq.mpr rfl, Nat.compare_eq_eq.mpr rfl]
        · rw [Nat.compare_eq_gt.mpr hgt, Nat.compare_eq_gt.mpr (by omega)]
      rw [compareUnits, List.compareLex_cons_cons, show List.compareLex (compareOn UInt16.toNat) s t = _ from ih hs ht hlength,
        hdigit, naturalValue_cons, naturalValue_cons, hlength]
      exact compare_leading (hlength ▸ naturalValue_lt hs) (naturalValue_lt ht)

/-- Digits of any length are compared by their value. -/
theorem compareNumeric_value {s t : QString} (hs : NumericIdentifier (units s)) (ht : NumericIdentifier (units t)) :
    compareNumericSemverIdentifier s t = compare (naturalValue s) (naturalValue t) := by
  have hpos (r : QString) (hr : NumericIdentifier (units r)) : 1 ≤ r.length := by
    have hne : r ≠ [] := by
      rintro rfl
      exact hr.1 rfl
    exact List.length_pos_iff.mpr hne
  have hshorter {a b : QString} (ha : NumericIdentifier (units a)) (hb : NumericIdentifier (units b)) (h : a.length < b.length) :
      naturalValue a < naturalValue b := by
    have hlarge := le_naturalValue hb (lt_of_le_of_lt (hpos a ha) h)
    have hsmall := naturalValue_lt (digits_of_numeric ha)
    exact lt_of_lt_of_le (lt_of_lt_of_le hsmall (Nat.pow_le_pow_right (by norm_num) (by omega))) hlarge
  unfold compareNumericSemverIdentifier
  split_ifs with hne hlt
  · exact (Nat.compare_eq_lt.mpr (hshorter hs ht hlt)).symm
  · exact (Nat.compare_eq_gt.mpr (hshorter ht hs (by omega))).symm
  · exact compareUnits_digits (digits_of_numeric hs) (digits_of_numeric ht) (not_not.mp hne)

end Numbers

section Texts
variable {s : QString}

/-- Identifiers are not empty, and none of their characters separates parts of a version. -/
theorem identifier_units {t : QString} (h : PrereleaseIdentifier (units t)) : t ≠ [] ∧ ∀ u ∈ t, u ≠ unit '.' ∧ u ≠ unit '+' := by
  constructor
  · rintro rfl
    exact h.1 rfl
  · intro u hu
    have hclass := h.2.1 _ (List.mem_map_of_mem hu)
    unfold IsIdentifierCharacter IsDigit IsUpper IsLower at hclass
    constructor <;> rintro rfl
    · rw [show (unit '.').toNat = 0x2e from rfl] at hclass
      omega
    · rw [show (unit '+').toNat = 0x2b from rfl] at hclass
      omega

theorem numeric_units {t : QString} (h : NumericIdentifier (units t)) :
    ∀ u ∈ t, u ≠ unit '.' ∧ u ≠ unit '+' ∧ u ≠ unit '-' := by
  intro u hu
  have hdigit := List.all_eq_true.mp (digits_of_numeric h) u hu
  exact ⟨digit_ne hdigit '.' (by decide), digit_ne hdigit '+' (by decide), digit_ne hdigit '-' (by decide)⟩

variable {major minor patch build : QString} {identifiers : List QString}

theorem VersionParts.core_units (h : VersionParts s major minor patch identifiers build) :
    ∀ u ∈ [unit '.'].intercalate [major, minor, patch], u ≠ unit '+' ∧ u ≠ unit '-' := by
  intro u hu
  rcases mem_intercalate hu with rfl | ⟨part, hpart, hu⟩
  · exact ⟨by decide, by decide⟩
  · have hnumber : NumericIdentifier (units part) := by
      simp only [List.mem_cons, List.not_mem_nil, or_false] at hpart
      rcases hpart with rfl | rfl | rfl
      · exact h.numbers.1
      · exact h.numbers.2.1
      · exact h.numbers.2.2
    exact (numeric_units hnumber u hu).2

theorem VersionParts.withoutBuild_eq (h : VersionParts s major minor patch identifiers build) :
    withoutBuild s = [unit '.'].intercalate [major, minor, patch] ++
      (if identifiers = [] then [] else unit '-' :: [unit '.'].intercalate identifiers) := by
  have hbuild : build.takeWhile (· ≠ unit '+') = [] := by
    rcases h.build with hnil | ⟨_, -, hbuild, -⟩
    · rw [List.map_eq_nil_iff.mp hnil]
      rfl
    · obtain ⟨u, rest, rfl, hu, -⟩ := List.map_eq_cons_iff.mp hbuild
      rw [show u = unit '+' from UInt16.toNat_inj.mp hu]
      rfl
  rw [withoutBuild, h.text, List.takeWhile_append_of_pos, hbuild, List.append_nil]
  intro u hu
  rw [decide_eq_true_eq]
  rcases List.mem_append.mp hu with hu | hu
  · exact (h.core_units u hu).1
  · split_ifs at hu with hnone
    · simp at hu
    · rcases List.mem_cons.mp hu with rfl | hu
      · decide
      · rcases mem_intercalate hu with rfl | ⟨i, hi, hu⟩
        · decide
        · exact ((identifier_units (h.identifiers i hi)).2 u hu).2

theorem VersionParts.coreParts_eq (h : VersionParts s major minor patch identifiers build) :
    coreParts (withoutBuild s) = [major, minor, patch] := by
  have hrest : (if identifiers = [] then [] else unit '-' :: [unit '.'].intercalate identifiers).takeWhile (· ≠ unit '-') = [] := by
    split_ifs
    · rfl
    · rw [List.takeWhile_cons_of_neg (by simp)]
  rw [coreParts, h.withoutBuild_eq, List.takeWhile_append_of_pos, hrest, List.append_nil, splitAt, List.splitOn_intercalate]
  · intro part hpart hdot
    simp only [List.mem_cons, List.not_mem_nil, or_false] at hpart
    rcases hpart with rfl | rfl | rfl
    · exact (numeric_units h.numbers.1 _ hdot).1 rfl
    · exact (numeric_units h.numbers.2.1 _ hdot).1 rfl
    · exact (numeric_units h.numbers.2.2 _ hdot).1 rfl
  · simp
  · intro u hu
    rw [decide_eq_true_eq]
    exact (h.core_units u hu).2

theorem VersionParts.prereleaseParts_eq (h : VersionParts s major minor patch identifiers build) :
    prereleaseParts (withoutBuild s) = if identifiers = [] then none else some identifiers := by
  have hcore : ∀ u ∈ [unit '.'].intercalate [major, minor, patch], decide (u ≠ unit '-') = true := fun u hu =>
    decide_eq_true (h.core_units u hu).2
  rw [prereleaseParts, h.withoutBuild_eq]
  by_cases hnone : identifiers = []
  · rw [if_pos hnone, if_pos hnone, List.append_nil, if_neg]
    rw [List.contains_iff_mem]
    exact fun hin => (h.core_units _ hin).2 rfl
  · rw [if_neg hnone, if_neg hnone, if_pos (by simp), List.dropWhile_append_of_pos hcore,
      List.dropWhile_cons_of_neg (by simp), List.drop_one, List.tail_cons, splitAt, List.splitOn_intercalate]
    · exact fun i hi hdot => ((identifier_units (h.identifiers i hi)).2 _ hdot).1 rfl
    · exact hnone

theorem map_intercalate {α β : Type} (f : α → β) (separator : List α) (parts : List (List α)) :
    (separator.intercalate parts).map f = (separator.map f).intercalate (parts.map (·.map f)) := by
  induction parts with
  | nil => rfl
  | cons part parts ih =>
    cases parts with
    | nil => simp
    | cons second parts =>
      simp only [List.intercalate_cons_cons, List.map_cons, List.map_append] at ih ⊢
      rw [ih]

/-- The text of characters. -/
def ofUnits (t : List Nat) : QString := t.map UInt16.ofNat

theorem units_ofUnits {t : List Nat} (h : ∀ c ∈ t, c < 0xd800) : units (ofUnits t) = t := by
  rw [units, ofUnits, List.map_map]
  refine (List.map_congr_left fun c hc => ?_).trans (List.map_id t)
  exact UInt16.toNat_ofNat_of_lt (Nat.lt_trans (h c hc) (by decide))

theorem ofUnits_units (s : QString) : ofUnits (units s) = s := by
  rw [units, ofUnits, List.map_map]
  refine (List.map_congr_left fun u _ => ?_).trans (List.map_id s)
  exact UInt16.ofNat_toNat

/-- A text of the grammar has parts. -/
theorem parts_of_versionText (h : VersionText (units s)) :
    ∃ major minor patch identifiers build, VersionParts s major minor patch identifiers build := by
  have hbasic := versionText_basic _ h
  obtain ⟨major, minor, patch, prerelease, build, hs, ⟨hmajor, hminor, hpatch⟩, hprerelease, hbuild⟩ := h
  have hclass : ∀ c ∈ major ++ minor ++ patch ++ prerelease ++ build, c < 0xd800 := by
    intro c hc
    refine hbasic c ?_
    rw [hs]
    simp only [List.mem_append, List.mem_cons] at hc ⊢
    tauto
  simp only [List.forall_mem_append] at hclass
  obtain ⟨⟨⟨⟨hmajor', hminor'⟩, hpatch'⟩, hprerelease'⟩, hbuild'⟩ := hclass
  have hdot : UInt16.ofNat 0x2e = unit '.' := rfl
  have htext : s = [unit '.'].intercalate [ofUnits major, ofUnits minor, ofUnits patch] ++ ofUnits prerelease ++ ofUnits build := by
    rw [← ofUnits_units s, hs]
    simp [ofUnits, hdot, List.intercalate_cons_cons]
  rcases hprerelease with rfl | ⟨identifiers, hne, rfl, hidentifiers⟩
  · refine ⟨ofUnits major, ofUnits minor, ofUnits patch, [], ofUnits build, ?_, ?_, by simp, ?_⟩
    · rw [if_pos rfl]
      exact htext
    · rw [units_ofUnits hmajor', units_ofUnits hminor', units_ofUnits hpatch']
      exact ⟨hmajor, hminor, hpatch⟩
    · rwa [units_ofUnits hbuild']
  · have hall : ∀ i ∈ identifiers, ∀ c ∈ i, c < 0xd800 := by
      intro i hi c hc
      have hcharacter := (hidentifiers i hi).2.1 c hc
      unfold IsIdentifierCharacter IsDigit IsUpper IsLower at hcharacter
      omega
    refine ⟨ofUnits major, ofUnits minor, ofUnits patch, identifiers.map ofUnits, ofUnits build, ?_, ?_, ?_, ?_⟩
    · have hpart : ofUnits (0x2d :: [0x2e].intercalate identifiers) = unit '-' :: [unit '.'].intercalate (identifiers.map ofUnits) := by
        rw [ofUnits, List.map_cons, map_intercalate]
        rfl
      rw [if_neg (by simpa using hne), htext, hpart]
    · rw [units_ofUnits hmajor', units_ofUnits hminor', units_ofUnits hpatch']
      exact ⟨hmajor, hminor, hpatch⟩
    · intro i hi
      obtain ⟨t, ht, rfl⟩ := List.mem_map.mp hi
      rw [units_ofUnits (hall t ht)]
      exact hidentifiers t ht
    · rwa [units_ofUnits hbuild']

/-- Parts make a text of the grammar. -/
theorem VersionParts.versionText (h : VersionParts s major minor patch identifiers build) : VersionText (units s) := by
  refine ⟨units major, units minor, units patch, units (if identifiers = [] then [] else unit '-' :: [unit '.'].intercalate identifiers),
    units build, ?_, h.numbers, ?_, h.build⟩
  · rw [h.text]
    simp only [units, List.map_append, map_intercalate]
    simp [List.intercalate_cons_cons, show (unit '.').toNat = 0x2e from rfl]
  · split_ifs with hnone
    · exact .inl rfl
    · refine .inr ⟨identifiers.map units, by simpa using hnone, ?_, fun i hi => ?_⟩
      · rw [units, List.map_cons, map_intercalate]
        rfl
      · obtain ⟨t, ht, rfl⟩ := List.mem_map.mp hi
        exact h.identifiers t ht

end Texts

section Compared
open Std
variable {a b : QString} {v w : Version}

theorem exists_readsIdentifier {t : QString} (h : PrereleaseIdentifier (units t)) : ∃ i, ReadsIdentifier t i := by
  by_cases hdigits : ∀ c ∈ units t, IsDigit c
  · exact ⟨_, .numeric (h.2.2 hdigits)⟩
  · push Not at hdigits
    exact ⟨_, .alphanumeric h hdigits⟩

theorem isNumericPart_iff {t : QString} (h : ∀ c ∈ units t, IsIdentifierCharacter c) :
    isNumericPart t = true ↔ ∀ c ∈ units t, IsDigit c := by
  simp only [isNumericPart, List.all_eq_true, units, List.mem_map, forall_exists_index, and_imp, forall_apply_eq_imp_iff₂]
  refine forall₂_congr fun u hu => ?_
  have hcharacter := h _ (List.mem_map_of_mem hu)
  refine isDecimalDigit_ascii ?_
  unfold IsIdentifierCharacter IsDigit IsUpper IsLower at hcharacter
  omega

theorem compareUnits_units (s t : QString) : compareUnits s t = List.compareLex compare (units s) (units t) := by
  induction s generalizing t with
  | nil => cases t <;> rfl
  | cons u s ih =>
    cases t with
    | nil => rfl
    | cons w t =>
      rw [compareUnits, List.compareLex_cons_cons, show List.compareLex (compareOn UInt16.toNat) s t = _ from ih t]
      change _ = List.compareLex compare (u.toNat :: units s) (w.toNat :: units t)
      rw [List.compareLex_cons_cons]
      rfl

theorem comparePart_precedence {s t : QString} {i j : Identifier} (hs : ReadsIdentifier s i) (ht : ReadsIdentifier t j) :
    comparePart s t = i.precedence j := by
  have hnumeric {r : QString} (h : NumericIdentifier (units r)) : isNumericPart r = true :=
    (isNumericPart_iff fun c hc => .inl (h.2.1 c hc)).mpr h.2.1
  have hother {r : QString} (h : PrereleaseIdentifier (units r)) (hother : ∃ c ∈ units r, ¬ IsDigit c) : isNumericPart r = false := by
    rw [Bool.eq_false_iff, ne_eq, isNumericPart_iff h.2.1]
    push Not
    exact hother
  unfold comparePart
  cases hs with
  | numeric hs =>
    cases ht with
    | numeric ht =>
      rw [hnumeric hs, hnumeric ht]
      exact compareNumeric_value hs ht
    | alphanumeric ht ht' =>
      rw [hnumeric hs, hother ht ht']
      rfl
  | alphanumeric hs hs' =>
    cases ht with
    | numeric ht =>
      rw [hother hs hs', hnumeric ht]
      rfl
    | alphanumeric ht ht' =>
      rw [hother hs hs', hother ht ht']
      exact compareUnits_units s t

theorem comparePrerelease_precedence {is js : List QString} {ks ls : List Identifier} (hi : List.Forall₂ ReadsIdentifier is ks)
    (hj : List.Forall₂ ReadsIdentifier js ls) : comparePrerelease is js = List.compareLex Identifier.precedence ks ls := by
  rw [comparePrerelease_eq]
  induction hi generalizing js ls with
  | nil =>
    cases hj with
    | nil => rfl
    | cons _ _ => rfl
  | cons hhead _ ih =>
    cases hj with
    | nil => rfl
    | cons hhead' htail' =>
      rw [List.compareLex_cons_cons, List.compareLex_cons_cons, comparePart_precedence hhead hhead', ih htail']

/-- Versions are compared by their precedence. -/
theorem compareSemanticVersions_precedence (ha : ReadsVersion a v) (hb : ReadsVersion b w) :
    compareSemanticVersions a b = v.precedence w := by
  obtain ⟨major, minor, patch, identifiers, build, hparts, hmajor, hminor, hpatch, hidentifiers⟩ := ha
  obtain ⟨major', minor', patch', identifiers', build', hparts', hmajor', hminor', hpatch', hidentifiers'⟩ := hb
  have hcore := compareNumeric_value hparts.numbers.1 hparts'.numbers.1
  have hcore' := compareNumeric_value hparts.numbers.2.1 hparts'.numbers.2.1
  have hcore'' := compareNumeric_value hparts.numbers.2.2 hparts'.numbers.2.2
  have hprerelease : comparePrereleaseParts (if identifiers = [] then none else some identifiers)
      (if identifiers' = [] then none else some identifiers') = match v.prerelease, w.prerelease with
        | [], [] => .eq
        | [], _ :: _ => .gt
        | _ :: _, [] => .lt
        | _, _ => List.compareLex Identifier.precedence v.prerelease w.prerelease := by
    cases hv : v.prerelease with
    | nil =>
      obtain rfl := List.forall₂_nil_right_iff.mp (hv ▸ hidentifiers)
      cases hw : w.prerelease with
      | nil =>
        obtain rfl := List.forall₂_nil_right_iff.mp (hw ▸ hidentifiers')
        rfl
      | cons l ls =>
        obtain ⟨_, _, -, -, rfl⟩ := List.forall₂_cons_right_iff.mp (hw ▸ hidentifiers')
        rfl
    | cons k ks =>
      obtain ⟨_, _, -, -, rfl⟩ := List.forall₂_cons_right_iff.mp (hv ▸ hidentifiers)
      cases hw : w.prerelease with
      | nil =>
        obtain rfl := List.forall₂_nil_right_iff.mp (hw ▸ hidentifiers')
        rfl
      | cons l ls =>
        obtain ⟨_, _, -, -, rfl⟩ := List.forall₂_cons_right_iff.mp (hw ▸ hidentifiers')
        rw [if_neg (List.cons_ne_nil _ _), if_neg (List.cons_ne_nil _ _)]
        exact (comparePrerelease_precedence hidentifiers hidentifiers').trans (by rw [hv, hw])
  unfold compareSemanticVersions Version.precedence compareCore
  dsimp only
  rw [hparts.coreParts_eq, hparts'.coreParts_eq, hparts.prereleaseParts_eq, hparts'.prereleaseParts_eq, hprerelease]
  simp only [List.getD_cons_zero, List.getD_cons_succ, hcore, hcore', hcore'', hmajor, hminor, hpatch, hmajor', hminor', hpatch',
    Ordering.then_assoc]

/-- Versions that agree in everything but build metadata. -/
theorem compareSemanticVersions_eq (ha : ReadsVersion a v) (hb : ReadsVersion b w) :
    compareSemanticVersions a b = .eq ↔ withoutBuild a = withoutBuild b := by
  constructor
  · intro h
    obtain ⟨major, minor, patch, identifiers, build, hparts, -⟩ := ha
    obtain ⟨major', minor', patch', identifiers', build', hparts', -⟩ := hb
    unfold compareSemanticVersions compareCore at h
    dsimp only at h
    rw [hparts.coreParts_eq, hparts'.coreParts_eq, hparts.prereleaseParts_eq, hparts'.prereleaseParts_eq] at h
    simp only [Ordering.then_eq_eq, List.getD_cons_zero, List.getD_cons_succ] at h
    obtain ⟨⟨hmajor, hminor, hpatch⟩, hprerelease⟩ := h
    have hidentifiers : identifiers = identifiers' := by
      have := LawfulEqCmp.eq_of_compare hprerelease
      split_ifs at this with hnone hnone' hnone'
      · rw [hnone, hnone']
      · exact Option.some_inj.mp this
    rw [hparts.withoutBuild_eq, hparts'.withoutBuild_eq, LawfulEqCmp.eq_of_compare hmajor, LawfulEqCmp.eq_of_compare hminor,
      LawfulEqCmp.eq_of_compare hpatch, hidentifiers]
  · intro h
    have hself : compareSemanticVersions b b = .eq := ReflCmp.compare_self
    have hsame : compareSemanticVersions a b = compareSemanticVersions b b := by
      unfold compareSemanticVersions
      rw [h]
    exact hsame.trans hself

theorem exists_readsVersion (h : VersionText (units a)) : ∃ v, ReadsVersion a v := by
  obtain ⟨major, minor, patch, identifiers, build, hparts⟩ := parts_of_versionText h
  obtain ⟨read, hread⟩ : ∃ read, List.Forall₂ ReadsIdentifier identifiers read := by
    have hall := hparts.identifiers
    clear hparts
    induction identifiers with
    | nil => exact ⟨[], .nil⟩
    | cons i identifiers ih =>
      obtain ⟨hi, hall⟩ := List.forall_mem_cons.mp hall
      obtain ⟨k, hk⟩ := exists_readsIdentifier hi
      obtain ⟨read, hread⟩ := ih hall
      exact ⟨k :: read, .cons hk hread⟩
  exact ⟨⟨naturalValue major, naturalValue minor, naturalValue patch, read⟩, major, minor, patch, identifiers, build, hparts,
    rfl, rfl, rfl, hread⟩

/-- What the comparison of two versions is to be. -/
structure ComparedByPrecedence (a b : QString) : Prop where
  swap : compareSemanticVersions b a = (compareSemanticVersions a b).swap
  trans : ∀ c, (compareSemanticVersions a b).isLE → (compareSemanticVersions b c).isLE → (compareSemanticVersions a c).isLE
  zero : compareSemanticVersions a b = .eq ↔ withoutBuild a = withoutBuild b
  precedence : ∃ v w, ReadsVersion a v ∧ ReadsVersion b w ∧ compareSemanticVersions a b = v.precedence w

/-- Accepted versions are compared by precedence unless one of them ends in a line feed. -/
theorem versions_compared (ha : isStrictSemanticVersion a = true) (hb : isStrictSemanticVersion b = true) :
    ComparedByPrecedence a b ↔ a.getLast? ≠ some 0x0a ∧ b.getLast? ≠ some 0x0a := by
  have hclean {s : QString} {v : Version} (h : ReadsVersion s v) : s.getLast? ≠ some 0x0a := by
    obtain ⟨_, _, _, _, _, hparts, -⟩ := h
    intro hlast
    have hmem : (0x0a : UInt16).toNat ∈ units s := List.mem_map_of_mem (List.mem_of_getLast? hlast)
    exact (versionText_clean _ hparts.versionText).1 hmem
  have hgrammar {s : QString} (hs : isStrictSemanticVersion s = true) (hlast : s.getLast? ≠ some 0x0a) : VersionText (units s) := by
    refine (isStrictSemanticVersion_iff.mp hs).2.resolve_right ?_
    rintro ⟨t, ht, -⟩
    obtain ⟨front, feed, rfl, -, hfeed⟩ := List.map_eq_append_iff.mp ht
    obtain ⟨u, rfl, hu⟩ := List.map_eq_singleton_iff.mp hfeed
    rw [show u = 0x0a from UInt16.toNat_inj.mp hu] at hlast
    simp at hlast
  constructor
  · rintro ⟨-, -, -, v, w, hv, hw, -⟩
    exact ⟨hclean hv, hclean hw⟩
  · rintro ⟨hlastA, hlastB⟩
    obtain ⟨v, hv⟩ := exists_readsVersion (hgrammar ha hlastA)
    obtain ⟨w, hw⟩ := exists_readsVersion (hgrammar hb hlastB)
    exact ⟨OrientedCmp.eq_swap, fun _ => TransCmp.isLE_trans, compareSemanticVersions_eq hv hw, v, w, hv, hw,
      compareSemanticVersions_precedence hv hw⟩

/-- With a line feed behind it the lower version is above the higher one. -/
theorem versions_misordered :
    isStrictSemanticVersion (qstr "1.0.9\n") = true ∧ isStrictSemanticVersion (qstr "1.0.10") = true ∧
      compareSemanticVersions (qstr "1.0.10") (qstr "1.0.9") = .gt ∧
      compareSemanticVersions (qstr "1.0.10") (qstr "1.0.9\n") = .lt ∧
      ¬ ComparedByPrecedence (qstr "1.0.10") (qstr "1.0.9\n") := by
  have hcompared : isStrictSemanticVersion (qstr "1.0.9\n") = true ∧ isStrictSemanticVersion (qstr "1.0.10") = true ∧
      compareSemanticVersions (qstr "1.0.10") (qstr "1.0.9") = .gt ∧
      compareSemanticVersions (qstr "1.0.10") (qstr "1.0.9\n") = .lt ∧ 0x0a ∈ units (qstr "1.0.9\n") := by
    decide +kernel
  obtain ⟨hfeed, haccepted, hplain, hmisordered, hmem⟩ := hcompared
  refine ⟨hfeed, haccepted, hplain, hmisordered, fun h => ?_⟩
  obtain ⟨_, _, -, ⟨_, _, _, _, _, hparts, -⟩, -⟩ := h.precedence
  exact (versionText_clean _ hparts.versionText).1 hmem

theorem versions_compared_sample : ComparedByPrecedence (qstr "1.0.0-alpha.1") (qstr "1.0.0-alpha.beta+b") := by
  have haccepted : (isStrictSemanticVersion (qstr "1.0.0-alpha.1") = true ∧
      isStrictSemanticVersion (qstr "1.0.0-alpha.beta+b") = true) ∧
      (qstr "1.0.0-alpha.1").getLast? ≠ some 0x0a ∧ (qstr "1.0.0-alpha.beta+b").getLast? ≠ some 0x0a := by
    decide +kernel
  exact (versions_compared haccepted.1.1 haccepted.1.2).mpr haccepted.2

end Compared

end HyprShelld.Client
