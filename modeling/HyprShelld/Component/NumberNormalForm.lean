import HyprShelld.Component.StrictJson
import HyprShelld.Text.Numeral
import Mathlib.Data.List.TakeWhile

/-! The normal form of JSON numbers: two lexemes have the same one when they denote the same rational. -/
namespace HyprShelld.Components
open Json

section Digits

/-- The value of a run of digits. -/
def naturalValue (ds : QString) : Nat := digitsValue (ds.map fun u => u.toNat - 0x30)

theorem naturalValue_append (a b : QString) : naturalValue (a ++ b) = naturalValue a * 10 ^ b.length + naturalValue b := by
  rw [naturalValue, List.map_append, digitsValue_append, List.length_map]
  rfl

theorem naturalValue_cons (u : UInt16) (ds : QString) :
    naturalValue (u :: ds) = (u.toNat - 0x30) * 10 ^ ds.length + naturalValue ds := by
  rw [naturalValue, List.map_cons, digitsValue_cons, List.length_map]
  rfl

theorem naturalValue_replicate (k : Nat) : naturalValue (List.replicate k (unit '0')) = 0 := by
  induction k with
  | zero => rfl
  | succ k ih =>
    rw [List.replicate_succ, naturalValue_cons, ih]
    simp [show (unit '0').toNat = 0x30 from rfl]

theorem decimalValue_eq {ds : QString} (h : ds.all isDigit = true) : decimalValue 0 ds = some (naturalValue ds) := by
  suffices hfold : ∀ n, decimalValue n ds = some ((ds.map fun u => u.toNat - 0x30).foldl (fun n d => 10 * n + d) n) from hfold 0
  induction ds with
  | nil => exact fun n => rfl
  | cons u ds ih =>
    intro n
    obtain ⟨hu, hds⟩ := Bool.and_eq_true_iff.mp h
    have hdigit : digitValue u = some (u.toNat - 0x30) := by
      rw [digitValue, if_pos (by simpa [isDigit] using hu)]
    rw [decimalValue, hdigit, Option.bind_some, ih hds]
    rfl

/-- Zeros in front of digits do not count. -/
theorem naturalValue_dropZeros (ds : QString) : naturalValue (ds.dropWhile (· = unit '0')) = naturalValue ds := by
  induction ds with
  | nil => rfl
  | cons u ds ih =>
    by_cases hu : u = unit '0'
    · rw [List.dropWhile_cons_of_pos (by simpa using hu), ih, naturalValue_cons, hu]
      simp [show (unit '0').toNat = 0x30 from rfl]
    · rw [List.dropWhile_cons_of_neg (by simpa using hu)]

theorem nonzero_digit {u : UInt16} (h : isDigit u = true) (hu : u ≠ unit '0') : 1 ≤ u.toNat - 0x30 ∧ u.toNat - 0x30 ≤ 9 := by
  have hne : u.toNat ≠ 0x30 := fun he => hu (UInt16.toNat_inj.mp he)
  simp only [isDigit, Bool.and_eq_true, decide_eq_true_eq] at h
  omega

/-- Digits that neither start nor end with a zero are those of their value, which ten does not divide. -/
theorem naturalValue_reduced {ds : QString} (hdigits : ds.all isDigit = true) (hlast : ds.getLast? ≠ some (unit '0'))
    (hne : ds ≠ []) : ¬ 10 ∣ naturalValue ds := by
  obtain ⟨front, u, rfl⟩ : ∃ front u, ds = front ++ [u] := ⟨_, _, (List.dropLast_append_getLast hne).symm⟩
  rw [List.all_append, Bool.and_eq_true] at hdigits
  have hu := nonzero_digit (by simpa using hdigits.2) (by simpa using hlast)
  have hone : naturalValue [u] = u.toNat - 0x30 := by simp [naturalValue, digitsValue]
  rw [naturalValue_append, hone, List.length_singleton]
  omega

theorem naturalValue_injective {a b : QString} (ha : a.all isDigit = true) (hb : b.all isDigit = true)
    (hheadA : a.head? ≠ some (unit '0')) (hheadB : b.head? ≠ some (unit '0')) (hneA : a ≠ []) (hneB : b ≠ [])
    (h : naturalValue a = naturalValue b) : a = b := by
  cases a with
  | nil => exact absurd rfl hneA
  | cons u s =>
    cases b with
    | nil => exact absurd rfl hneB
    | cons w t =>
      have hu := decimal_of_decimalValue (by simpa using hheadA) (decimalValue_eq ha)
      have hw := decimal_of_decimalValue (by simpa using hheadB) (decimalValue_eq hb)
      rw [← hu, ← hw, h]

end Digits

section Scaled

/-- A number that ten does not divide and a power of ten are found in their product. -/
theorem scaled_injective {m n : ℕ} {e f : ℤ} (hm : ¬ 10 ∣ m) (hn : ¬ 10 ∣ n) (h : (m : ℚ) * 10 ^ e = n * 10 ^ f) :
    m = n ∧ e = f := by
  have hle : ∀ {m n : ℕ} {e f : ℤ}, ¬ 10 ∣ m → (m : ℚ) * 10 ^ e = n * 10 ^ f → f ≤ e := by
    intro m n e f hm h
    by_contra hlt
    obtain ⟨k, hk⟩ := Int.eq_ofNat_of_zero_le (show 0 ≤ f - e - 1 by omega)
    have hf : f = e + (k + 1 : ℕ) := by
      push_cast
      omega
    rw [hf, zpow_add₀ (by norm_num), zpow_natCast, mul_comm ((10 : ℚ) ^ e), ← mul_assoc] at h
    have hcancel := mul_right_cancel₀ (zpow_ne_zero e (by norm_num : (10 : ℚ) ≠ 0)) h
    have hnat : m = n * 10 ^ (k + 1) := by exact_mod_cast hcancel
    exact hm ⟨n * 10 ^ k, by rw [hnat, pow_succ]; ring⟩
  obtain rfl : e = f := le_antisymm (hle hn h.symm) (hle hm h)
  exact ⟨by exact_mod_cast mul_right_cancel₀ (zpow_ne_zero e (by norm_num : (10 : ℚ) ≠ 0)) h, rfl⟩

end Scaled

section Denotation

/-- The digits behind the point of a fraction. -/
inductive DenotesFraction : QString → QString → Prop where
  | absent : DenotesFraction [] []
  | digits {ds : QString} (hds : IsDigits ds) : DenotesFraction (unit '.' :: ds) ds

inductive DenotesExponent : QString → ℤ → Prop where
  | absent : DenotesExponent [] 0
  | digits {marker : UInt16} {sign ds : QString} (hmarker : marker = unit 'e' ∨ marker = unit 'E')
      (hsign : sign = [] ∨ sign = [unit '+'] ∨ sign = [unit '-']) (hds : IsDigits ds) :
      DenotesExponent (marker :: sign ++ ds) (if sign = [unit '-'] then -naturalValue ds else naturalValue ds)

/-- A lexeme of the JSON grammar and the rational number it denotes. -/
def Denotes (s : QString) (q : ℚ) : Prop :=
  ∃ sign int fractionText fraction exponentText exponent, s = sign ++ int ++ fractionText ++ exponentText ∧
    (sign = [] ∨ sign = [unit '-']) ∧ IsInteger int ∧ DenotesFraction fractionText fraction ∧
    DenotesExponent exponentText exponent ∧
    q = (if sign = [] then 1 else -1) * (naturalValue (int ++ fraction) * 10 ^ (exponent - fraction.length))

theorem digit_ne {u : UInt16} (h : isDigit u = true) (c : Char) (hc : isDigit (unit c) = false) : u ≠ unit c := by
  rintro rfl
  rw [hc] at h
  cases h

theorem isInteger_digits {int : QString} (h : IsInteger int) : int.all isDigit = true := by
  rcases h with rfl | ⟨u, rest, rfl, hu, hrest⟩
  · decide
  · simp only [isNonzeroDigit, Bool.and_eq_true, decide_eq_true_eq] at hu
    rw [List.all_cons, hrest, Bool.and_true]
    simp only [isDigit, Bool.and_eq_true, decide_eq_true_eq]
    omega

theorem DenotesFraction.digits_all {text fraction : QString} (h : DenotesFraction text fraction) :
    fraction.all isDigit = true := by
  cases h with
  | absent => rfl
  | digits hds => exact hds.2

/-- What the loop over a significand collects. -/
theorem DenotesFraction.collected {int text fraction : QString} (hint : int.all isDigit = true)
    (h : DenotesFraction text fraction) : (int ++ text).filter (· ≠ unit '.') = int ++ fraction ∧
      (((int ++ text).dropWhile (· ≠ unit '.')).filter (· ≠ unit '.')) = fraction := by
  have hpoint {ds : QString} (hds : ds.all isDigit = true) : ∀ u ∈ ds, decide (u ≠ unit '.') = true := fun u hu =>
    decide_eq_true (digit_ne (List.all_eq_true.mp hds u hu) '.' (by decide))
  have hdrop : (int ++ text).dropWhile (· ≠ unit '.') = text.dropWhile (· ≠ unit '.') :=
    List.dropWhile_append_of_pos (hpoint hint)
  rw [hdrop, List.filter_append, List.filter_eq_self.mpr (hpoint hint)]
  cases h with
  | absent => simp
  | digits hds =>
    rw [List.filter_cons_of_neg (by simp), List.dropWhile_cons_of_neg (by simp), List.filter_cons_of_neg (by simp),
      List.filter_eq_self.mpr (hpoint hds.2)]
    exact ⟨rfl, rfl⟩

/-- The marker of an exponent stands behind the significand. -/
theorem exponentPosition_significand {significand exponentText : QString} {exponent : ℤ}
    (hplain : ∀ u ∈ significand, u ≠ unit 'e' ∧ u ≠ unit 'E') (h : DenotesExponent exponentText exponent) :
    exponentPosition (significand ++ exponentText) = if exponentText = [] then none else some significand.length := by
  have habsent (c : Char) (hc : ∀ u ∈ significand, u ≠ unit c) (t : QString) : (significand ++ t).findIdx? (· = unit c) =
      (t.findIdx? (· = unit c)).map (· + significand.length) := by
    have hnone : significand.findIdx? (· = unit c) = none := by simpa using hc
    rw [List.findIdx?_append, hnone, Option.none_or]
  have he := habsent 'e' fun u hu => (hplain u hu).1
  have hE := habsent 'E' fun u hu => (hplain u hu).2
  cases h with
  | absent =>
    rw [exponentPosition, he, hE]
    rfl
  | digits hmarker hsign hds =>
    rename_i marker sign ds
    rw [if_neg (by simp), exponentPosition, he, hE, List.cons_append, List.findIdx?_cons, List.findIdx?_cons]
    rcases hmarker with rfl | rfl
    · simp
    · have hrest : (sign ++ ds).findIdx? (· = unit 'e') = none := by
        simp only [List.findIdx?_eq_none_iff, decide_eq_false_iff_not]
        intro u hu
        rcases List.mem_append.mp hu with hu | hu
        · rcases hsign with rfl | rfl | rfl
          · simp at hu
          · rw [List.mem_singleton.mp hu]
            decide
          · rw [List.mem_singleton.mp hu]
            decide
        · exact digit_ne (List.all_eq_true.mp hds.2 u hu) 'e' (by decide)
      rw [if_neg (by decide), hrest]
      simp

/-- A signed exponent is read as its value when it fits. -/
theorem toLongLong_exponent {sign ds : QString} (hsign : sign = [] ∨ sign = [unit '+'] ∨ sign = [unit '-'])
    (hds : IsDigits ds) {z : Int} (h : toLongLong (sign ++ ds) = some z) :
    z = if sign = [unit '-'] then -(naturalValue ds : Int) else naturalValue ds := by
  have hdigitSpace {u : UInt16} (hu : isDigit u = true) : isSpace u = false := by
    simp only [isDigit, Bool.and_eq_true, decide_eq_true_eq] at hu
    simp only [isSpace, Bool.or_eq_false_iff, Bool.and_eq_false_imp, decide_eq_false_iff_not, decide_eq_true_eq]
    omega
  have htrimmed : trimmed (sign ++ ds) = sign ++ ds := by
    refine trimmed_eq fun u hu => ?_
    rcases List.mem_append.mp hu with hu | hu
    · rcases hsign with rfl | rfl | rfl
      · simp at hu
      · rw [List.mem_singleton.mp hu]
        decide
      · rw [List.mem_singleton.mp hu]
        decide
    · exact hdigitSpace (List.all_eq_true.mp hds.2 u hu)
  obtain ⟨u, rest, rfl⟩ := List.exists_cons_of_ne_nil hds.1
  have hu := (Bool.and_eq_true_iff.mp hds.2).1
  unfold toLongLong at h
  rw [htrimmed] at h
  have hread {negative : Bool} {z : Int} (h : (do
      let magnitude ← decimalValue 0 (u :: rest)
      let value : Int := if negative then -(magnitude : Int) else magnitude
      if -2 ^ 63 ≤ value ∧ value < 2 ^ 63 then some value else none) = some z) :
      z = if negative then -(naturalValue (u :: rest) : Int) else naturalValue (u :: rest) := by
    rw [decimalValue_eq hds.2] at h
    dsimp only [Option.bind_eq_bind, Option.bind_some] at h
    by_cases hfits : -2 ^ 63 ≤ (if negative then -(naturalValue (u :: rest) : Int) else naturalValue (u :: rest)) ∧
        (if negative then -(naturalValue (u :: rest) : Int) else naturalValue (u :: rest)) < 2 ^ 63
    · rw [if_pos hfits] at h
      exact (Option.some_inj.mp h).symm
    · rw [if_neg hfits] at h
      cases h
  rcases hsign with rfl | rfl | rfl
  · dsimp only [List.nil_append] at h
    rw [if_neg (digit_ne hu '-' (by decide)), if_neg (digit_ne hu '+' (by decide))] at h
    dsimp only at h
    rw [if_neg (List.cons_ne_nil u rest)] at h
    rw [if_neg (by simp)]
    exact @hread false z h
  · dsimp only [List.singleton_append] at h
    rw [if_neg (show unit '+' ≠ unit '-' by decide), if_pos rfl] at h
    dsimp only at h
    rw [if_neg (List.cons_ne_nil u rest)] at h
    rw [if_neg (by decide)]
    exact @hread false z h
  · dsimp only [List.singleton_append] at h
    rw [if_pos rfl] at h
    dsimp only at h
    rw [if_neg (List.cons_ne_nil u rest)] at h
    rw [if_pos rfl]
    exact @hread true z h

end Denotation

section NormalForm

namespace NormalizedJsonNumber

def value (n : NormalizedJsonNumber) : ℚ :=
  (if n.negative then -1 else 1) * (naturalValue n.significantDigits * 10 ^ n.decimalExponent)

/-- Zero is spelled in one way, other digits have no zeros around them. -/
inductive Normal : NormalizedJsonNumber → Prop where
  | zero : Normal { significantDigits := qstr "0" }
  | digits {negative : Bool} {digits : QString} {exponent : Int} (hdigits : digits.all isDigit = true) (hne : digits ≠ [])
      (hhead : digits.head? ≠ some (unit '0')) (hlast : digits.getLast? ≠ some (unit '0')) : Normal ⟨negative, digits, exponent⟩

theorem value_zero : value { significantDigits := qstr "0" } = 0 := by
  have hzero : naturalValue (qstr "0") = 0 := by decide
  simp [value, hzero]

theorem value_digits_ne {negative : Bool} {digits : QString} {exponent : Int} (h : ¬ 10 ∣ naturalValue digits) :
    value ⟨negative, digits, exponent⟩ ≠ 0 := by
  have hpos : naturalValue digits ≠ 0 := fun hzero => h (hzero ▸ dvd_zero 10)
  have hten : (10 : ℚ) ^ exponent ≠ 0 := zpow_ne_zero exponent (by norm_num)
  unfold value
  split_ifs
  · exact mul_ne_zero (by norm_num) (mul_ne_zero (Nat.cast_ne_zero.mpr hpos) hten)
  · exact mul_ne_zero one_ne_zero (mul_ne_zero (Nat.cast_ne_zero.mpr hpos) hten)

theorem value_nonneg_iff {n : NormalizedJsonNumber} (h : n.value ≠ 0) : 0 ≤ n.value ↔ n.negative = false := by
  have hmagnitude : (0 : ℚ) ≤ naturalValue n.significantDigits * 10 ^ n.decimalExponent := by positivity
  unfold value at h ⊢
  cases hn : n.negative with
  | false => simpa using hmagnitude
  | true =>
    simp only [hn, if_true, neg_one_mul, ne_eq, neg_eq_zero] at h
    simp only [if_true, neg_one_mul, Left.nonneg_neg_iff, Bool.true_eq_false, iff_false, not_le]
    exact lt_of_le_of_ne hmagnitude (Ne.symm h)

/-- A normal form is determined by its value. -/
theorem Normal.value_injective {m n : NormalizedJsonNumber} (hm : m.Normal) (hn : n.Normal) (h : m.value = n.value) : m = n := by
  cases hm with
  | zero =>
    cases hn with
    | zero => rfl
    | digits hdigits hne _ hlast =>
      exact absurd (h.symm.trans value_zero) (value_digits_ne (naturalValue_reduced hdigits hlast hne))
  | digits hdigits hne hhead hlast =>
    have hreduced := naturalValue_reduced hdigits hlast hne
    cases hn with
    | zero => exact absurd (h.trans value_zero) (value_digits_ne hreduced)
    | digits hdigits' hne' hhead' hlast' =>
      rename_i negative digits exponent negative' digits' exponent'
      have hreduced' := naturalValue_reduced hdigits' hlast' hne'
      obtain rfl : negative = negative' := by
        have hsign := value_nonneg_iff (@value_digits_ne negative digits exponent hreduced)
        have hsign' := value_nonneg_iff (@value_digits_ne negative' digits' exponent' hreduced')
        rw [h, hsign'] at hsign
        cases negative <;> cases negative' <;> simp_all
      have hmagnitude : (naturalValue digits : ℚ) * 10 ^ exponent = naturalValue digits' * 10 ^ exponent' := by
        unfold value at h
        dsimp only at h
        split_ifs at h
        · simpa using h
        · simpa using h
      obtain ⟨hnatural, rfl⟩ := scaled_injective hreduced hreduced' hmagnitude
      rw [naturalValue_injective hdigits hdigits' hhead hhead' hne hne' hnatural]

end NormalizedJsonNumber

/-- What `normalizeJsonNumber` makes of the parts of a lexeme. -/
def normalizedParts (negative : Bool) (digits : QString) (fractionalDigits : Nat) (explicit : Option Int) :
    Option NormalizedJsonNumber :=
  if digits = [] then some { significantDigits := qstr "0" }
  else do
    let explicitExponent ← explicit
    if maximumInt64 < fractionalDigits ∨ explicitExponent < minimumInt64 + fractionalDigits then none
    else
      let trailing := (digits.drop 1).reverse.takeWhile (· = unit '0')
      let decimalExponent := explicitExponent - fractionalDigits
      if maximumInt64 < trailing.length ∨ maximumInt64 - trailing.length < decimalExponent then none
      else some {
        negative := negative
        significantDigits := digits.take (digits.length - trailing.length)
        decimalExponent := decimalExponent + trailing.length }

theorem toLongLong_range {s : QString} {z : Int} (h : toLongLong s = some z) : minimumInt64 ≤ z ∧ z ≤ maximumInt64 := by
  unfold toLongLong at h
  dsimp only at h
  split_ifs at h
  all_goals
    obtain ⟨magnitude, -, h⟩ := Option.bind_eq_some_iff.mp h
    split_ifs at h with hfits
    rw [← Option.some_inj.mp h]
    unfold minimumInt64 maximumInt64
    omega

section Parts
variable (lexeme : QString)

def unsigned : QString := if lexeme.head? = some (unit '-') then lexeme.drop 1 else lexeme

def significandOf : QString :=
  match exponentPosition (unsigned lexeme) with
  | some i => (unsigned lexeme).take i
  | none => unsigned lexeme

def fractionalDigits : Nat := (((significandOf lexeme).dropWhile (· ≠ unit '.')).filter (· ≠ unit '.')).length

def significantPart : QString := ((significandOf lexeme).filter (· ≠ unit '.')).dropWhile (· = unit '0')

def explicitExponent : Option Int :=
  match exponentPosition (unsigned lexeme) with
  | some i => toLongLong ((unsigned lexeme).drop (i + 1))
  | none => some 0

theorem normalizeJsonNumber_eq : normalizeJsonNumber lexeme =
    normalizedParts (decide (lexeme.head? = some (unit '-'))) (significantPart lexeme) (fractionalDigits lexeme) (explicitExponent lexeme) := by
  unfold normalizeJsonNumber significantPart fractionalDigits significandOf explicitExponent
  cases hposition : exponentPosition (unsigned lexeme) with
  | some i =>
    dsimp only
    rw [show exponentPosition (if lexeme.head? = some (unit '-') then lexeme.drop 1 else lexeme) = some i from hposition]
    rfl
  | none =>
    dsimp only
    rw [show exponentPosition (if lexeme.head? = some (unit '-') then lexeme.drop 1 else lexeme) = none from hposition]
    rfl

/-- The values of the exponent arithmetic of `normalizeJsonNumber`, as far as it gets. -/
def exponentArithmetic : List Int :=
  let fractional : Int := fractionalDigits lexeme
  let trailing : Int := (((significantPart lexeme).drop 1).reverse.takeWhile (· = unit '0')).length
  match explicitExponent lexeme with
  | none => []
  | some explicit =>
    explicit ::
      if maximumInt64 < fractional then []
      else (minimumInt64 + fractional) ::
        if explicit < minimumInt64 + fractional then []
        else (explicit - fractional) ::
          if maximumInt64 < trailing then []
          else (maximumInt64 - trailing) ::
            if maximumInt64 - trailing < explicit - fractional then [] else [explicit - fractional + trailing]

theorem explicitExponent_range {z : Int} (h : explicitExponent lexeme = some z) : minimumInt64 ≤ z ∧ z ≤ maximumInt64 := by
  have hminimum : minimumInt64 = -9223372036854775808 := by norm_num [minimumInt64]
  have hmaximum : maximumInt64 = 9223372036854775807 := by norm_num [maximumInt64]
  unfold explicitExponent at h
  split at h
  · exact toLongLong_range h
  · obtain rfl := Option.some_inj.mp h
    omega

theorem exponentArithmetic_range : ∀ z ∈ exponentArithmetic lexeme, minimumInt64 ≤ z ∧ z ≤ maximumInt64 := by
  have hminimum : minimumInt64 = -9223372036854775808 := by norm_num [minimumInt64]
  have hmaximum : maximumInt64 = 9223372036854775807 := by norm_num [maximumInt64]
  unfold exponentArithmetic
  cases hexplicit : explicitExponent lexeme with
  | none => simp
  | some explicit =>
    have hrange := explicitExponent_range lexeme hexplicit
    dsimp only
    refine List.forall_mem_cons.mpr ⟨hrange, ?_⟩
    split_ifs
    · simp
    · refine List.forall_mem_cons.mpr ⟨by omega, by simp⟩
    · refine List.forall_mem_cons.mpr ⟨by omega, List.forall_mem_cons.mpr ⟨by omega, by simp⟩⟩
    · refine List.forall_mem_cons.mpr ⟨by omega, List.forall_mem_cons.mpr ⟨by omega, List.forall_mem_cons.mpr ⟨by omega, by simp⟩⟩⟩
    · refine List.forall_mem_cons.mpr ⟨by omega, List.forall_mem_cons.mpr ⟨by omega, List.forall_mem_cons.mpr ⟨by omega, ?_⟩⟩⟩
      refine List.forall_mem_cons.mpr ⟨by omega, by simp⟩

/-- The fifth value, where the arithmetic gets so far, is the exponent of the normal form; where it stops there is none. -/
theorem exponentArithmetic_exponent (h : significantPart lexeme ≠ []) :
    (normalizeJsonNumber lexeme).map (·.decimalExponent) = (exponentArithmetic lexeme)[4]? := by
  rw [normalizeJsonNumber_eq, normalizedParts, if_neg h, exponentArithmetic]
  cases explicitExponent lexeme with
  | none => rfl
  | some explicit =>
    simp only [Option.bind_eq_bind, Option.bind_some]
    by_cases hfractional : maximumInt64 < fractionalDigits lexeme
    · simp [hfractional]
    by_cases hexplicit : explicit < minimumInt64 + fractionalDigits lexeme
    · simp [hfractional, hexplicit]
    rw [if_neg (by simp [hfractional, hexplicit]), if_neg hfractional, if_neg hexplicit]
    generalize (((significantPart lexeme).drop 1).reverse.takeWhile (· = unit '0')).length = trailing
    by_cases hlong : maximumInt64 < (trailing : Int)
    · rw [if_pos (Or.inl hlong), if_pos hlong]
      rfl
    by_cases hlarge : maximumInt64 - (trailing : Int) < explicit - fractionalDigits lexeme
    · rw [if_pos (Or.inr hlarge), if_neg hlong, if_pos hlarge]
      rfl
    rw [if_neg (not_or.mpr ⟨hlong, hlarge⟩), if_neg hlong, if_neg hlarge]
    rfl

end Parts

theorem parts_of_denotes {sign int fractionText fraction exponentText : QString} {exponent : ℤ}
    (hsign : sign = [] ∨ sign = [unit '-']) (hint : IsInteger int) (hfraction : DenotesFraction fractionText fraction)
    (hexponent : DenotesExponent exponentText exponent) {lexeme : QString}
    (hlexeme : lexeme = sign ++ int ++ fractionText ++ exponentText) :
    (lexeme.head? = some (unit '-') ↔ sign ≠ []) ∧ significantPart lexeme = (int ++ fraction).dropWhile (· = unit '0') ∧
      fractionalDigits lexeme = fraction.length ∧
      explicitExponent lexeme = if exponentText = [] then some 0 else toLongLong (exponentText.drop 1) := by
  have hdigits := isInteger_digits hint
  obtain ⟨hcollected, hbehind⟩ := hfraction.collected hdigits
  have hplain : ∀ u ∈ int ++ fractionText, u ≠ unit 'e' ∧ u ≠ unit 'E' := by
    have hdigit {ds : QString} (hds : ds.all isDigit = true) : ∀ u ∈ ds, u ≠ unit 'e' ∧ u ≠ unit 'E' := fun u hu =>
      ⟨digit_ne (List.all_eq_true.mp hds u hu) 'e' (by decide), digit_ne (List.all_eq_true.mp hds u hu) 'E' (by decide)⟩
    refine List.forall_mem_append.mpr ⟨hdigit hdigits, ?_⟩
    cases hfraction with
    | absent => simp
    | digits hds => exact List.forall_mem_cons.mpr ⟨by decide, hdigit hds.2⟩
  have hhead : lexeme.head? = some (unit '-') ↔ sign ≠ [] := by
    subst hlexeme
    rcases hsign with rfl | rfl
    · obtain ⟨u, rest, rfl⟩ : ∃ u rest, int = u :: rest := by
        rcases hint with rfl | ⟨u, rest, rfl, -⟩
        · exact ⟨_, _, rfl⟩
        · exact ⟨_, _, rfl⟩
      have hne := digit_ne (Bool.and_eq_true_iff.mp hdigits).1 '-' (by decide)
      simp [hne]
    · simp
  have hunsigned : unsigned lexeme = (int ++ fractionText) ++ exponentText := by
    unfold unsigned
    rcases hsign with rfl | rfl
    · rw [if_neg (mt hhead.mp (by simp)), hlexeme]
      simp
    · rw [if_pos (hhead.mpr (by simp)), hlexeme]
      simp
  have hposition := exponentPosition_significand hplain hexponent
  have hsignificand : significandOf lexeme = int ++ fractionText := by
    unfold significandOf
    rw [hunsigned, hposition]
    split_ifs with htext
    · rw [htext, List.append_nil]
    · exact List.take_left
  refine ⟨hhead, ?_, ?_, ?_⟩
  · rw [significantPart, hsignificand, hcollected]
  · rw [fractionalDigits, hsignificand, hbehind]
  · unfold explicitExponent
    rw [hunsigned, hposition]
    split_ifs with htext
    · rfl
    · dsimp only
      rw [← List.drop_drop, List.drop_left]

/-- Digits from the first nonzero one on, and how many zeros are at their end. -/
theorem reduced_digits {all digits : QString} (hall : all.all isDigit = true) (hdigits : all.dropWhile (· = unit '0') = digits)
    (hne : digits ≠ []) :
    let trailing := (digits.drop 1).reverse.takeWhile (· = unit '0')
    let reduced := digits.take (digits.length - trailing.length)
    reduced.all isDigit = true ∧ reduced ≠ [] ∧ reduced.head? ≠ some (unit '0') ∧ reduced.getLast? ≠ some (unit '0') ∧
      naturalValue all = naturalValue reduced * 10 ^ trailing.length := by
  have hvalue : naturalValue all = naturalValue digits := by rw [← hdigits, naturalValue_dropZeros]
  have hdigit : ∀ u ∈ digits, isDigit u = true := fun u hu =>
    List.all_eq_true.mp hall u ((List.dropWhile_sublist _).subset (hdigits ▸ hu))
  have hfirst : digits.head? ≠ some (unit '0') := by
    rw [← hdigits]
    intro h
    have := List.head?_dropWhile_not (· = unit '0') all
    rw [h] at this
    simp at this
  obtain ⟨u, rest, rfl⟩ := List.exists_cons_of_ne_nil hne
  have hu : u ≠ unit '0' := by simpa using hfirst
  simp only [List.drop_succ_cons, List.drop_zero]
  -- The digits behind the first are some that do not end with a zero, and zeros.
  obtain ⟨core, zeros, hrest, hcore, hzeros⟩ : ∃ core zeros : QString, rest = core ++ zeros ∧
      core.getLast? ≠ some (unit '0') ∧ zeros = List.replicate (rest.reverse.takeWhile (· = unit '0')).length (unit '0') := by
    refine ⟨(rest.reverse.dropWhile (· = unit '0')).reverse, (rest.reverse.takeWhile (· = unit '0')).reverse, ?_, ?_, ?_⟩
    · rw [← List.reverse_append, List.takeWhile_append_dropWhile, List.reverse_reverse]
    · rw [List.getLast?_reverse]
      intro h
      have := List.head?_dropWhile_not (· = unit '0') rest.reverse
      rw [h] at this
      simp at this
    · refine List.eq_replicate_iff.mpr ⟨List.length_reverse, fun w hw => ?_⟩
      simpa using List.mem_takeWhile_imp (List.mem_reverse.mp hw)
  set k := (rest.reverse.takeWhile (· = unit '0')).length with hk
  have hlength : (u :: rest).length - k = (u :: core).length := by
    rw [hrest, hzeros, List.length_cons, List.length_append, List.length_replicate, List.length_cons]
    omega
  have htake : (u :: rest).take ((u :: rest).length - k) = u :: core := by
    rw [hlength, hrest, ← List.cons_append, List.take_left]
  rw [htake]
  refine ⟨List.all_eq_true.mpr fun w hw => hdigit w ?_, by simp, by simpa using hu, ?_, ?_⟩
  · rw [hrest]
    rcases List.mem_cons.mp hw with rfl | hw
    · exact List.mem_cons_self
    · exact List.mem_cons_of_mem _ (List.mem_append_left _ hw)
  · cases core with
    | nil => simpa using hu
    | cons w core => rwa [List.getLast?_cons_cons]
  · rw [hvalue, hrest, hzeros, ← List.cons_append, naturalValue_append, naturalValue_replicate, List.length_replicate, add_zero]

/-- The normal form of a lexeme is normal, and has its value. -/
theorem normalizeJsonNumber_value {s : QString} {q : ℚ} {n : NormalizedJsonNumber} (hs : Denotes s q)
    (h : normalizeJsonNumber s = some n) : n.Normal ∧ n.value = q := by
  obtain ⟨sign, int, fractionText, fraction, exponentText, exponent, rfl, hsign, hint, hfraction, hexponent, rfl⟩ := hs
  obtain ⟨hsigned, hdigits, hfractional, hexplicitText⟩ := parts_of_denotes hsign hint hfraction hexponent rfl
  rw [normalizeJsonNumber_eq, hdigits, hfractional, hexplicitText] at h
  have hall : (int ++ fraction).all isDigit = true := by
    rw [List.all_append, isInteger_digits hint, hfraction.digits_all]
    rfl
  have hexplicit {z : Int} (hz : (if exponentText = [] then some 0 else toLongLong (exponentText.drop 1)) = some z) : z = exponent := by
    cases hexponent with
    | absent => simpa using hz.symm
    | digits hmarker hsign hds =>
      rw [if_neg (by simp), List.cons_append, List.drop_one, List.tail_cons] at hz
      exact toLongLong_exponent hsign hds hz
  unfold normalizedParts at h
  by_cases hzero : (int ++ fraction).dropWhile (· = unit '0') = []
  · rw [if_pos hzero] at h
    obtain rfl := Option.some_inj.mp h
    have hnatural : naturalValue (int ++ fraction) = 0 := by
      rw [← naturalValue_dropZeros, hzero]
      rfl
    refine ⟨.zero, ?_⟩
    rw [NormalizedJsonNumber.value_zero, hnatural]
    simp
  · rw [if_neg hzero] at h
    obtain ⟨z, hz, h⟩ := Option.bind_eq_some_iff.mp h
    obtain rfl := hexplicit hz
    dsimp only at h
    split_ifs at h
    obtain rfl := Option.some_inj.mp h
    obtain ⟨hdigits, hne, hhead, hlast, hnatural⟩ := reduced_digits hall rfl hzero
    refine ⟨.digits hdigits hne hhead hlast, ?_⟩
    have hten : (10 : ℚ) ≠ 0 := by norm_num
    have hnegative : (if decide ((sign ++ int ++ fractionText ++ exponentText).head? = some (unit '-')) = true then (-1 : ℚ) else 1) =
        if sign = [] then 1 else -1 := by
      by_cases hsign : sign = []
      · rw [if_pos hsign, if_neg (by simpa using fun h => hsigned.mp h hsign)]
      · rw [if_neg hsign, if_pos (by simpa using hsigned.mpr hsign)]
    rw [NormalizedJsonNumber.value]
    dsimp only
    rw [hnegative, hnatural, zpow_add₀ hten, zpow_natCast]
    push_cast
    ring

/-- Normal forms are equal for lexemes of the same number only, and computing them does not overflow. -/
theorem normalizeJsonNumber_canonical {a b : QString} {q r : ℚ} {m n : NormalizedJsonNumber} (ha : Denotes a q) (hb : Denotes b r)
    (hm : normalizeJsonNumber a = some m) (hn : normalizeJsonNumber b = some n) :
    (m = n ↔ q = r) ∧ ∀ lexeme, ∀ z ∈ exponentArithmetic lexeme, minimumInt64 ≤ z ∧ z ≤ maximumInt64 := by
  obtain ⟨hnormal, rfl⟩ := normalizeJsonNumber_value ha hm
  obtain ⟨hnormal', rfl⟩ := normalizeJsonNumber_value hb hn
  exact ⟨⟨congrArg NormalizedJsonNumber.value, hnormal.value_injective hnormal'⟩, exponentArithmetic_range⟩

theorem denotes_sample : Denotes (qstr "1.50E+2") 150 ∧ Denotes (qstr "150") 150 := by
  have hdigits : naturalValue (qstr "150") = 150 ∧ naturalValue (qstr "2") = 2 := by decide
  refine ⟨⟨[], qstr "1", qstr ".50", qstr "50", qstr "E+2", 2, by decide, .inl rfl, ?_, ?_, ?_, ?_⟩,
    ⟨[], qstr "150", [], [], [], 0, by decide, .inl rfl, ?_, .absent, .absent, ?_⟩⟩
  · exact .inr ⟨unit '1', [], by decide, by decide, rfl⟩
  · exact .digits ⟨by decide, by decide⟩
  · have hexponent := @DenotesExponent.digits (unit 'E') (qstr "+") (qstr "2") (.inr rfl) (.inr (.inl (by decide))) ⟨by decide, by decide⟩
    rw [if_neg (by decide), hdigits.2] at hexponent
    exact hexponent
  · rw [show qstr "1" ++ qstr "50" = qstr "150" by decide, hdigits.1, show (qstr "50").length = 2 by decide]
    norm_num
  · exact .inr ⟨unit '1', qstr "50", by decide, by decide, by decide⟩
  · rw [List.append_nil, hdigits.1]
    norm_num

theorem normalizeJsonNumber_canonical_sample :
    normalizeJsonNumber (qstr "1.50E+2") = normalizeJsonNumber (qstr "150") := by
  obtain ⟨m, hm⟩ := Option.ne_none_iff_exists'.mp (by decide +kernel : normalizeJsonNumber (qstr "1.50E+2") ≠ none)
  obtain ⟨n, hn⟩ := Option.ne_none_iff_exists'.mp (by decide +kernel : normalizeJsonNumber (qstr "150") ≠ none)
  rw [hm, hn, (normalizeJsonNumber_canonical denotes_sample.1 denotes_sample.2 hm hn).1.mpr rfl]

end NormalForm

end HyprShelld.Components
