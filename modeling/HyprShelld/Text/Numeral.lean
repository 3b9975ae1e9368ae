import HyprShelld.Json.SignificantDigits
import HyprShelld.Text.Utf8
import Mathlib.Data.Nat.Digits.Lemmas

/-! Decimal numerals as digits, and the general format of a number with seventeen significant digits. -/
namespace HyprShelld

section Digits

def digitsValue (ds : List Nat) : Nat := ds.foldl (fun n d => 10 * n + d) 0

/-- Digits of a number, the leading one first. -/
def digitsOf (n : Nat) : List Nat := if n = 0 then [0] else (Nat.digits 10 n).reverse

/-- At least so many digits, with leading zeros. -/
def padded (width n : Nat) : List Nat := List.replicate (width - (digitsOf n).length) 0 ++ digitsOf n

private theorem foldl_digits (ds : List Nat) (n : Nat) :
    ds.foldl (fun n d => 10 * n + d) n = n * 10 ^ ds.length + digitsValue ds := by
  induction ds generalizing n with
  | nil => simp [digitsValue]
  | cons d ds ih =>
    simp only [digitsValue, List.foldl_cons, List.length_cons] at ih ⊢
    rw [ih, ih (10 * 0 + d)]
    ring

theorem digitsValue_append (a b : List Nat) : digitsValue (a ++ b) = digitsValue a * 10 ^ b.length + digitsValue b := by
  rw [digitsValue, List.foldl_append, foldl_digits]
  rfl

theorem digitsValue_cons (d : Nat) (ds : List Nat) : digitsValue (d :: ds) = d * 10 ^ ds.length + digitsValue ds := by
  have := digitsValue_append [d] ds
  simpa [digitsValue] using this

private theorem digitsValue_reverse (ds : List Nat) : digitsValue ds.reverse = Nat.ofDigits 10 ds := by
  induction ds with
  | nil => rfl
  | cons d ds ih =>
    rw [List.reverse_cons, digitsValue_append, ih, Nat.ofDigits_cons]
    simp [digitsValue]
    ring

@[simp] theorem digitsValue_digitsOf (n : Nat) : digitsValue (digitsOf n) = n := by
  rw [digitsOf]
  split_ifs with h
  · rw [h]
    rfl
  · rw [digitsValue_reverse, Nat.ofDigits_digits]

theorem digitsOf_lt {n d : Nat} (h : d ∈ digitsOf n) : d < 10 := by
  rw [digitsOf] at h
  split_ifs at h
  · simp at h
    omega
  · exact Nat.digits_lt_base (by decide) (List.mem_reverse.mp h)

theorem digitsOf_ne_nil (n : Nat) : digitsOf n ≠ [] := by
  rw [digitsOf]
  split_ifs with h
  · simp
  · simpa using Nat.digits_ne_nil_iff_ne_zero.mpr h

theorem digitsOf_length_le {n width : Nat} (hw : 0 < width) (hn : n < 10 ^ width) : (digitsOf n).length ≤ width := by
  rw [digitsOf]
  split_ifs
  · exact hw
  · rw [List.length_reverse]
    exact (Nat.digits_length_le_iff (by decide) n).mpr hn

@[simp] theorem digitsValue_padded (width n : Nat) : digitsValue (padded width n) = n := by
  rw [padded, digitsValue_append, digitsValue_digitsOf]
  have : ∀ k, digitsValue (List.replicate k 0) = 0 := by
    intro k
    induction k with
    | zero => rfl
    | succ k ih => rw [List.replicate_succ, digitsValue_cons, ih, Nat.zero_mul]
  rw [this, Nat.zero_mul, Nat.zero_add]

theorem padded_length {n width : Nat} (hw : 0 < width) (hn : n < 10 ^ width) : (padded width n).length = width := by
  rw [padded, List.length_append, List.length_replicate]
  have := digitsOf_length_le hw hn
  omega

theorem padded_lt {width n d : Nat} (h : d ∈ padded width n) : d < 10 := by
  rcases List.mem_append.mp h with h | h
  · rw [(List.mem_replicate.mp h).2]
    decide
  · exact digitsOf_lt h

theorem padded_ne_nil (width n : Nat) : padded width n ≠ [] := by
  simp [padded, digitsOf_ne_nil]

end Digits

/-- Digits, digits behind a point, and a power of ten. -/
structure DecimalNumeral where
  whole : List Nat
  fraction : List Nat := []
  exponent : Option ℤ := none
  deriving DecidableEq

namespace DecimalNumeral

def value (n : DecimalNumeral) : ℚ :=
  digitsValue (n.whole ++ n.fraction) * 10 ^ (n.exponent.getD 0 - n.fraction.length)

/-- Written without a point and without an exponent. -/
def isInteger (n : DecimalNumeral) : Bool := n.fraction.isEmpty && n.exponent.isNone

/-- There are digits, and digits they are. -/
structure Wellformed (n : DecimalNumeral) : Prop where
  whole_ne_nil : n.whole ≠ []
  whole_lt : ∀ d ∈ n.whole, d < 10
  fraction_lt : ∀ d ∈ n.fraction, d < 10

def ofNat (n : Nat) : DecimalNumeral := { whole := digitsOf n }

@[simp] theorem value_ofNat (n : Nat) : (ofNat n).value = n := by simp [ofNat, value]

theorem ofNat_wellformed (n : Nat) : (ofNat n).Wellformed :=
  ⟨digitsOf_ne_nil n, fun _ => digitsOf_lt, fun _ h => absurd h List.not_mem_nil⟩

/-- A number with a point before its last digits. -/
def split (n places : Nat) (exponent : Option ℤ) : DecimalNumeral where
  whole := digitsOf (n / 10 ^ places)
  fraction := if places = 0 then [] else padded places (n % 10 ^ places)
  exponent := exponent

theorem split_wellformed (n places : Nat) (exponent : Option ℤ) : (split n places exponent).Wellformed := by
  refine ⟨digitsOf_ne_nil _, fun _ => digitsOf_lt, fun d h => ?_⟩
  simp only [split] at h
  split_ifs at h
  · exact absurd h List.not_mem_nil
  · exact padded_lt h

theorem value_split (n places : Nat) (exponent : Option ℤ) :
    (split n places exponent).value = n * 10 ^ (exponent.getD 0 - places) := by
  by_cases h : places = 0
  · subst h
    simp [split, value]
  · have hlength : (padded places (n % 10 ^ places)).length = places :=
      padded_length (Nat.pos_of_ne_zero h) (Nat.mod_lt _ (by positivity))
    simp only [split, value, if_neg h, digitsValue_append, digitsValue_digitsOf, digitsValue_padded, hlength]
    congr 2
    exact Nat.div_add_mod' n _

end DecimalNumeral

section General

/-- How many of the last digits are zeros. -/
def trailingZeros (n : Nat) : Nat := ((Nat.digits 10 n).takeWhile (· = 0)).length

private theorem pow_trailing_dvd {ds : List Nat} (n : Nat) (hn : n = Nat.ofDigits 10 ds) :
    10 ^ (ds.takeWhile (· = 0)).length ∣ n := by
  induction ds generalizing n with
  | nil => simp
  | cons d ds ih =>
    by_cases hd : d = 0
    · subst hd
      rw [Nat.ofDigits_cons] at hn
      simp only [decide_true, List.takeWhile_cons_of_pos, List.length_cons, pow_succ]
      rw [hn, Nat.zero_add, Nat.mul_comm]
      exact Nat.mul_dvd_mul_left 10 (ih _ rfl)
    · simp [hd]

theorem pow_trailingZeros_dvd (n : Nat) : 10 ^ trailingZeros n ∣ n :=
  pow_trailing_dvd n (Nat.ofDigits_digits 10 n).symm

/-- `%.17g`: seventeen significant digits without trailing zeros, with an exponent where that is
smaller than -4 or not smaller than the number of digits. -/
def generalNumeral (q : ℚ) : DecimalNumeral :=
  let digits := significand q / 10 ^ trailingZeros (significand q)
  let place := leadingExponent q - 16 + trailingZeros (significand q)
  let exponent := place + (digitsOf digits).length - 1
  if -4 ≤ exponent ∧ exponent < 17 then
    if 0 ≤ place then .ofNat (digits * 10 ^ place.toNat) else .split digits (-place).toNat none
  else .split digits ((digitsOf digits).length - 1) (some exponent)

theorem generalNumeral_wellformed (q : ℚ) : (generalNumeral q).Wellformed := by
  simp only [generalNumeral]
  split_ifs
  · exact DecimalNumeral.ofNat_wellformed _
  · exact DecimalNumeral.split_wellformed _ _ _
  · exact DecimalNumeral.split_wellformed _ _ _

theorem generalNumeral_value (q : ℚ) : (generalNumeral q).value = significand q * 10 ^ (leadingExponent q - 16) := by
  have hdigits : ((significand q / 10 ^ trailingZeros (significand q) : Nat) : ℚ) *
      10 ^ (leadingExponent q - 16 + trailingZeros (significand q)) = significand q * 10 ^ (leadingExponent q - 16) := by
    obtain ⟨k, hk⟩ := pow_trailingZeros_dvd (significand q)
    have hdiv : significand q / 10 ^ trailingZeros (significand q) = k :=
      Nat.div_eq_of_eq_mul_right (Nat.pow_pos (show 0 < 10 by decide)) hk
    have hcast : (significand q : ℚ) = 10 ^ trailingZeros (significand q) * k := by exact_mod_cast hk
    rw [hdiv, hcast, zpow_add₀ (by norm_num), zpow_natCast]
    ring
  rw [← hdigits]
  simp only [generalNumeral]
  split_ifs with hfixed hplace
  · rw [DecimalNumeral.value_ofNat]
    push_cast
    rw [← zpow_natCast, Int.toNat_of_nonneg hplace]
  · rw [DecimalNumeral.value_split]
    congr 2
    simp only [Option.getD_none]
    omega
  · rw [DecimalNumeral.value_split]
    congr 2
    have := List.length_pos_iff.mpr (digitsOf_ne_nil (significand q / 10 ^ trailingZeros (significand q)))
    simp only [Option.getD_some]
    omega

theorem generalNumeral_readsAs {q : ℚ} (hq : IsBinary64 q) (h0 : q ≠ 0) : ReadsAs (generalNumeral q).value |q| := by
  rw [generalNumeral_value]
  exact significand_readsAs hq h0

private theorem lt_pow_digitsOf (n : Nat) : n < 10 ^ (digitsOf n).length := by
  rw [digitsOf]
  split_ifs with h
  · rw [h]
    decide
  · rw [List.length_reverse]
    exact Nat.lt_base_pow_length_digits (by decide)

/-- The exponent that decides between the two forms is not below the leading one. -/
theorem leadingExponent_le_exponent {q : ℚ} (h0 : q ≠ 0) :
    leadingExponent q ≤ leadingExponent q - 16 + trailingZeros (significand q) +
      (digitsOf (significand q / 10 ^ trailingZeros (significand q))).length - 1 := by
  obtain ⟨k, hk⟩ := pow_trailingZeros_dvd (significand q)
  have hdiv : significand q / 10 ^ trailingZeros (significand q) = k :=
    Nat.div_eq_of_eq_mul_right (Nat.pow_pos (show 0 < 10 by decide)) hk
  have hlarge := significand_ge h0
  have hlt : significand q < 10 ^ (trailingZeros (significand q) + (digitsOf k).length) := by
    rw [pow_add]
    conv_lhs => rw [hk]
    exact Nat.mul_lt_mul_of_pos_left (lt_pow_digitsOf k) (Nat.pow_pos (show 0 < 10 by decide))
  have hpow : 16 < trailingZeros (significand q) + (digitsOf k).length :=
    (Nat.pow_lt_pow_iff_right (show 1 < 10 by decide)).mp (hlarge.trans_lt hlt)
  rw [hdiv]
  omega

end General

section Text

def digitByte (d : Nat) : UInt8 := UInt8.ofNat (0x30 + d)

def digitBytes (ds : List Nat) : QByteArray := ds.map digitByte

namespace DecimalNumeral

/-- An exponent has a sign, or only one when it is negative, and two digits at least. -/
def exponentText (plus : Bool) (exponent : ℤ) : QByteArray :=
  0x65 :: (if exponent < 0 then [0x2d] else if plus then [0x2b] else []) ++ digitBytes (padded 2 exponent.natAbs)

def text (plus : Bool) (n : DecimalNumeral) : QByteArray :=
  digitBytes n.whole ++ (if n.fraction.isEmpty then [] else 0x2e :: digitBytes n.fraction) ++
    n.exponent.elim [] (exponentText plus)

end DecimalNumeral

/-- QByteArray::number(number, 'g', 17) of a finite number. -/
def generalText (q : ℚ) : QByteArray :=
  if q = 0 then [0x30] else (if q < 0 then [0x2d] else []) ++ (generalNumeral q).text true

end Text
end HyprShelld
