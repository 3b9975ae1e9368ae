import HyprShelld.Json.Binary64
import Mathlib.Data.Int.Log
import Mathlib.Data.Rat.Floor
import Mathlib.Tactic.Linarith
import Mathlib.Tactic.Ring

/-! Seventeen significant digits single a binary64 value out: the decimal is nearer to it than
to any other one. -/
namespace HyprShelld

/-- Every correctly rounding reader takes the decimal for this value. -/
def ReadsAs (v q : ℚ) : Prop := IsBinary64 q ∧ ∀ r, IsBinary64 r → r ≠ q → |v - q| < |v - r|

theorem ReadsAs.unique {v q r : ℚ} (hq : ReadsAs v q) (hr : ReadsAs v r) : q = r := by
  by_contra hne
  exact absurd (hq.2 r hr.1 (Ne.symm hne)) (not_lt.mpr (hr.2 q hq.1 hne).le)

theorem readsAs_self {q : ℚ} (hq : IsBinary64 q) : ReadsAs q q := by
  refine ⟨hq, fun r _ hne => ?_⟩
  rw [sub_self, abs_zero]
  exact abs_pos.mpr (sub_ne_zero.mpr (Ne.symm hne))

theorem IsBinary64.neg {q : ℚ} (hq : IsBinary64 q) : IsBinary64 (-q) := by
  obtain ⟨m, e, hm, he, he', rfl⟩ := hq
  exact ⟨-m, e, by rwa [abs_neg], he, he', by push_cast; ring⟩

section Gap

private theorem one_le_abs_mul {z : ℤ} {e : ℤ} (hz : (z : ℚ) * 2 ^ e ≠ 0) : (2 : ℚ) ^ e ≤ |(z : ℚ) * 2 ^ e| := by
  have he : (0 : ℚ) < 2 ^ e := zpow_pos (by norm_num) e
  have h1 : (1 : ℚ) ≤ |(z : ℚ)| := by
    have : z ≠ 0 := by
      rintro rfl
      simp at hz
    exact_mod_cast Int.one_le_abs this
  rw [abs_mul, abs_of_pos he]
  exact le_mul_of_one_le_left he.le h1

/-- A difference is a multiple of the smaller unit. -/
private theorem unit_le_sub {m n e f : ℤ} (hef : e ≤ f) (hne : (m : ℚ) * 2 ^ e - n * 2 ^ f ≠ 0) :
    (2 : ℚ) ^ e ≤ |(m : ℚ) * 2 ^ e - n * 2 ^ f| := by
  obtain ⟨k, hk⟩ := Int.eq_ofNat_of_zero_le (sub_nonneg.mpr hef)
  have hf : (2 : ℚ) ^ f = 2 ^ e * 2 ^ k := by
    rw [← zpow_natCast, ← zpow_add₀ (by norm_num)]
    congr 1
    omega
  have heq : (m : ℚ) * 2 ^ e - n * 2 ^ f = ((m - n * 2 ^ k : ℤ) : ℚ) * 2 ^ e := by
    rw [hf]
    push_cast
    ring
  rw [heq] at hne ⊢
  exact one_le_abs_mul hne

private theorem abs_lt_unit {m e : ℤ} (hm : |m| < 2 ^ 53) : |(m : ℚ) * 2 ^ e| ≤ 2 ^ 53 * 2 ^ e - 2 ^ e := by
  have he : (0 : ℚ) < 2 ^ e := zpow_pos (by norm_num) e
  have hm' : |(m : ℚ)| ≤ 2 ^ 53 - 1 := by
    have : |m| ≤ 2 ^ 53 - 1 := by omega
    exact_mod_cast this
  rw [abs_mul, abs_of_pos he, ← sub_one_mul]
  exact mul_le_mul_of_nonneg_right hm' he.le

/-- Binary64 values keep their distance. -/
theorem binary64_gap {q r : ℚ} (hq : IsBinary64 q) (hr : IsBinary64 r) (hne : q ≠ r) : |q| ≤ 2 ^ 53 * |q - r| := by
  obtain ⟨m, e, hm, -, -, rfl⟩ := hq
  obtain ⟨n, f, hn, -, -, rfl⟩ := hr
  have hsub := sub_ne_zero.mpr hne
  have hq' := abs_lt_unit (e := e) hm
  have hr' := abs_lt_unit (e := f) hn
  have he : (0 : ℚ) < 2 ^ e := zpow_pos (by norm_num) e
  have hf : (0 : ℚ) < 2 ^ f := zpow_pos (by norm_num) f
  rcases le_total e f with hef | hef
  · have := unit_le_sub hef hsub
    linarith
  · -- the other value has the smaller unit, and is below any value that is too large for it
    have hunit : (2 : ℚ) ^ f ≤ |(m : ℚ) * 2 ^ e - n * 2 ^ f| := by
      rw [abs_sub_comm]
      exact unit_le_sub hef (by rwa [← neg_sub, neg_ne_zero])
    have htriangle : |(m : ℚ) * 2 ^ e| ≤ |(m : ℚ) * 2 ^ e - n * 2 ^ f| + |(n : ℚ) * 2 ^ f| := by
      have := abs_add_le ((m : ℚ) * 2 ^ e - n * 2 ^ f) (n * 2 ^ f)
      rwa [sub_add_cancel] at this
    linarith

theorem readsAs_of_close {v q : ℚ} (hq : IsBinary64 q) (hv : 2 ^ 54 * |v - q| < |q|) : ReadsAs v q := by
  refine ⟨hq, fun r hr hne => ?_⟩
  have hgap := binary64_gap hq hr (Ne.symm hne)
  have htriangle : |q - r| ≤ |v - q| + |v - r| := by
    have := abs_add_le (q - v) (v - r)
    rwa [sub_add_sub_cancel, abs_sub_comm q v] at this
  linarith

end Gap

/-- The decimal exponent of the leading digit. -/
def leadingExponent (q : ℚ) : ℤ := Int.log 10 |q|

/-- The seventeen leading digits as a number, rounded to nearest. -/
def significand (q : ℚ) : Nat := ⌊|q| * 10 ^ (16 - leadingExponent q) + 1 / 2⌋₊

theorem significand_close {q : ℚ} : |(significand q : ℚ) - |q| * 10 ^ (16 - leadingExponent q)| ≤ 1 / 2 := by
  have hnonneg : 0 ≤ |q| * 10 ^ (16 - leadingExponent q) + 1 / 2 := by positivity
  have hfloor := Nat.floor_le hnonneg
  have hlt := Nat.lt_floor_add_one (|q| * 10 ^ (16 - leadingExponent q) + 1 / 2)
  rw [abs_le]
  constructor <;> simp only [significand] <;> linarith

theorem pow_leadingExponent_le {q : ℚ} (h0 : q ≠ 0) : (10 : ℚ) ^ leadingExponent q ≤ |q| := by
  have := Int.zpow_log_le_self (b := 10) (by norm_num) (abs_pos.mpr h0)
  exact_mod_cast this

/-- There are seventeen digits. -/
theorem significand_ge {q : ℚ} (h0 : q ≠ 0) : 10 ^ 16 ≤ significand q := by
  have hscaled : (10 : ℚ) ^ 16 ≤ |q| * 10 ^ (16 - leadingExponent q) := by
    have hscale : (0 : ℚ) ≤ 10 ^ (16 - leadingExponent q) := (zpow_pos (by norm_num) _).le
    have := mul_le_mul_of_nonneg_right (pow_leadingExponent_le h0) hscale
    rw [← zpow_add₀ (by norm_num)] at this
    norm_num at this ⊢
    exact this
  have hclose := abs_le.mp (significand_close (q := q))
  have hlt : ((10 ^ 16 : Nat) : ℚ) < significand q + 1 := by
    push_cast
    linarith [hclose.1]
  have : 10 ^ 16 < significand q + 1 := by exact_mod_cast hlt
  omega

/-- The significand, put back in its place, is read as the value. -/
theorem significand_readsAs {q : ℚ} (hq : IsBinary64 q) (h0 : q ≠ 0) :
    ReadsAs (significand q * 10 ^ (leadingExponent q - 16)) |q| := by
  have habs : IsBinary64 |q| := by
    rcases abs_choice q with h | h <;> rw [h]
    · exact hq
    · exact hq.neg
  refine readsAs_of_close habs ?_
  have hpos : 0 < |q| := abs_pos.mpr h0
  have hscale : (0 : ℚ) < 10 ^ (leadingExponent q - 16) := zpow_pos (by norm_num) _
  have hcancel : (10 : ℚ) ^ (16 - leadingExponent q) * 10 ^ (leadingExponent q - 16) = 1 := by
    rw [← zpow_add₀ (by norm_num)]
    norm_num
  have hdiff : (significand q : ℚ) * 10 ^ (leadingExponent q - 16) - |q| =
      (significand q - |q| * 10 ^ (16 - leadingExponent q)) * 10 ^ (leadingExponent q - 16) := by
    rw [sub_mul, mul_assoc |q|, hcancel, mul_one]
  have herror : abs ((significand q : ℚ) * 10 ^ (leadingExponent q - 16) - |q|) ≤ 1 / 2 * 10 ^ (leadingExponent q - 16) := by
    rw [hdiff, abs_mul, abs_of_pos hscale]
    exact mul_le_mul_of_nonneg_right significand_close hscale.le
  have hlog := pow_leadingExponent_le h0
  have hshift : (10 : ℚ) ^ (leadingExponent q - 16) = 10 ^ leadingExponent q / 10 ^ 16 := by
    rw [zpow_sub₀ (by norm_num)]
    norm_num
  rw [hshift] at herror
  rw [abs_abs]
  have : (2 : ℚ) ^ 54 * (1 / 2 * (10 ^ leadingExponent q / 10 ^ 16)) < |q| := by
    have : (2 : ℚ) ^ 54 * (1 / 2 * (10 ^ leadingExponent q / 10 ^ 16)) ≤ (2 ^ 54 / 2 / 10 ^ 16) * |q| := by
      have : (2 : ℚ) ^ 54 * (1 / 2 * (10 ^ leadingExponent q / 10 ^ 16)) = (2 ^ 54 / 2 / 10 ^ 16) * 10 ^ leadingExponent q := by
        ring
      rw [this]
      exact mul_le_mul_of_nonneg_left hlog (by norm_num)
    refine this.trans_lt ?_
    have hsmall : (2 : ℚ) ^ 54 / 2 / 10 ^ 16 < 1 := by norm_num
    exact mul_lt_of_lt_one_left hpos hsmall
  rw [hshift]
  linarith

end HyprShelld
