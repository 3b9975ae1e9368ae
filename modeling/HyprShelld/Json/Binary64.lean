import HyprShelld.Json.Value
import Mathlib.Data.Nat.Prime.Basic
import Mathlib.Algebra.Order.Field.Power
import Mathlib.Data.Rat.Lemmas
import Mathlib.Tactic.Positivity
import Mathlib.Tactic.FieldSimp

/-! Which rationals are binary64 values is decidable from numerator and denominator. -/
namespace HyprShelld

/-- The bits of an integer beyond the 53 of a significand. -/
def discardedBits (n : Nat) : Nat := Nat.log2 n + 1 - 53

theorem binary64_small {z : ℤ} (h : z.natAbs < 2 ^ 53) : IsBinary64 z := by
  refine ⟨z, 0, ?_, by norm_num, by norm_num, by simp⟩
  rw [Int.abs_eq_natAbs]
  exact_mod_cast h

theorem binary64_shifted {z : ℤ} (hj : discardedBits z.natAbs ≤ 971)
    (hd : 2 ^ discardedBits z.natAbs ∣ z.natAbs) : IsBinary64 z := by
  by_cases h0 : z.natAbs < 2 ^ 53
  · exact binary64_small h0
  have hz : z.natAbs < 2 ^ (53 + discardedBits z.natAbs) :=
    Nat.lt_log2_self.trans_le (Nat.pow_le_pow_right (by norm_num) (by unfold discardedBits; omega))
  revert hj hd hz
  generalize discardedBits z.natAbs = j
  intro hj hd hz
  obtain ⟨m, hm⟩ : (2 ^ j : ℤ) ∣ z := by
    have := Int.natCast_dvd_natCast.mpr hd
    rw [Int.dvd_natAbs] at this
    exact_mod_cast this
  refine ⟨m, j, ?_, by omega, by omega, ?_⟩
  · rw [Int.abs_eq_natAbs]
    have hn : z.natAbs = 2 ^ j * m.natAbs := by
      rw [hm, Int.natAbs_mul, Int.natAbs_pow]
      rfl
    rw [hn, pow_add, Nat.mul_comm] at hz
    have := Nat.lt_of_mul_lt_mul_right hz
    exact_mod_cast this
  · rw [hm]
    push_cast
    rw [zpow_natCast, mul_comm]

/-- An integral binary64 value is small or a multiple of what its width discards. -/
theorem shifted_of_binary64 {z : ℤ} (h : IsBinary64 z) :
    z.natAbs < 2 ^ 53 ∨ discardedBits z.natAbs ≤ 971 ∧ 2 ^ discardedBits z.natAbs ∣ z.natAbs := by
  obtain ⟨m, e, hm, _, he', he⟩ := h
  rw [Int.abs_eq_natAbs] at hm
  have hm' : m.natAbs < 2 ^ 53 := by exact_mod_cast hm
  rcases le_or_gt 0 e with h0 | h0
  · obtain ⟨k, rfl⟩ := Int.eq_ofNat_of_zero_le h0
    right
    have hz : z = m * 2 ^ k := by
      have : (z : ℚ) = ((m * 2 ^ k : ℤ) : ℚ) := by
        rw [he]
        push_cast
        rw [zpow_natCast]
      exact_mod_cast this
    have hn : z.natAbs = m.natAbs * 2 ^ k := by
      rw [hz, Int.natAbs_mul, Int.natAbs_pow]
      rfl
    have hj : discardedBits z.natAbs ≤ k := by
      by_cases hz0 : z.natAbs = 0
      · rw [hz0]
        exact Nat.zero_le _
      · have hlt : z.natAbs < 2 ^ (53 + k) := by
          rw [hn, pow_add]
          exact Nat.mul_lt_mul_of_pos_right hm' (Nat.two_pow_pos k)
        have := (Nat.log2_lt hz0).mpr hlt
        unfold discardedBits
        omega
    refine ⟨by omega, (Nat.pow_dvd_pow 2 hj).trans ?_⟩
    rw [hn]
    exact Nat.dvd_mul_left _ _
  · left
    have hle : |(z : ℚ)| ≤ |(m : ℚ)| := by
      rw [he, abs_mul]
      have h2 : |(2 : ℚ) ^ e| ≤ 1 := by
        rw [abs_of_pos (zpow_pos (by norm_num) e)]
        exact zpow_le_one_of_nonpos₀ (by norm_num) h0.le
      exact mul_le_of_le_one_right (abs_nonneg _) h2
    have hle' : |z| ≤ |m| := by exact_mod_cast hle
    rw [Int.abs_eq_natAbs, Int.abs_eq_natAbs] at hle'
    omega

/-- The test behind the decision. -/
def isBinary64 (q : ℚ) : Bool :=
  if q.den = 1 then
    decide (q.num.natAbs < 2 ^ 53) ||
      (decide (discardedBits q.num.natAbs ≤ 971) && q.num.natAbs % 2 ^ discardedBits q.num.natAbs == 0)
  else decide (q.den = 2 ^ Nat.log2 q.den) && decide (Nat.log2 q.den ≤ 1074) && decide (q.num.natAbs < 2 ^ 53)

private theorem binary64_fraction {q : ℚ} {a : Nat} (hd : q.den = 2 ^ a) (ha : a ≤ 1074)
    (hn : q.num.natAbs < 2 ^ 53) : IsBinary64 q := by
  refine ⟨q.num, -a, ?_, by omega, by omega, ?_⟩
  · rw [Int.abs_eq_natAbs]
    exact_mod_cast hn
  · rw [zpow_neg, zpow_natCast, ← div_eq_mul_inv]
    conv_lhs => rw [← Rat.num_div_den q, hd]
    push_cast
    rfl

private theorem fraction_of_binary64 {q : ℚ} (h : IsBinary64 q) (hq : q.den ≠ 1) :
    ∃ a ≤ 1074, q.den = 2 ^ a ∧ q.num.natAbs < 2 ^ 53 := by
  obtain ⟨m, e, hm, he, he', rfl⟩ := h
  rcases le_or_gt 0 e with h0 | h0
  · obtain ⟨k, rfl⟩ := Int.eq_ofNat_of_zero_le h0
    exfalso
    apply hq
    have : (m : ℚ) * 2 ^ (k : ℤ) = ((m * 2 ^ k : ℤ) : ℚ) := by
      push_cast
      rw [zpow_natCast]
    rw [this]
    exact Rat.den_intCast _
  · obtain ⟨k, hk⟩ := Int.eq_ofNat_of_zero_le (show 0 ≤ -e by omega)
    have hek : e = -(k : ℤ) := by omega
    subst hek
    have hval : (m : ℚ) * 2 ^ (-(k : ℤ)) = Rat.divInt m (2 ^ k : ℤ) := by
      rw [zpow_neg, zpow_natCast, ← div_eq_mul_inv, Rat.divInt_eq_div]
      push_cast
      rfl
    rw [hval]
    have hden := Rat.den_dvd m (2 ^ k : ℤ)
    have hden' : (Rat.divInt m (2 ^ k : ℤ)).den ∣ 2 ^ k := by exact_mod_cast hden
    obtain ⟨a, ha, hd⟩ := (Nat.dvd_prime_pow Nat.prime_two).mp hden'
    refine ⟨a, by omega, hd, ?_⟩
    rw [Int.abs_eq_natAbs] at hm
    have hm' : m.natAbs < 2 ^ 53 := by exact_mod_cast hm
    have hnum := Rat.num_dvd m (b := (2 ^ k : ℤ)) (by positivity)
    by_cases hm0 : m = 0
    · subst hm0
      simp
    · exact (Nat.le_of_dvd (Int.natAbs_pos.mpr hm0) (Int.natAbs_dvd_natAbs.mpr hnum)).trans_lt hm'

theorem isBinary64_iff (q : ℚ) : isBinary64 q = true ↔ IsBinary64 q := by
  unfold isBinary64
  split_ifs with hden
  · have hq : ((q.num : ℤ) : ℚ) = q := Rat.coe_int_num_of_den_eq_one hden
    rw [← hq, Rat.num_intCast]
    simp only [Bool.or_eq_true, Bool.and_eq_true, decide_eq_true_eq, beq_iff_eq, ← Nat.dvd_iff_mod_eq_zero]
    exact ⟨fun h => h.elim binary64_small fun h => binary64_shifted h.1 h.2, shifted_of_binary64⟩
  · simp only [Bool.and_eq_true, decide_eq_true_eq]
    constructor
    · rintro ⟨⟨hd, ha⟩, hn⟩
      exact binary64_fraction hd ha hn
    · intro h
      obtain ⟨a, ha, hd, hn⟩ := fraction_of_binary64 h hden
      rw [hd, Nat.log2_two_pow]
      exact ⟨⟨rfl, ha⟩, hn⟩

instance : DecidablePred IsBinary64 := fun q => decidable_of_iff _ (isBinary64_iff q)

end HyprShelld
