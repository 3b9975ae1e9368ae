import HyprShelld.Canonical.Serializer
import HyprShelld.Json.Binary64

/-! The integer check of the serializer decides exactly which integers are binary64. -/
namespace HyprShelld.CanonicalJson

theorem exactlyRepresentable_iff {z : ℤ} (hz : z.natAbs < 2 ^ 64) :
    exactlyRepresentableAsBinary64 (unsignedMagnitude z) = true ↔ IsBinary64 z := by
  unfold exactlyRepresentableAsBinary64 unsignedMagnitude
  by_cases h0 : z.natAbs = 0
  · simp [h0, binary64_small (z := z) (by omega)]
  have hw : z.natAbs.log2 < 64 := (Nat.log2_lt h0).mpr hz
  rw [if_neg h0]
  by_cases hs : z.natAbs.log2 + 1 ≤ 53
  · simp only [hs, if_true, true_iff]
    exact binary64_small (Nat.lt_log2_self.trans_le (Nat.pow_le_pow_right (by norm_num) hs))
  · simp only [hs, if_false, decide_eq_true_eq]
    rw [← Nat.dvd_iff_mod_eq_zero]
    constructor
    · exact binary64_shifted (by unfold discardedBits; omega)
    · intro h
      rcases shifted_of_binary64 h with h | h
      · have := (Nat.log2_lt h0).mpr h
        omega
      · exact h.2

/-- What QJsonValue holds: a double, or an integer that fits qint64. -/
def Held : Double → Prop
  | .finite q => IsBinary64 q ∨ isInteger64 q = true
  | .infinity _ | .nan => True

/-- The numbers both sides of the codec admit. -/
def NumberAllowed (x : Double) : Prop := ∃ q, x = .finite q ∧ IsBinary64 q

theorem NumberAllowed.held {x : Double} (h : NumberAllowed x) : Held x := by
  obtain ⟨q, rfl, hq⟩ := h
  exact .inl hq

theorem jsonNumber_ok_iff {x : Double} (hx : Held x) (path : QString) {q : ℚ} :
    jsonNumber x path = .ok q ↔ x = .finite q ∧ IsBinary64 q := by
  cases x with
  | infinity b => simp [jsonNumber]
  | nan => simp [jsonNumber]
  | finite r =>
    simp only [jsonNumber, Double.finite.injEq]
    by_cases hi : isInteger64 r = true
    · have hr := hi
      simp only [isInteger64, Bool.and_eq_true, decide_eq_true_eq] at hr
      have hcast : ((r.num : ℤ) : ℚ) = r := Rat.coe_int_num_of_den_eq_one hr.1.1
      have hiff := exactlyRepresentable_iff (z := r.num) (by omega)
      rw [hcast] at hiff
      by_cases hb : IsBinary64 r
      · rw [if_neg (by simp [hiff.mpr hb])]
        constructor
        · rintro ⟨⟩
          exact ⟨rfl, hb⟩
        · rintro ⟨rfl, _⟩
          rfl
      · have hf := Bool.eq_false_iff.mpr fun h => hb (hiff.mp h)
        rw [if_pos ⟨hi, hf⟩]
        constructor
        · rintro ⟨⟩
        · rintro ⟨rfl, h⟩
          exact absurd h hb
    · rw [if_neg (by simp [hi])]
      have hb : IsBinary64 r := hx.resolve_right hi
      constructor
      · rintro ⟨⟩
        exact ⟨rfl, hb⟩
      · rintro ⟨rfl, _⟩
        rfl

end HyprShelld.CanonicalJson
