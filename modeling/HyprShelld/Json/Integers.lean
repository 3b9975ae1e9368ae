import HyprShelld.Json.NumberText
import HyprShelld.Text.Decimal

/-! Integers in number text: their digits, and that printing writes nothing else. -/
namespace HyprShelld

theorem decimal_digits (n : Nat) : (decimal n).all isDigit = true := by
  unfold decimal
  split_ifs
  · decide
  · rw [List.all_eq_true]
    intro u hu
    obtain ⟨d, hd, rfl⟩ := List.mem_map.mp hu
    have hlt : d < 10 := Nat.digits_lt_base (by decide) (List.mem_reverse.mp hd)
    have : ∀ d < 10, isDigit (digitUnit d) = true := by decide
    exact this d hlt

theorem decimal_length {n k : Nat} (hk : 0 < k) (h : n < 10 ^ k) : (decimal n).length ≤ k := by
  unfold decimal
  split_ifs with h0
  · exact hk
  · rw [List.length_map, List.length_reverse, Nat.digits_length_le_iff (by decide)]
    exact h

/-- Integers a double holds exactly are printed without a fraction and without an exponent. -/
def NumberText.PlainIntegers (t : NumberText) : Prop := ∀ n : Nat, n < 2 ^ 53 → t.print n = decimal n

end HyprShelld
