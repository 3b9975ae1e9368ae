import HyprShelld.Desired.RoundTrip

/-! Revisions in the text of durable records. -/
namespace HyprShelld.Compositor
open Hyprland

/-- Digits after a prefix of known value; an addition that would overflow is refused first. -/
def readUint64 (result : Nat) : QString → Option Nat
  | [] => some result
  | u :: rest => (digitValue u).bind fun digit =>
    if (maximumUnsigned64 - digit) / 10 < result then none else readUint64 (result * 10 + digit) rest

def parseCanonicalUint64 (text : QString) : Option UInt64 :=
  if text.isEmpty ∨ 20 < text.length then none
  else if 1 < text.length ∧ text.head? = some (unit '0') then none
  else (readUint64 0 text).bind fun result =>
    if decimal result ≠ text then none else some (UInt64.ofNat result)

theorem readUint64_eq {s : QString} {m n : Nat} (h : decimalValue m s = some n) (hn : n ≤ maximumUnsigned64) :
    readUint64 m s = some n := by
  induction s generalizing m with
  | nil => exact h
  | cons u s ih =>
    obtain ⟨d, hd, h⟩ := Option.bind_eq_some_iff.mp h
    have hle := le_of_decimalValue h
    rw [readUint64, hd, Option.bind_some, if_neg (by omega), Nat.mul_comm]
    exact ih h

/-- A revision is read back from its decimal text. -/
theorem parseCanonicalUint64_decimal (n : UInt64) : parseCanonicalUint64 (decimal n.toNat) = some n := by
  have hn : n.toNat ≤ maximumUnsigned64 := Nat.le_pred_of_lt n.toNat_lt
  have hlength : (decimal n.toNat).length ≤ 20 := by
    apply length_decimal (by decide)
    exact Nat.lt_of_lt_of_le n.toNat_lt (by decide)
  have hhead : ¬ (1 < (decimal n.toNat).length ∧ (decimal n.toNat).head? = some (unit '0')) :=
    fun h => head_decimal h.1 h.2
  rw [parseCanonicalUint64, if_neg (by simp [decimal_ne_nil]; omega), if_neg hhead,
    readUint64_eq (decimalValue_decimal _) hn, Option.bind_some, if_neg (by simp), UInt64.ofNat_toNat]

end HyprShelld.Compositor
