import HyprShelld.Json.Reader
import HyprShelld.Json.Shape

/-! The limits of a dialect: how many values may still be read, and how deep a value
may nest where it stands. -/
namespace HyprShelld.Json

variable {ε : Type} (d : Dialect ε)

/-- The count after reading n more values; a dialect without a limit keeps none. -/
def counted (count n : Nat) : Nat := if d.maximumValues.isSome then count + n else count

/-- There is room for n more values. -/
def Room (count n : Nat) : Prop := ∀ m, d.maximumValues = some m → (count + n : Int) ≤ m

theorem Room.mono {count n m : Nat} (h : Room d count n) (hm : m ≤ n) : Room d count m := by
  intro k hk
  have := h k hk
  omega

@[simp] theorem counted_counted (count n m : Nat) :
    counted d (counted d count n) m = counted d count (n + m) := by
  unfold counted
  split_ifs <;> omega

theorem Room.after {count n m : Nat} (h : Room d count (n + m)) : Room d (counted d count n) m := by
  intro k hk
  have := h k hk
  simp only [counted, hk, Option.isSome_some, if_true]
  push_cast at *
  omega

theorem countValue_room (path : QString) (c : Cursor) (h : Room d c.valueCount 1) :
    countValue d path c = .ok { c with valueCount := counted d c.valueCount 1 } := by
  unfold countValue counted
  cases hm : d.maximumValues with
  | none => rfl
  | some m =>
    have hc := h m hm
    push_cast at hc
    simp only [Option.isSome_some, if_true]
    rw [if_neg (by omega)]

/-- A value with this much nesting may stand at this depth. -/
def Fits (depth n : Nat) : Prop := n = 0 ∨ (depth + n : Int) ≤ d.maximumDepth + 1

theorem Fits.inside {depth n : Nat} (h : (depth + n : Int) ≤ d.maximumDepth) :
    Fits d (depth + 1) n := .inr (by push_cast; omega)

theorem countValue_sound {path : QString} {c c' : Cursor} (h : countValue d path c = .ok c') :
    c' = { c with valueCount := counted d c.valueCount 1 } ∧ Room d c.valueCount 1 := by
  unfold countValue at h
  unfold counted Room
  cases hm : d.maximumValues with
  | none =>
    rw [hm] at h
    cases h
    exact ⟨rfl, by simp⟩
  | some m =>
    simp only [hm] at h
    split_ifs at h with hc
    · cases h
    · cases h
      refine ⟨rfl, ?_⟩
      rintro k ⟨⟩
      push_cast
      omega

theorem Room.before {count n m : Nat} (h : Room d (counted d count n) m) : Room d count (n + m) := by
  intro k hk
  have := h k hk
  simp only [counted, hk, Option.isSome_some, if_true] at this
  push_cast at this ⊢
  omega

@[simp] theorem counted_zero (count : Nat) : counted d count 0 = count := by
  simp [counted]

end HyprShelld.Json
