import Mathlib.Algebra.Order.Ring.Nat
import Mathlib.Tactic.Common

/-! Unsigned numbers in a fixed number of bytes, exact reads, and arithmetic that must not wrap. -/
namespace HyprShelld

section Numbers

/-- The lowest bytes of a number, the lowest first. -/
def littleEndian : Nat → Nat → List UInt8
  | 0, _ => []
  | width + 1, n => UInt8.ofNat n :: littleEndian width (n / 256)

def fromLittleEndian : List UInt8 → Nat
  | [] => 0
  | b :: rest => b.toNat + 256 * fromLittleEndian rest

def bigEndian (width n : Nat) : List UInt8 := (littleEndian width n).reverse

def fromBigEndian (bytes : List UInt8) : Nat := fromLittleEndian bytes.reverse

@[simp] theorem length_littleEndian (width n : Nat) : (littleEndian width n).length = width := by
  induction width generalizing n with
  | zero => rfl
  | succ width ih => rw [littleEndian, List.length_cons, ih]

@[simp] theorem length_bigEndian (width n : Nat) : (bigEndian width n).length = width := by
  rw [bigEndian, List.length_reverse, length_littleEndian]

theorem fromLittleEndian_lt (bytes : List UInt8) : fromLittleEndian bytes < 256 ^ bytes.length := by
  induction bytes with
  | nil => exact Nat.one_pos
  | cons b rest ih =>
    have hb := b.toNat_lt
    rw [fromLittleEndian, List.length_cons, Nat.pow_succ]
    omega

theorem fromBigEndian_lt (bytes : List UInt8) : fromBigEndian bytes < 256 ^ bytes.length := by
  have h := fromLittleEndian_lt bytes.reverse
  rwa [List.length_reverse] at h

theorem fromLittleEndian_littleEndian {width n : Nat} (h : n < 256 ^ width) :
    fromLittleEndian (littleEndian width n) = n := by
  induction width generalizing n with
  | zero =>
    rw [Nat.pow_zero] at h
    rw [littleEndian, fromLittleEndian]
    omega
  | succ width ih =>
    rw [Nat.pow_succ] at h
    rw [littleEndian, fromLittleEndian, ih (Nat.div_lt_of_lt_mul (by omega)), UInt8.toNat_ofNat']
    omega

theorem littleEndian_fromLittleEndian (bytes : List UInt8) :
    littleEndian bytes.length (fromLittleEndian bytes) = bytes := by
  induction bytes with
  | nil => rfl
  | cons b rest ih =>
    have hb := b.toNat_lt
    have hrest : (b.toNat + 256 * fromLittleEndian rest) / 256 = fromLittleEndian rest := by omega
    have hfirst : UInt8.ofNat (b.toNat + 256 * fromLittleEndian rest) = b := by
      apply UInt8.toNat_inj.mp
      rw [UInt8.toNat_ofNat']
      omega
    rw [List.length_cons, littleEndian, fromLittleEndian, hrest, ih, hfirst]

theorem fromBigEndian_bigEndian {width n : Nat} (h : n < 256 ^ width) : fromBigEndian (bigEndian width n) = n := by
  rw [fromBigEndian, bigEndian, List.reverse_reverse, fromLittleEndian_littleEndian h]

theorem bigEndian_fromBigEndian (bytes : List UInt8) : bigEndian bytes.length (fromBigEndian bytes) = bytes := by
  have h := littleEndian_fromLittleEndian bytes.reverse
  rw [List.length_reverse] at h
  rw [bigEndian, fromBigEndian, h, List.reverse_reverse]

end Numbers

section Reads
variable {α : Type}

/-- So many elements and what follows them, when there are as many. -/
def readExact (size : Nat) (source : List α) : Option (List α × List α) :=
  if size ≤ source.length then some (source.take size, source.drop size) else none

theorem readExact_iff {size : Nat} {source taken rest : List α} :
    readExact size source = some (taken, rest) ↔ taken.length = size ∧ source = taken ++ rest := by
  unfold readExact
  constructor
  · intro h
    split at h
    · cases h
      exact ⟨List.length_take_of_le ‹_›, (List.take_append_drop size source).symm⟩
    · cases h
  · rintro ⟨rfl, rfl⟩
    simp

/-- A number in the next bytes, the highest first. -/
def readBigEndian (width : Nat) (source : List UInt8) : Option (Nat × List UInt8) :=
  (readExact width source).map fun (bytes, rest) => (fromBigEndian bytes, rest)

theorem readBigEndian_iff {width n : Nat} {source rest : List UInt8} :
    readBigEndian width source = some (n, rest) ↔ n < 256 ^ width ∧ source = bigEndian width n ++ rest := by
  rw [readBigEndian, Option.map_eq_some_iff]
  constructor
  · rintro ⟨⟨bytes, rest'⟩, hread, he⟩
    obtain ⟨rfl, rfl⟩ := readExact_iff.mp hread
    cases he
    exact ⟨fromBigEndian_lt bytes, by rw [bigEndian_fromBigEndian]⟩
  · rintro ⟨hn, rfl⟩
    refine ⟨(bigEndian width n, rest), readExact_iff.mpr ⟨length_bigEndian width n, rfl⟩, ?_⟩
    exact congrArg (·, rest) (fromBigEndian_bigEndian hn)

end Reads

section Arithmetic

/-- A sum that stays within so many bits. -/
def addWithin (bits a b : Nat) : Option Nat := if a + b < 2 ^ bits then some (a + b) else none

/-- A difference of unsigned numbers. -/
def subWithin (a b : Nat) : Option Nat := if b ≤ a then some (a - b) else none

theorem addWithin_iff {bits a b c : Nat} : addWithin bits a b = some c ↔ a + b < 2 ^ bits ∧ c = a + b := by
  simp [addWithin, eq_comm]

theorem subWithin_iff {a b c : Nat} : subWithin a b = some c ↔ b ≤ a ∧ c = a - b := by
  simp [subWithin, eq_comm]

theorem addWithin_none {bits a b : Nat} : addWithin bits a b = none ↔ 2 ^ bits ≤ a + b := by
  simp [addWithin]

theorem subWithin_none {a b : Nat} : subWithin a b = none ↔ a < b := by
  simp [subWithin]

end Arithmetic
end HyprShelld
