import HyprShelld.Text.Utf16
import Mathlib.Data.Nat.Digits.Lemmas

/-! Unsigned decimal text, as QString::number writes and toULongLong reads it. -/
namespace HyprShelld

def digitUnit (d : Nat) : UInt16 := UInt16.ofNat (0x30 + d)

def decimal (n : Nat) : QString :=
  if n = 0 then [unit '0'] else (Nat.digits 10 n).reverse.map digitUnit

def digitValue (u : UInt16) : Option Nat :=
  if 0x30 ≤ u.toNat ∧ u.toNat ≤ 0x39 then some (u.toNat - 0x30) else none

/-- The value of a run of digits after a prefix of value n. -/
def decimalValue (n : Nat) : QString → Option Nat
  | [] => some n
  | u :: rest => (digitValue u).bind fun d => decimalValue (10 * n + d) rest

def maximumUnsigned64 : Nat := 2 ^ 64 - 1

/-- toULongLong of text already known to be digits. -/
def toULongLong (s : QString) : Option Nat :=
  match s with
  | [] => none
  | _ => (decimalValue 0 s).filter (· ≤ maximumUnsigned64)

@[simp] theorem digitValue_digitUnit {d : Nat} (h : d < 10) : digitValue (digitUnit d) = some d := by
  have hn : (digitUnit d).toNat = 0x30 + d := by
    rw [digitUnit, UInt16.toNat_ofNat']
    omega
  rw [digitValue, hn, if_pos (by omega)]
  congr 1
  omega

private theorem decimalValue_append (n : Nat) (s t : QString) :
    decimalValue n (s ++ t) = (decimalValue n s).bind fun m => decimalValue m t := by
  induction s generalizing n with
  | nil => rfl
  | cons u s ih =>
    rw [List.cons_append, decimalValue, decimalValue, Option.bind_assoc]
    exact Option.bind_congr fun d _ => ih _

private theorem decimalValue_digits (ds : List Nat) (h : ∀ d ∈ ds, d < 10) :
    decimalValue 0 (ds.reverse.map digitUnit) = some (Nat.ofDigits 10 ds) := by
  induction ds with
  | nil => rfl
  | cons d ds ih =>
    rw [List.reverse_cons, List.map_append, decimalValue_append,
      ih fun e he => h e (List.mem_cons_of_mem _ he), Nat.ofDigits_cons]
    simp only [Option.bind_some, List.map_cons, List.map_nil, decimalValue,
      digitValue_digitUnit (h d List.mem_cons_self)]
    congr 1
    omega

theorem decimalValue_decimal (n : Nat) : decimalValue 0 (decimal n) = some n := by
  rw [decimal]
  split_ifs with h
  · subst h
    decide
  · rw [decimalValue_digits _ fun d hd => Nat.digits_lt_base (by decide) hd, Nat.ofDigits_digits]

theorem le_of_decimalValue {s : QString} {m n : Nat} (h : decimalValue m s = some n) : m ≤ n := by
  induction s generalizing m with
  | nil =>
    cases h
    exact Nat.le_refl _
  | cons u s ih =>
    obtain ⟨d, -, h⟩ := Option.bind_eq_some_iff.mp h
    have := ih h
    omega

theorem length_decimal {n k : Nat} (hk : 0 < k) (h : n < 10 ^ k) : (decimal n).length ≤ k := by
  rw [decimal]
  split_ifs
  · exact hk
  · rw [List.length_map, List.length_reverse]
    exact (Nat.digits_length_le_iff (by decide) n).mpr h

/-- Only zero starts with a zero. -/
theorem head_decimal {n : Nat} (h : 1 < (decimal n).length) : (decimal n).head? ≠ some (unit '0') := by
  rw [decimal] at h ⊢
  split_ifs at h ⊢ with hn
  · simp at h
  · have hne : Nat.digits 10 n ≠ [] := Nat.digits_ne_nil_iff_ne_zero.mpr hn
    have hlast := Nat.getLast_digit_ne_zero 10 hn
    have hlt : (Nat.digits 10 n).getLast hne < 10 := Nat.digits_lt_base (by decide) (List.getLast_mem hne)
    rw [List.head?_map, List.head?_reverse, List.getLast?_eq_some_getLast hne, Option.map_some]
    intro he
    have hd := digitValue_digitUnit hlt
    rw [Option.some.inj he] at hd
    exact hlast (Option.some.inj hd).symm

theorem decimal_ne_nil (n : Nat) : decimal n ≠ [] := by
  rw [decimal]
  split_ifs with h
  · simp
  · simpa [Nat.digits_eq_nil_iff_eq_zero] using h

/-- Numbers in range read back as themselves. -/
theorem toULongLong_decimal {n : Nat} (h : n ≤ maximumUnsigned64) : toULongLong (decimal n) = some n := by
  have hn := decimalValue_decimal n
  rw [toULongLong.eq_def]
  cases hd : decimal n with
  | nil => exact absurd hd (decimal_ne_nil n)
  | cons u s =>
    rw [hd] at hn
    simp [hn, h]

theorem digitUnit_digitValue {u : UInt16} {d : Nat} (h : digitValue u = some d) : d < 10 ∧ digitUnit d = u := by
  unfold digitValue at h
  split_ifs at h with hu
  cases h
  refine ⟨by omega, UInt16.toNat_inj.mp ?_⟩
  rw [digitUnit, UInt16.toNat_ofNat']
  omega

private theorem digits_of_decimalValue {s : QString} {m n : Nat} (h : decimalValue m s = some n) :
    ∃ ds : List Nat, (∀ d ∈ ds, d < 10) ∧ s = ds.map digitUnit := by
  induction s generalizing m with
  | nil => exact ⟨[], by simp, rfl⟩
  | cons u s ih =>
    obtain ⟨d, hd, h⟩ := Option.bind_eq_some_iff.mp h
    obtain ⟨ds, hds, rfl⟩ := ih h
    obtain ⟨hlt, hu⟩ := digitUnit_digitValue hd
    exact ⟨d :: ds, by simpa using ⟨hlt, hds⟩, by simp [hu]⟩

/-- Digits without a leading zero are the text of their value. -/
theorem decimal_of_decimalValue {u : UInt16} {s : QString} {n : Nat} (hu : u ≠ unit '0')
    (h : decimalValue 0 (u :: s) = some n) : decimal n = u :: s := by
  obtain ⟨ds, hds, hs⟩ := digits_of_decimalValue h
  cases ds with
  | nil => simp at hs
  | cons d ds =>
    have hd : d ≠ 0 := by
      rintro rfl
      simp only [List.map_cons, List.cons.injEq] at hs
      exact hu hs.1
    have hrev : ∀ e ∈ (d :: ds).reverse, e < 10 := fun e he => hds e (List.mem_reverse.mp he)
    have hv := decimalValue_digits (d :: ds).reverse hrev
    rw [List.reverse_reverse, ← hs, h, Option.some.injEq] at hv
    have hdigits : Nat.digits 10 n = (d :: ds).reverse := by
      rw [hv]
      exact Nat.digits_ofDigits 10 (by decide) _ hrev (by simpa using hd)
    have hn : n ≠ 0 := by
      rintro rfl
      simp at hdigits
    rw [decimal, if_neg hn, hdigits, List.reverse_reverse, hs]

/-- A digit string without a leading zero is the text of its value. -/
theorem decimal_of_canonical {text : QString} {n : Nat} (hlead : ¬ (1 < text.length ∧ text.head? = some (unit '0'))) (hne : text ≠ [])
    (h : decimalValue 0 text = some n) : decimal n = text := by
  cases text with
  | nil => exact absurd rfl hne
  | cons u rest =>
    by_cases hu : u = unit '0'
    · subst hu
      obtain rfl : rest = [] := by
        cases rest with
        | nil => rfl
        | cons _ _ => exact absurd ⟨by simp, rfl⟩ hlead
      obtain rfl : n = 0 := (Option.some_inj.mp ((by decide : decimalValue 0 [unit '0'] = some 0).symm.trans h)).symm
      decide
    · exact decimal_of_decimalValue hu h

theorem toULongLong_map {text : QString} {v : UInt64} (hlead : ¬ (1 < text.length ∧ text.head? = some (unit '0'))) (hne : text ≠ []) :
    (toULongLong text).map UInt64.ofNat = some v ↔ text = decimal v.toNat := by
  constructor
  · intro h
    obtain ⟨n, hn, rfl⟩ := Option.map_eq_some_iff.mp h
    rw [toULongLong.eq_def] at hn
    split at hn
    · cases hn
    · obtain ⟨hvalue, hle⟩ := Option.filter_eq_some_iff.mp hn
      have hlt : n < 2 ^ 64 := Nat.lt_of_le_of_lt (of_decide_eq_true hle) (by decide)
      rw [UInt64.toNat_ofNat_of_lt' hlt, decimal_of_canonical hlead hne hvalue]
  · rintro rfl
    rw [toULongLong_decimal (Nat.le_pred_of_lt v.toNat_lt), Option.map_some, UInt64.ofNat_toNat]

theorem decimal_head (v : UInt64) : ¬ (1 < (decimal v.toNat).length ∧ (decimal v.toNat).head? = some (unit '0')) :=
  fun h => head_decimal h.1 h.2

end HyprShelld
