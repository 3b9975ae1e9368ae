import HyprShelld.Json.Binary64
import HyprShelld.Json.Integers

/-! A number text that satisfies every law: the exact decimal expansion, with integers
written plainly. It stands in for the library wherever something concrete is run. -/
namespace HyprShelld.ExactDecimal

def scale (q : ℚ) : Nat := Nat.log2 q.den

def print (q : ℚ) : QString :=
  (if q.num < 0 then [unit '-'] else []) ++ decimal (q.num.natAbs * 5 ^ scale q) ++
    if scale q = 0 then [] else qstr "e-" ++ decimal (scale q)

def readScale : QString → Option Nat
  | [] => some 0
  | e :: m :: ds => if e = unit 'e' ∧ m = unit '-' then decimalValue 0 ds else none
  | _ => none

def readMagnitude (s : QString) : Option ℚ := do
  let n ← decimalValue 0 (s.takeWhile isDigit)
  let a ← readScale (s.dropWhile isDigit)
  return (n : ℚ) / 10 ^ a

def readSigned : QString → Option ℚ
  | [] => none
  | u :: rest => if u = unit '-' then (readMagnitude rest).map (- ·) else readMagnitude (u :: rest)

def read (s : QString) : Double :=
  match readSigned s with
  | some q => if IsBinary64 q then .finite q else .nan
  | none => .nan

private theorem isInteger_decimal (n : Nat) : IsInteger (decimal n) := by
  by_cases h : n = 0
  · left
    rw [decimal, if_pos h]
  · right
    have hall := decimal_digits n
    have hdec : decimal n = (Nat.digits 10 n).reverse.map digitUnit := if_neg h
    have hne : Nat.digits 10 n ≠ [] := Nat.digits_ne_nil_iff_ne_zero.mpr h
    have hlast := Nat.getLast_digit_ne_zero 10 h
    have hlt : (Nat.digits 10 n).getLast hne < 10 := Nat.digits_lt_base (by decide) (List.getLast_mem hne)
    have hsplit := List.dropLast_append_getLast hne
    rw [← hsplit, List.reverse_append, List.reverse_singleton, List.singleton_append, List.map_cons] at hdec
    rw [hdec] at hall ⊢
    rw [List.all_cons, Bool.and_eq_true] at hall
    refine ⟨_, _, rfl, ?_, hall.2⟩
    have : ∀ d < 10, d ≠ 0 → isNonzeroDigit (digitUnit d) = true := by decide
    exact this _ hlt hlast

private theorem readMagnitude_text (n a : Nat) :
    readMagnitude (decimal n ++ if a = 0 then [] else qstr "e-" ++ decimal a) = some ((n : ℚ) / 10 ^ a) := by
  have hr : startsWithDigit (if a = 0 then [] else qstr "e-" ++ decimal a) = false := by
    split_ifs <;> rfl
  obtain ⟨h1, h2⟩ := takeWhile_digits (decimal_digits n) hr
  have hs : readScale (if a = 0 then [] else qstr "e-" ++ decimal a) = some a := by
    split_ifs with h
    · rw [h]
      rfl
    · have he : qstr "e-" ++ decimal a = unit 'e' :: unit '-' :: decimal a := rfl
      rw [he, readScale, if_pos ⟨rfl, rfl⟩, decimalValue_decimal]
  rw [readMagnitude, h1, h2, decimalValue_decimal, hs]
  rfl

private theorem power_den {q : ℚ} (h : IsBinary64 q) : q.den = 2 ^ scale q ∧ scale q ≤ 1074 := by
  have hb := (isBinary64_iff q).mpr h
  unfold isBinary64 at hb
  unfold scale
  split_ifs at hb with hden
  · rw [hden]
    decide
  · simp only [Bool.and_eq_true, decide_eq_true_eq] at hb
    exact hb.1

private theorem num_lt {q : ℚ} (h : IsBinary64 q) : q.num.natAbs < 2 ^ 1024 := by
  have hb := (isBinary64_iff q).mpr h
  have hmono : 2 ^ 53 < 2 ^ 1024 := Nat.pow_lt_pow_right (by decide) (by decide)
  unfold isBinary64 at hb
  split_ifs at hb with hden
  · simp only [Bool.or_eq_true, Bool.and_eq_true, decide_eq_true_eq] at hb
    rcases hb with hb | ⟨hj, _⟩
    · exact hb.trans hmono
    · exact Nat.lt_log2_self.trans_le (Nat.pow_le_pow_right (by decide) (by unfold discardedBits at hj; omega))
  · simp only [Bool.and_eq_true, decide_eq_true_eq] at hb
    exact hb.2.trans hmono

private theorem magnitude_value {q : ℚ} (h : IsBinary64 q) :
    ((q.num.natAbs * 5 ^ scale q : Nat) : ℚ) / 10 ^ scale q = |q| := by
  have hden := (power_den h).1
  have habs : |q| = (q.num.natAbs : ℚ) / 2 ^ scale q := by
    conv_lhs => rw [← Rat.num_div_den q, hden]
    rw [abs_div, Nat.cast_natAbs, Int.cast_abs]
    push_cast
    rw [abs_of_pos (show (0 : ℚ) < 2 ^ scale q by positivity)]
  rw [habs, show (10 : ℚ) = 2 * 5 by norm_num, mul_pow]
  push_cast
  field_simp

private theorem decimal_head (n : Nat) (rest : QString) :
    ∃ u t, decimal n ++ rest = u :: t ∧ u ≠ unit '-' := by
  have hd := decimal_digits n
  cases hn : decimal n with
  | nil => exact absurd hn (decimal_ne_nil n)
  | cons u t =>
    rw [hn, List.all_cons, Bool.and_eq_true] at hd
    refine ⟨u, t ++ rest, rfl, ?_⟩
    rintro rfl
    exact absurd hd.1 (by decide)

private theorem read_print (q : ℚ) (h : IsBinary64 q) : read (print q) = .finite q := by
  have hm := readMagnitude_text (q.num.natAbs * 5 ^ scale q) (scale q)
  rw [magnitude_value h] at hm
  have hs : readSigned (print q) = some q := by
    obtain ⟨u, t, hu, hne⟩ := decimal_head (q.num.natAbs * 5 ^ scale q)
      (if scale q = 0 then [] else qstr "e-" ++ decimal (scale q))
    rw [hu] at hm
    rw [print, List.append_assoc, hu]
    split_ifs with hneg
    · rw [List.singleton_append, readSigned, if_pos rfl, hm, abs_of_neg (Rat.num_neg.mp hneg)]
      simp
    · rw [List.nil_append, readSigned, if_neg hne, hm, abs_of_nonneg (Rat.num_nonneg.mp (not_lt.mp hneg))]
  rw [read, hs]
  simp only [h, if_true]

private theorem print_lexeme (q : ℚ) : IsNumberLexeme (print q) := by
  refine ⟨if q.num < 0 then [unit '-'] else [], decimal (q.num.natAbs * 5 ^ scale q), [],
    if scale q = 0 then [] else qstr "e-" ++ decimal (scale q), ?_, ?_, isInteger_decimal _, .inl rfl, ?_⟩
  · rw [List.append_nil, print]
  · split_ifs
    · exact .inr rfl
    · exact .inl rfl
  · split_ifs with h
    · exact .inl rfl
    · exact .inr ⟨unit 'e', [unit '-'], decimal (scale q), rfl, .inl rfl, .inr (.inr rfl),
        decimal_ne_nil _, decimal_digits _⟩

private theorem print_length (q : ℚ) (h : IsBinary64 q) : (print q).length ≤ maximumInt := by
  have hscale := (power_den h).2
  have h1 : (decimal (q.num.natAbs * 5 ^ scale q)).length ≤ 1024 + 1074 := by
    apply decimal_length (by norm_num)
    rw [pow_add]
    have h5 : 5 ^ scale q ≤ 10 ^ 1074 :=
      (Nat.pow_le_pow_left (by norm_num) _).trans (Nat.pow_le_pow_right (by norm_num) hscale)
    exact Nat.mul_lt_mul_of_lt_of_le ((num_lt h).trans_le (Nat.pow_le_pow_left (by norm_num) _)) h5
      (Nat.pow_pos (by norm_num))
  have h2 : (decimal (scale q)).length ≤ 4 := decimal_length (by norm_num) (by omega)
  have h3 : (qstr "e-").length = 2 := rfl
  unfold print maximumInt
  split_ifs <;> simp only [List.length_append, List.length_singleton, List.length_nil] <;> omega

end HyprShelld.ExactDecimal

namespace HyprShelld

def exactDecimal : NumberText where
  print := ExactDecimal.print
  read := ExactDecimal.read
  print_lexeme := fun q _ => ExactDecimal.print_lexeme q
  print_length := ExactDecimal.print_length
  print_zero := by decide
  read_print := ExactDecimal.read_print
  read_binary64 := by
    intro s q h
    unfold ExactDecimal.read at h
    split at h
    · split_ifs at h with hb
      cases h
      exact hb
    · cases h

theorem exactDecimal_plainIntegers : exactDecimal.PlainIntegers := by
  intro n _
  have hscale : ExactDecimal.scale (n : ℚ) = 0 := by
    rw [ExactDecimal.scale, Rat.den_natCast]
    decide
  have hnum : ¬ ((n : ℚ)).num < 0 := by simp
  have habs : ((n : ℚ)).num.natAbs = n := by simp
  show ExactDecimal.print n = decimal n
  rw [ExactDecimal.print, hscale, if_neg hnum, if_pos rfl, habs]
  simp

end HyprShelld
