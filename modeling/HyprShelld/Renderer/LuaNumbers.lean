import HyprShelld.Desired.RoundTrip
import HyprShelld.Lua.Constructor
import HyprShelld.Renderer.Lua

/-! Numbers in generated Lua: what is written is read as the same number. -/
namespace HyprShelld.Compositor
open Hyprland Lua
variable {p : Platform} {q : ℚ}

section Ascii

theorem toUtf8_ascii {s : QString} (hs : ∀ u ∈ s, u.toNat < 0x80) : toUtf8 s = s.map fun u => UInt8.ofNat u.toNat := by
  induction s with
  | nil => rfl
  | cons u s ih =>
    have hu := hs u List.mem_cons_self
    have hhigh : isHighSurrogate u = false := by
      simp only [isHighSurrogate, Bool.and_eq_false_imp, decide_eq_true_eq, decide_eq_false_iff_not]
      omega
    have hlow : isLowSurrogate u = false := by
      simp only [isLowSurrogate, Bool.and_eq_false_imp, decide_eq_true_eq, decide_eq_false_iff_not]
      omega
    have hchar : String.utf8EncodeChar (Char.ofNat u.toNat) = [UInt8.ofNat u.toNat] := by
      have hn : (Char.ofNat u.toNat).toNat = u.toNat := by
        rw [Char.ofNat, dif_pos (.inl (by omega))]
        rfl
      have hle : (Char.ofNat u.toNat).val.toNat ≤ 127 := by
        change (Char.ofNat u.toNat).toNat ≤ 127
        omega
      simp only [String.utf8EncodeChar, hle, if_true]
      change [UInt8.ofNat (Char.ofNat u.toNat).toNat] = _
      rw [hn]
    rw [toUtf8.eq_def]
    simp [hhigh, hlow, hchar, ih fun v hv => hs v (List.mem_cons_of_mem _ hv)]

theorem toUtf8_decimal (n : Nat) : toUtf8 (decimal n) = digitBytes (digitsOf n) := by
  have hdecimal : decimal n = (digitsOf n).map digitUnit := by
    rw [decimal, digitsOf]
    split_ifs <;> rfl
  have hunit : ∀ d ∈ digitsOf n, (digitUnit d).toNat = 0x30 + d := by
    intro d hd
    have := digitsOf_lt hd
    rw [digitUnit, UInt16.toNat_ofNat']
    omega
  rw [hdecimal, toUtf8_ascii, List.map_map, digitBytes]
  · exact List.map_congr_left fun d hd => by rw [Function.comp_apply, hunit d hd]; rfl
  · intro u hu
    obtain ⟨d, hd, rfl⟩ := List.mem_map.mp hu
    have := digitsOf_lt hd
    rw [hunit d hd]
    omega

end Ascii

/-- The sign and the digits a number is written with. -/
def numeralOf (p : Platform) (q : ℚ) : Bool × DecimalNumeral :=
  if q.den = 1 ∧ -2 ^ 63 ≤ q ∧ q ≤ 2 ^ 63 then (decide (p.toInt64 q < 0), .ofNat (p.toInt64 q).natAbs)
  else (decide (q < 0), generalNumeral q)

theorem numeralOf_wellformed : (numeralOf p q).2.Wellformed := by
  unfold numeralOf
  split_ifs
  · exact DecimalNumeral.ofNat_wellformed _
  · exact generalNumeral_wellformed q

def signText (negative : Bool) : QByteArray := if negative then [0x2d] else []

/-- QByteArray::number with the format 'g' and 17 digits, as it is documented. -/
def WritesSeventeenDigits (p : Platform) : Prop := ∀ q, IsBinary64 q → p.generalNumber (.finite q) = generalText q

section Spelling

private theorem dropExponentPlus_append {a b : QByteArray} (ha : ∀ c ∈ a, c ≠ 0x65) :
    dropExponentPlus (a ++ b) = a ++ dropExponentPlus b := by
  induction a with
  | nil => rfl
  | cons c a ih =>
    have hc := ha c List.mem_cons_self
    have hrest := ih fun d hd => ha d (List.mem_cons_of_mem _ hd)
    rw [List.cons_append, List.cons_append, ← hrest]
    rw [dropExponentPlus.eq_def]
    split
    · rename_i h
      exact absurd (List.cons.inj h).1 hc
    · rename_i h
      obtain ⟨rfl, rfl⟩ := List.cons.inj h
      rfl
    · rename_i h
      cases h

private theorem dropExponentPlus_id {a : QByteArray} (ha : ∀ c ∈ a, c ≠ 0x65) : dropExponentPlus a = a := by
  have := dropExponentPlus_append (b := []) ha
  simpa [dropExponentPlus] using this

private theorem digitBytes_ne {ds : List Nat} (hd : ∀ d ∈ ds, d < 10) (b : UInt8) (hb : Lua.isDigit b = false) :
    ∀ c ∈ digitBytes ds, c ≠ b := by
  rintro c hc rfl
  rw [(digitBytes_digits hd).1 c hc] at hb
  cases hb

private theorem dropExponentPlus_exponent (exponent : ℤ) :
    dropExponentPlus (DecimalNumeral.exponentText true exponent) = DecimalNumeral.exponentText false exponent := by
  have hdigits := digitBytes_ne (fun d (hd : d ∈ padded 2 exponent.natAbs) => padded_lt hd) 0x65 (by decide)
  have hfirst : ∀ c ∈ digitBytes (padded 2 exponent.natAbs), c ≠ 0x2b :=
    digitBytes_ne (fun d hd => padded_lt hd) 0x2b (by decide)
  by_cases h : exponent < 0
  · simp only [DecimalNumeral.exponentText, h, if_true, List.cons_append, List.nil_append]
    rw [dropExponentPlus, dropExponentPlus_id]
    · intro c hc
      rcases List.mem_cons.mp hc with rfl | hc
      · decide
      · exact hdigits c hc
    · intro rest _ hrest
      exact absurd (List.cons.inj hrest).1 (by decide)
  · simp only [DecimalNumeral.exponentText, h, if_false, if_true, List.cons_append, List.nil_append, Bool.false_eq_true]
    rw [dropExponentPlus, dropExponentPlus_id hdigits]

theorem dropExponentPlus_text {n : DecimalNumeral} (hn : n.Wellformed) (negative : Bool) :
    dropExponentPlus (signText negative ++ n.text true) = signText negative ++ n.text false := by
  have hplain : ∀ c ∈ signText negative ++ (digitBytes n.whole ++
      (if n.fraction.isEmpty then [] else 0x2e :: digitBytes n.fraction)), c ≠ 0x65 := by
    intro c hc
    rcases List.mem_append.mp hc with hc | hc
    · cases negative with
      | false => cases hc
      | true =>
        rw [List.mem_singleton.mp hc]
        decide
    · rcases List.mem_append.mp hc with hc | hc
      · exact digitBytes_ne hn.whole_lt 0x65 (by decide) c hc
      · split_ifs at hc
        · cases hc
        · rcases List.mem_cons.mp hc with rfl | hc
          · decide
          · exact digitBytes_ne hn.fraction_lt 0x65 (by decide) c hc
  simp only [DecimalNumeral.text, ← List.append_assoc] at hplain ⊢
  rw [dropExponentPlus_append hplain]
  congr 1
  cases n.exponent with
  | none => rfl
  | some e => exact dropExponentPlus_exponent e

/-- A number is written as its sign and its numeral. -/
theorem luaNumber_text (hp : WritesSeventeenDigits p) (hq : IsBinary64 q) :
    luaNumber p (.finite q) = signText (numeralOf p q).1 ++ (numeralOf p q).2.text false := by
  simp only [luaNumber, numeralOf]
  split_ifs with h
  · simp only [signText, signedDecimal, decide_eq_true_eq, DecimalNumeral.ofNat, DecimalNumeral.text, List.isEmpty_nil, if_true,
      List.append_nil, Option.elim_none]
    split_ifs
    · have hminus : toUtf8 (unit '-' :: decimal (p.toInt64 q).natAbs) = 0x2d :: toUtf8 (decimal (p.toInt64 q).natAbs) :=
        toUtf8_append (isText_qstr "-") _
      rw [hminus, toUtf8_decimal]
      rfl
    · rw [toUtf8_decimal]
      rfl
  · have h0 : q ≠ 0 := by
      rintro rfl
      exact h ⟨rfl, by norm_num, by norm_num⟩
    rw [hp q hq, generalText, if_neg h0]
    have hsign : (if q < 0 then [0x2d] else ([] : QByteArray)) = signText (decide (q < 0)) := by
      simp [signText]
    rw [hsign]
    exact dropExponentPlus_text (generalNumeral_wellformed q) _

end Spelling

section Values

theorem binary64_two_pow_63 : IsBinary64 (2 ^ 63) := by decide +kernel

theorem binary64_two_pow_53 : IsBinary64 (2 ^ 53) := by decide +kernel

/-- The largest magnitude of an integer has no integer of its own and is a float. -/
theorem numeralValue_ofNat {n : Nat} (hn : n ≤ 2 ^ 63) : numeralValue (.ofNat n) = n := by
  rcases hn.lt_or_eq with hlt | rfl
  · have hvalue : (DecimalNumeral.ofNat n).value < 2 ^ 63 := by
      rw [DecimalNumeral.value_ofNat]
      exact_mod_cast hlt
    rw [numeralValue, if_pos ⟨rfl, hvalue⟩, DecimalNumeral.value_ofNat]
  · rw [numeralValue, DecimalNumeral.value_ofNat, if_neg (by norm_num)]
    exact floatOf_eq (readsAs_self (by exact_mod_cast binary64_two_pow_63))

/-- A numeral for a value that is read as it, and is no small integer, denotes that value. -/
theorem numeralValue_readsAs {n : DecimalNumeral} {r : ℚ} (hr : ReadsAs n.value r)
    (hinteger : n.isInteger = true → n.value < 2 ^ 63 → n.value = r) : numeralValue n = r := by
  rw [numeralValue]
  split_ifs with h
  · exact hinteger h.1 h.2
  · exact floatOf_eq hr

/-- Values with a fraction are small. -/
theorem abs_lt_of_den_ne_one (hq : IsBinary64 q) (hden : q.den ≠ 1) : |q| < 2 ^ 53 := by
  obtain ⟨m, e, hm, -, -, rfl⟩ := hq
  rcases le_or_gt 0 e with he | he
  · obtain ⟨k, rfl⟩ := Int.eq_ofNat_of_zero_le he
    refine absurd ?_ hden
    have : (m : ℚ) * 2 ^ (k : ℤ) = ((m * 2 ^ k : ℤ) : ℚ) := by
      push_cast
      rw [zpow_natCast]
    rw [this]
    exact Rat.den_intCast _
  · have hm' : |(m : ℚ)| < 2 ^ 53 := by exact_mod_cast hm
    have he' : (2 : ℚ) ^ e ≤ 1 := zpow_le_one_of_nonpos₀ (by norm_num) he.le
    rw [abs_mul, abs_of_pos (zpow_pos (by norm_num : (0 : ℚ) < 2) e)]
    exact (mul_le_of_le_one_right (abs_nonneg _) he').trans_lt hm'

private theorem value_of_isInteger {n : DecimalNumeral} (hn : n.isInteger = true) : ∃ k : Nat, n.value = k := by
  simp only [DecimalNumeral.isInteger, Bool.and_eq_true, List.isEmpty_iff, Option.isNone_iff_eq_none] at hn
  exact ⟨digitsValue (n.whole ++ n.fraction), by simp [DecimalNumeral.value, hn.1, hn.2]⟩

/-- The decimal of a value with a fraction is no integer. -/
theorem not_isInteger_of_fraction {n : DecimalNumeral} (hq : IsBinary64 q) (hden : q.den ≠ 1)
    (hr : ReadsAs n.value |q|) : n.isInteger = false := by
  by_contra hn
  obtain ⟨k, hk⟩ := value_of_isInteger (Bool.eq_true_of_not_eq_false hn)
  have hsmall := abs_lt_of_den_ne_one hq hden
  rw [hk] at hr
  rcases lt_or_ge k (2 ^ 53) with hlt | hge
  · have hne : (k : ℚ) ≠ |q| := by
      intro heq
      apply hden
      rcases abs_choice q with h | h
      · rw [← h, ← heq]
        exact Rat.den_natCast _
      · rw [h] at heq
        rw [← neg_neg q, ← heq, Rat.den_neg_eq_den]
        exact Rat.den_natCast _
    have hself := hr.2 k (by exact_mod_cast binary64_small (z := (k : ℤ)) (by simpa using hlt)) hne
    rw [sub_self, abs_zero] at hself
    exact absurd hself (not_lt.mpr (abs_nonneg _))
  · have hge' : (2 : ℚ) ^ 53 ≤ k := by exact_mod_cast hge
    have hfar := hr.2 (2 ^ 53) binary64_two_pow_53 (ne_of_gt hsmall)
    rw [abs_of_nonneg (show (0 : ℚ) ≤ k - |q| by linarith), abs_of_nonneg (show (0 : ℚ) ≤ k - 2 ^ 53 by linarith)] at hfar
    linarith

/-- A value that is too large for the integer branch has an exponent. -/
theorem not_isInteger_of_large (hlarge : 2 ^ 63 ≤ |q|) : (generalNumeral q).isInteger = false := by
  have hpos : 0 < |q| := by linarith [show (0 : ℚ) < 2 ^ 63 by norm_num]
  have hlead : 18 ≤ leadingExponent q := by
    refine (Int.zpow_le_iff_le_log (show 1 < 10 by decide) hpos).mp ?_
    push_cast
    norm_num at hlarge ⊢
    linarith
  have hbound := leadingExponent_le_exponent (q := q) (by rintro rfl; simp at hpos)
  simp only [generalNumeral]
  rw [if_neg (by omega)]
  simp [DecimalNumeral.split, DecimalNumeral.isInteger]

theorem generalNumeral_not_isInteger (hq : IsBinary64 q) (h : ¬ (q.den = 1 ∧ -2 ^ 63 ≤ q ∧ q ≤ 2 ^ 63)) :
    (generalNumeral q).isInteger = false := by
  have h0 : q ≠ 0 := by
    rintro rfl
    exact h ⟨rfl, by norm_num, by norm_num⟩
  by_cases hden : q.den = 1
  · refine not_isInteger_of_large ?_
    rcases le_total 0 q with hq0 | hq0
    · rw [abs_of_nonneg hq0]
      by_contra hlt
      exact h ⟨hden, by linarith, by linarith⟩
    · rw [abs_of_nonpos hq0]
      by_contra hlt
      exact h ⟨hden, by linarith, by linarith⟩
  · exact not_isInteger_of_fraction hq hden (generalNumeral_readsAs hq h0)

/-- The value of what a number is written as. -/
noncomputable def writtenValue (p : Platform) (q : ℚ) : ℚ :=
  if (numeralOf p q).1 then -numeralValue (numeralOf p q).2 else numeralValue (numeralOf p q).2

theorem toInt64_eq (h : q.den = 1 ∧ -2 ^ 63 ≤ q ∧ q ≤ 2 ^ 63) (hne : q ≠ 2 ^ 63) :
    ((p.toInt64 q : ℤ) : ℚ) = q ∧ (p.toInt64 q).natAbs ≤ 2 ^ 63 := by
  obtain ⟨hden, hmin, hmax⟩ := h
  have hnum : ((q.num : ℤ) : ℚ) = q := Rat.coe_int_num_of_den_eq_one hden
  rw [Platform.toInt64, if_pos ⟨hmin, lt_of_le_of_ne hmax hne⟩]
  refine ⟨hnum, ?_⟩
  rw [← hnum] at hmin hmax
  have h1 : -2 ^ 63 ≤ q.num := by exact_mod_cast hmin
  have h2 : q.num ≤ 2 ^ 63 := by exact_mod_cast hmax
  omega

theorem writtenValue_eq (hq : IsBinary64 q) (hne : q ≠ 2 ^ 63) : writtenValue p q = q := by
  unfold writtenValue numeralOf
  split_ifs with h hsign hsign
  · obtain ⟨hcast, hsize⟩ := toInt64_eq (p := p) h hne
    have hnegative : p.toInt64 q < 0 := of_decide_eq_true hsign
    rw [numeralValue_ofNat hsize, Nat.cast_natAbs, abs_of_neg hnegative, Int.cast_neg, neg_neg, hcast]
  · obtain ⟨hcast, hsize⟩ := toInt64_eq (p := p) h hne
    have hnonneg : 0 ≤ p.toInt64 q := not_lt.mp fun hlt => hsign (decide_eq_true hlt)
    rw [numeralValue_ofNat hsize, Nat.cast_natAbs, abs_of_nonneg hnonneg, hcast]
  · have h0 : q ≠ 0 := ne_of_lt (of_decide_eq_true hsign)
    have hread := generalNumeral_readsAs hq h0
    rw [numeralValue_readsAs hread fun hinteger => ?_]
    · rw [abs_of_neg (of_decide_eq_true hsign), neg_neg]
    · rw [generalNumeral_not_isInteger hq h] at hinteger
      cases hinteger
  · have h0 : q ≠ 0 := by
      rintro rfl
      exact h ⟨rfl, by norm_num, by norm_num⟩
    have hread := generalNumeral_readsAs hq h0
    rw [numeralValue_readsAs hread fun hinteger => ?_]
    · exact abs_of_nonneg (not_lt.mp fun hlt => hsign (decide_eq_true hlt))
    · rw [generalNumeral_not_isInteger hq h] at hinteger
      cases hinteger

/-- Past the range the cast is undefined, but it is a qint64. -/
theorem writtenValue_ne : writtenValue p (2 ^ 63) ≠ 2 ^ 63 := by
  have hbranch : ((2 ^ 63 : ℚ)).den = 1 ∧ -2 ^ 63 ≤ (2 ^ 63 : ℚ) ∧ (2 ^ 63 : ℚ) ≤ 2 ^ 63 :=
    ⟨by exact_mod_cast Rat.den_natCast (2 ^ 63), by norm_num, le_refl _⟩
  have hcast : p.toInt64 (2 ^ 63) = (p.overflowInt64 (2 ^ 63)).toInt := by
    rw [Platform.toInt64, if_neg (by norm_num)]
  have hmin := Int64.le_toInt (p.overflowInt64 (2 ^ 63))
  have hmax := Int64.toInt_lt (p.overflowInt64 (2 ^ 63))
  unfold writtenValue numeralOf
  rw [if_pos hbranch]
  simp only [hcast]
  generalize (p.overflowInt64 (2 ^ 63)).toInt = z at *
  rw [numeralValue_ofNat (by omega), Nat.cast_natAbs]
  have hlt : (z : ℚ) < 2 ^ 63 := by exact_mod_cast hmax
  by_cases hsign : z < 0
  · rw [if_pos (decide_eq_true hsign), abs_of_neg hsign, Int.cast_neg, neg_neg]
    exact ne_of_lt hlt
  · rw [if_neg (by simpa using hsign), abs_of_nonneg (not_lt.mp hsign)]
    exact ne_of_lt hlt

end Values

section Reading

/-- Digits, and a sign perhaps. -/
def IsIntegerSpelling (text : QByteArray) : Prop := ∀ b ∈ text, Lua.isDigit b = true ∨ b = 0x2d

def numeralTokens (p : Platform) (q : ℚ) : List Token :=
  (if (numeralOf p q).1 then [.symbol 0x2d] else []) ++ [.numeral (numeralOf p q).2]

theorem scans_luaNumber (hp : WritesSeventeenDigits p) (hq : IsBinary64 q) {rest : QByteArray} (hr : EndsWord rest) :
    Scans (luaNumber p (.finite q) ++ rest) (numeralTokens p q) rest := by
  have hnumeral := nextToken_numeral (numeralOf_wellformed (p := p) (q := q)) false hr
  rw [luaNumber_text hp hq, numeralTokens, List.append_assoc]
  cases (numeralOf p q).1 with
  | false => exact .single hnumeral
  | true =>
    refine Scans.append (.single (scanToken_symbol (by decide) ?_)) (.single hnumeral)
    obtain ⟨d, ds, hds⟩ := List.exists_cons_of_ne_nil (numeralOf_wellformed (p := p) (q := q)).whole_ne_nil
    have hd := (digitByte_digit ((numeralOf_wellformed (p := p) (q := q)).whole_lt d (by rw [hds]; exact List.mem_cons_self))).1
    have hne : digitByte d ≠ 0x2d := by
      intro h
      rw [h] at hd
      revert hd
      decide
    simp [joins, DecimalNumeral.text, hds, digitBytes, hne]

def numberExpr (p : Platform) (q : ℚ) : Expr := .number (numeralOf p q).1 (numeralOf p q).2

theorem parse_numeralTokens (depth : Nat) (rest : List Token) :
    parseExpr (depth + 1) (numeralTokens p q ++ rest) = some (numberExpr p q, rest) := by
  rw [numeralTokens, numberExpr]
  cases (numeralOf p q).1 <;> simp [parseExpr]

theorem evaluate_numberExpr : evaluate (numberExpr p q) = .number (writtenValue p q) := by
  rw [numberExpr, evaluate, writtenValue]

/-- A number alone is one expression with the written value. -/
theorem luaNumber_evaluates (hp : WritesSeventeenDigits p) (hq : IsBinary64 q) (d : Data) :
    Evaluates (luaNumber p (.finite q)) d ↔ d = .number (writtenValue p q) := by
  have hscans : Scans (luaNumber p (.finite q) ++ []) (numeralTokens p q) [] := scans_luaNumber hp hq rfl
  rw [List.append_nil] at hscans
  have hlexes : Lexes (luaNumber p (.finite q)) (numeralTokens p q) := ⟨[], hscans, rfl⟩
  have hparse : ∀ depth ≥ 1, parseExpr depth (numeralTokens p q) = (some (numberExpr p q)).map (·, []) := by
    intro depth hdepth
    obtain ⟨k, rfl⟩ : ∃ k, depth = k + 1 := ⟨depth - 1, by omega⟩
    simpa using parse_numeralTokens (p := p) (q := q) k []
  rw [evaluates_iff hlexes hparse]
  constructor
  · rintro ⟨e, he, rfl⟩
    cases he
    exact evaluate_numberExpr
  · rintro rfl
    exact ⟨_, rfl, evaluate_numberExpr⟩

theorem integerSpelling_iff (hp : WritesSeventeenDigits p) (hq : IsBinary64 q) :
    IsIntegerSpelling (luaNumber p (.finite q)) ↔ q.den = 1 ∧ -2 ^ 63 ≤ q ∧ q ≤ 2 ^ 63 := by
  rw [luaNumber_text hp hq]
  by_cases h : q.den = 1 ∧ -2 ^ 63 ≤ q ∧ q ≤ 2 ^ 63
  · refine iff_of_true (fun b hb => ?_) h
    rw [numeralOf, if_pos h] at hb
    rcases List.mem_append.mp hb with hb | hb
    · simp only [signText] at hb
      split_ifs at hb
      · exact .inr (List.mem_singleton.mp hb)
      · cases hb
    · simp only [DecimalNumeral.text, DecimalNumeral.ofNat, List.isEmpty_nil, if_true, List.append_nil, Option.elim_none] at hb
      exact .inl ((digitBytes_digits fun d hd => digitsOf_lt hd).1 b hb)
  · refine iff_of_false (fun hspelling => ?_) h
    have hn := generalNumeral_not_isInteger hq h
    rw [numeralOf, if_neg h] at hspelling
    have htext : ∀ b ∈ (generalNumeral q).text false, Lua.isDigit b = true ∨ b = 0x2d :=
      fun b hb => hspelling b (List.mem_append_right _ hb)
    simp only [DecimalNumeral.isInteger, Bool.and_eq_false_iff, Option.isNone_eq_false_iff] at hn
    rcases hn with hn | hn
    · refine absurd (htext 0x2e ?_) (by decide)
      simp [DecimalNumeral.text, hn]
    · obtain ⟨e, he⟩ := Option.isSome_iff_exists.mp hn
      refine absurd (htext 0x65 ?_) (by decide)
      simp [DecimalNumeral.text, he, DecimalNumeral.exponentText]

end Reading

/-- A number is read as itself and written as an integer only where it fits, unless it is 2^63. -/
theorem luaNumber_exact (p : Platform) (hp : WritesSeventeenDigits p) (q : ℚ) (hq : IsBinary64 q) :
    (Evaluates (luaNumber p (.finite q)) (.number q) ∧
        (IsIntegerSpelling (luaNumber p (.finite q)) → ∃ z : Int64, q = z.toInt)) ↔ q ≠ 2 ^ 63 := by
  rw [luaNumber_evaluates hp hq, integerSpelling_iff hp hq]
  constructor
  · rintro ⟨hvalue, -⟩ rfl
    exact writtenValue_ne (Data.number.inj hvalue).symm
  · intro hne
    refine ⟨by rw [writtenValue_eq hq hne], fun h => ⟨Int64.ofInt q.num, ?_⟩⟩
    have hnum : ((q.num : ℤ) : ℚ) = q := Rat.coe_int_num_of_den_eq_one h.1
    have hmin : -2 ^ 63 ≤ q.num := by
      have := h.2.1
      rw [← hnum] at this
      exact_mod_cast this
    have hmax : q.num < 2 ^ 63 := by
      have := lt_of_le_of_ne h.2.2 hne
      rw [← hnum] at this
      exact_mod_cast this
    rw [Int64.toInt_ofInt_of_le hmin hmax, hnum]

/-- A platform with the documented general format. -/
def seventeenPlatform : Platform :=
  { plainPlatform with
    generalNumber := fun number =>
      match number with
      | .finite q => generalText q
      | .infinity _ | .nan => [] }

theorem luaNumber_exact_half : Evaluates (luaNumber seventeenPlatform (.finite (1 / 2))) (.number (1 / 2)) :=
  ((luaNumber_exact seventeenPlatform (fun _ _ => rfl) (1 / 2) (by decide +kernel)).mpr (by norm_num)).1

/-- A vector with 2^63 is a valid one, but the number is written as a qint64. -/
theorem luaNumber_overflow :
    nestedValueMatches seventeenPlatform (.array [.double (.finite (2 ^ 63)), .double (.finite 0)]) .vector2 = true ∧
      IsIntegerSpelling (luaNumber seventeenPlatform (.finite (2 ^ 63))) ∧ (¬ ∃ z : Int64, (2 ^ 63 : ℚ) = z.toInt) ∧
      ¬ Evaluates (luaNumber seventeenPlatform (.finite (2 ^ 63))) (.number (2 ^ 63)) := by
  refine ⟨rfl, ?_, ?_, ?_⟩
  · refine (integerSpelling_iff (fun _ _ => rfl) binary64_two_pow_63).mpr ⟨?_, by norm_num, le_refl _⟩
    exact_mod_cast Rat.den_natCast (2 ^ 63)
  · rintro ⟨z, hz⟩
    have hlt := Int64.toInt_lt z
    have : (2 ^ 63 : ℤ) = z.toInt := by exact_mod_cast hz
    omega
  · rw [luaNumber_evaluates (fun _ _ => rfl) binary64_two_pow_63]
    intro h
    exact writtenValue_ne (Data.number.inj h).symm

end HyprShelld.Compositor
