import HyprShelld.Text.Numeral

/-! The lexical rules of Lua, as far as expressions of data need them: names, keywords, numerals,
quoted strings and the symbols of constructors. Text with anything else has no tokens here. -/
namespace HyprShelld.Lua

inductive Token where
  | name (bytes : QByteArray)
  | keyword (bytes : QByteArray)
  | string (bytes : QByteArray)
  | numeral (n : DecimalNumeral)
  | symbol (byte : UInt8)
  deriving DecidableEq

def isSpace (b : UInt8) : Bool := b = 0x20 || (0x09 ≤ b && b ≤ 0x0d)
def isDigit (b : UInt8) : Bool := 0x30 ≤ b && b ≤ 0x39
def isLetter (b : UInt8) : Bool := (0x41 ≤ b && b ≤ 0x5a) || (0x61 ≤ b && b ≤ 0x7a) || b = 0x5f

/-- What a name is made of. -/
def isWord (b : UInt8) : Bool := isLetter b || isDigit b

def keywords : List QByteArray :=
  ["and", "break", "do", "else", "elseif", "end", "false", "for", "function", "goto", "if", "in", "local",
    "nil", "not", "or", "repeat", "return", "then", "true", "until", "while"].map fun word => utf8 word.toList

def digitOf (b : UInt8) : Nat := b.toNat - 0x30

def hexOf (b : UInt8) : Option UInt8 :=
  if isDigit b then some (b - 0x30)
  else if 0x61 ≤ b ∧ b ≤ 0x66 then some (b - 0x57)
  else if 0x41 ≤ b ∧ b ≤ 0x46 then some (b - 0x37)
  else none

/-- An escape of one letter. -/
def simpleEscape (b : UInt8) : Option UInt8 :=
  if b = 0x61 then some 0x07 else if b = 0x62 then some 0x08 else if b = 0x66 then some 0x0c
  else if b = 0x6e then some 0x0a else if b = 0x72 then some 0x0d else if b = 0x74 then some 0x09
  else if b = 0x76 then some 0x0b
  else if b = 0x5c ∨ b = 0x22 ∨ b = 0x27 ∨ b = 0x0a then some b
  else none

/-- A decimal escape takes up to three digits. -/
def decimalEscape (s : QByteArray) : Option (UInt8 × QByteArray) :=
  let ds := (s.take 3).takeWhile isDigit
  let n := digitsValue (ds.map digitOf)
  if ds = [] ∨ 255 < n then none else some (UInt8.ofNat n, s.drop ds.length)

/-- What follows a backslash. The escapes `\z` and `\u` are not read. -/
def escape : QByteArray → Option (UInt8 × QByteArray)
  | [] => none
  | b :: rest =>
    if b = 0x78 then
      match rest with
      | h :: l :: rest => (hexOf h).bind fun high => (hexOf l).map fun low => (16 * high + low, rest)
      | _ => none
    else
      match simpleEscape b with
      | some byte => some (byte, rest)
      | none => decimalEscape (b :: rest)

theorem escape_shorter {s rest : QByteArray} {byte : UInt8} (h : escape s = some (byte, rest)) : rest.length < s.length := by
  unfold escape at h
  split at h
  · cases h
  · split at h
    · split at h
      · obtain ⟨high, -, h⟩ := Option.bind_eq_some_iff.mp h
        obtain ⟨low, -, h⟩ := Option.map_eq_some_iff.mp h
        cases h
        simp only [List.length_cons]
        omega
      · cases h
    · split at h
      · cases h
        exact Nat.lt_succ_self _
      · simp only [decimalEscape] at h
        split_ifs at h with hd
        cases h
        have : 0 < ((List.take 3 (_ :: _)).takeWhile isDigit).length := List.length_pos_iff.mpr fun h => hd (.inl h)
        simp only [List.length_drop, List.length_cons] at this ⊢
        omega

/-- The content of a string up to its closing quote, and what follows. -/
def scanString : QByteArray → Option (QByteArray × QByteArray)
  | [] => none
  | b :: rest =>
    if b = 0x22 then some ([], rest)
    else if b = 0x0a ∨ b = 0x0d then none
    else if b = 0x5c then
      match h : escape rest with
      | none => none
      | some (byte, rest') =>
        have : rest'.length < rest.length := escape_shorter h
        (scanString rest').map fun r => (byte :: r.1, r.2)
    else (scanString rest).map fun r => (b :: r.1, r.2)
termination_by s => s.length

/-- The point of a numeral and the digits behind it. -/
def scanFraction : QByteArray → QByteArray × QByteArray
  | b :: rest => if b = 0x2e then (rest.takeWhile isDigit, rest.dropWhile isDigit) else ([], b :: rest)
  | [] => ([], [])

def scanSign : QByteArray → Bool × QByteArray
  | b :: rest => if b = 0x2d then (true, rest) else if b = 0x2b then (false, rest) else (false, b :: rest)
  | [] => (false, [])

/-- The exponent of a numeral; none where its digits are missing. -/
def scanExponent : QByteArray → Option (Option ℤ × QByteArray)
  | b :: rest =>
    if b = 0x65 ∨ b = 0x45 then
      let (negative, digits) := scanSign rest
      let ds := digits.takeWhile isDigit
      let n : ℤ := digitsValue (ds.map digitOf)
      if ds = [] then none else some (some (if negative then -n else n), digits.dropWhile isDigit)
    else some (none, b :: rest)
  | [] => some (none, [])

/-- A decimal numeral, which no letter, digit or point may follow. -/
def scanNumeral (s : QByteArray) : Option (DecimalNumeral × QByteArray) :=
  let (fraction, rest) := scanFraction (s.dropWhile isDigit)
  match scanExponent rest with
  | none => none
  | some (exponent, rest) =>
    if rest.head?.any (fun b => isWord b || b = 0x2e) then none
    else some (⟨(s.takeWhile isDigit).map digitOf, fraction.map digitOf, exponent⟩, rest)

def constructorSymbols : List UInt8 := [0x7b, 0x7d, 0x5b, 0x5d, 0x2c, 0x3b, 0x3d, 0x2d]

/-- The bytes of one symbol that are another one when doubled, or begin a long bracket. -/
def joins (b : UInt8) (rest : QByteArray) : Bool :=
  ((b = 0x3d || b = 0x2d) && rest.head? = some b) || (b = 0x5b && (rest.head? = some 0x5b || rest.head? = some 0x3d))

def isKeyword (word : QByteArray) : Bool := keywords.contains word

def wordToken (word : QByteArray) : Token := if isKeyword word then .keyword word else .name word

/-- The token text begins with. -/
def scanToken : QByteArray → Option (Token × QByteArray)
  | [] => none
  | b :: rest =>
    if isLetter b then some (wordToken ((b :: rest).takeWhile isWord), (b :: rest).dropWhile isWord)
    else if isDigit b then (scanNumeral (b :: rest)).map fun r => (.numeral r.1, r.2)
    else if b = 0x22 then (scanString rest).map fun r => (.string r.1, r.2)
    else if b ∈ constructorSymbols ∧ joins b rest = false then some (.symbol b, rest)
    else none

def nextToken (s : QByteArray) : Option (Token × QByteArray) := scanToken (s.dropWhile isSpace)

/-- Tokens one after the other, and the text behind the last one. -/
inductive Scans : QByteArray → List Token → QByteArray → Prop
  | nil (s : QByteArray) : Scans s [] s
  | cons {s r q : QByteArray} {t : Token} {ts : List Token} : nextToken s = some (t, r) → Scans r ts q → Scans s (t :: ts) q

/-- A whole text and its tokens. -/
def Lexes (s : QByteArray) (ts : List Token) : Prop := ∃ r, Scans s ts r ∧ r.dropWhile isSpace = []

theorem Scans.append {s r q : QByteArray} {ts us : List Token} (h1 : Scans s ts r) (h2 : Scans r us q) :
    Scans s (ts ++ us) q := by
  induction h1 with
  | nil => exact h2
  | cons h _ ih => exact .cons h (ih h2)

theorem Scans.single {s r : QByteArray} {t : Token} (h : nextToken s = some (t, r)) : Scans s [t] r := .cons h (.nil r)

/-- A text has one list of tokens at most. -/
theorem Lexes.unique {s : QByteArray} {ts us : List Token} (h1 : Lexes s ts) (h2 : Lexes s us) : ts = us := by
  obtain ⟨r, h1, hr⟩ := h1
  obtain ⟨q, h2, hq⟩ := h2
  induction h1 generalizing us with
  | nil s =>
    cases h2 with
    | nil => rfl
    | cons h _ =>
      rw [nextToken, hr] at h
      cases h
  | cons h _ ih =>
    cases h2 with
    | nil =>
      rw [nextToken, hq] at h
      cases h
    | cons h' h2 =>
      rw [h] at h'
      cases h'
      rw [ih hr h2]

section Rules
variable {rest : QByteArray}

theorem nextToken_space (s : QByteArray) : nextToken (0x20 :: s) = nextToken s := rfl

theorem Scans.spaced {s r : QByteArray} {ts : List Token} (h : Scans s ts r) (hts : ts ≠ []) : Scans (0x20 :: s) ts r := by
  cases h with
  | nil => exact absurd rfl hts
  | cons hn hs => exact .cons ((nextToken_space _).trans hn) hs

theorem nextToken_quote (rest : QByteArray) :
    nextToken (0x22 :: rest) = (scanString rest).map fun r => (.string r.1, r.2) := rfl

theorem scanString_quote (rest : QByteArray) : scanString (0x22 :: rest) = some ([], rest) := by
  rw [scanString, if_pos rfl]

theorem scanString_plain {b : UInt8} (hquote : b ≠ 0x22) (hline : ¬ (b = 0x0a ∨ b = 0x0d)) (hescape : b ≠ 0x5c)
    (rest : QByteArray) : scanString (b :: rest) = (scanString rest).map fun r => (b :: r.1, r.2) := by
  rw [scanString, if_neg hquote, if_neg hline, if_neg hescape]

theorem scanString_escape {s rest : QByteArray} {byte : UInt8} (h : escape s = some (byte, rest)) :
    scanString (0x5c :: s) = (scanString rest).map fun r => (byte :: r.1, r.2) := by
  rw [scanString, if_neg (by decide), if_neg (by decide), if_pos rfl]
  split
  · rename_i hnone
    rw [h] at hnone
    cases hnone
  · rename_i hsome
    rw [h] at hsome
    cases hsome
    rfl

@[simp] theorem scanToken_symbol {b : UInt8} (hb : b ∈ constructorSymbols) (hj : joins b rest = false) :
    nextToken (b :: rest) = some (.symbol b, rest) := by
  simp only [constructorSymbols, List.mem_cons, List.not_mem_nil, or_false] at hb
  rcases hb with rfl | rfl | rfl | rfl | rfl | rfl | rfl | rfl <;>
    simp [nextToken, scanToken, isSpace, isLetter, isDigit, constructorSymbols, hj]

/-- Nothing a word could go on with. -/
def EndsWord (s : QByteArray) : Prop := s.head?.any (fun b => isWord b || b = 0x2e) = false

theorem endsWord_not_word (h : EndsWord rest) : rest.head?.any isWord = false := by
  unfold EndsWord at h
  cases hd : rest.head? with
  | none => rfl
  | some b =>
    rw [hd] at h
    simp only [Option.any_some, Bool.or_eq_false_iff] at h ⊢
    exact h.1

theorem takeWhile_append {p : UInt8 → Bool} {s : QByteArray} (hs : ∀ b ∈ s, p b = true) (hr : rest.head?.any p = false) :
    (s ++ rest).takeWhile p = s ∧ (s ++ rest).dropWhile p = rest := by
  have hrest : rest.takeWhile p = [] ∧ rest.dropWhile p = rest := by
    cases rest with
    | nil => exact ⟨rfl, rfl⟩
    | cons b rest =>
      have hb : p b = false := hr
      simp [hb]
  rw [List.takeWhile_append_of_pos hs, List.dropWhile_append_of_pos hs, hrest.1, hrest.2, List.append_nil]
  exact ⟨rfl, rfl⟩

theorem letter_not_space {b : UInt8} (hb : isLetter b = true) : isSpace b = false := by
  simp only [isLetter, isSpace, Bool.or_eq_true, Bool.and_eq_true, decide_eq_true_eq, Bool.or_eq_false_iff,
    Bool.and_eq_false_imp, decide_eq_false_iff_not, UInt8.le_iff_toNat_le, ← UInt8.toNat_inj, UInt8.reduceToNat] at hb ⊢
  omega

theorem digit_not_letter {b : UInt8} (hb : isDigit b = true) : isLetter b = false ∧ isSpace b = false := by
  simp only [isLetter, isSpace, isDigit, Bool.and_eq_true, decide_eq_true_eq, Bool.or_eq_false_iff,
    Bool.and_eq_false_imp, decide_eq_false_iff_not, UInt8.le_iff_toNat_le, ← UInt8.toNat_inj, UInt8.reduceToNat] at hb ⊢
  omega

/-- A word is a name unless it is a keyword. -/
theorem nextToken_word {b : UInt8} {word : QByteArray} (hb : isLetter b = true) (hword : ∀ c ∈ word, isWord c = true)
    (hr : rest.head?.any isWord = false) :
    nextToken (b :: word ++ rest) = some (wordToken (b :: word), rest) := by
  have hspace := letter_not_space hb
  have hall : ∀ c ∈ b :: word, isWord c = true := by
    intro c hc
    rcases List.mem_cons.mp hc with rfl | hc
    · simp [isWord, hb]
    · exact hword c hc
  obtain ⟨htake, hdrop⟩ := takeWhile_append hall hr
  rw [List.cons_append] at htake hdrop ⊢
  simp only [nextToken, List.dropWhile_cons, hspace, Bool.false_eq_true, if_false, scanToken, hb, if_true, htake, hdrop]

theorem digitByte_digit {d : Nat} (hd : d < 10) : isDigit (digitByte d) = true ∧ digitOf (digitByte d) = d := by
  have hn : (digitByte d).toNat = 0x30 + d := by
    rw [digitByte, UInt8.toNat_ofNat']
    omega
  simp only [isDigit, digitOf, Bool.and_eq_true, decide_eq_true_eq, UInt8.le_iff_toNat_le, UInt8.reduceToNat, hn]
  omega

theorem digitBytes_digits {ds : List Nat} (hd : ∀ d ∈ ds, d < 10) :
    (∀ b ∈ digitBytes ds, isDigit b = true) ∧ (digitBytes ds).map digitOf = ds := by
  constructor
  · intro b hb
    obtain ⟨d, hmem, rfl⟩ := List.mem_map.mp hb
    exact (digitByte_digit (hd d hmem)).1
  · rw [digitBytes, List.map_map]
    exact List.map_congr_left (fun d hmem => (digitByte_digit (hd d hmem)).2) |>.trans (List.map_id' ds)

theorem endsWord_not_digit (h : EndsWord rest) : rest.head?.any isDigit = false := by
  have := endsWord_not_word h
  cases hd : rest.head? with
  | none => rfl
  | some b =>
    rw [hd] at this
    simp only [Option.any_some, isWord, Bool.or_eq_false_iff] at this ⊢
    exact this.2

private theorem scanSign_padded (rest : QByteArray) (n : Nat) (plus : Bool) (sign : Bool) :
    scanSign ((if sign then [0x2d] else if plus then [0x2b] else []) ++ digitBytes (padded 2 n) ++ rest) =
      (sign, digitBytes (padded 2 n) ++ rest) := by
  cases sign with
  | true => rfl
  | false =>
    cases plus with
    | true => rfl
    | false =>
      obtain ⟨d, ds, hds⟩ := List.exists_cons_of_ne_nil (padded_ne_nil 2 n)
      have hd : isDigit (digitByte d) = true := (digitByte_digit (padded_lt (by rw [hds]; exact List.mem_cons_self))).1
      have h1 : digitByte d ≠ 0x2d := by
        intro h
        rw [h] at hd
        revert hd
        decide
      have h2 : digitByte d ≠ 0x2b := by
        intro h
        rw [h] at hd
        revert hd
        decide
      simp [hds, digitBytes, scanSign, h1, h2]

private theorem scanExponent_text (plus : Bool) (exponent : ℤ) (hr : rest.head?.any isDigit = false) :
    scanExponent (DecimalNumeral.exponentText plus exponent ++ rest) = some (some exponent, rest) := by
  have hdigits := digitBytes_digits fun d (hd : d ∈ padded 2 exponent.natAbs) => padded_lt hd
  have hne : digitBytes (padded 2 exponent.natAbs) ≠ [] := by simp [digitBytes, padded_ne_nil]
  have hsign := scanSign_padded rest exponent.natAbs plus (decide (exponent < 0))
  obtain ⟨htake, hdrop⟩ := takeWhile_append hdigits.1 hr
  simp only [decide_eq_true_eq] at hsign
  rw [List.append_assoc] at hsign
  simp only [DecimalNumeral.exponentText, List.cons_append, List.append_assoc, scanExponent, true_or, if_true, hsign, htake,
    hdrop, hne, if_false, hdigits.2, digitsValue_padded]
  congr 2
  split_ifs with h
  · simp only [decide_eq_true_eq] at h
    congr 1
    omega
  · simp only [decide_eq_true_eq] at h
    congr 1
    omega

private theorem scanExponent_none (h : EndsWord rest) : scanExponent rest = some (none, rest) := by
  cases rest with
  | nil => rfl
  | cons b rest =>
    have hb : ¬ (b = 0x65 ∨ b = 0x45) := by
      rintro (rfl | rfl) <;> exact absurd h (by simp [EndsWord, isWord, isLetter])
    rw [scanExponent, if_neg hb]

section Tail
variable (plus : Bool) (exponent : Option ℤ)

private theorem exponentTail (hr : EndsWord rest) :
    scanExponent (exponent.elim [] (DecimalNumeral.exponentText plus) ++ rest) = some (exponent, rest) ∧
      ∀ b, (exponent.elim [] (DecimalNumeral.exponentText plus) ++ rest).head? = some b → isDigit b = false ∧ b ≠ 0x2e := by
  cases exponent with
  | none =>
    refine ⟨scanExponent_none hr, fun b hb => ?_⟩
    have hb' : rest.head? = some b := hb
    have := endsWord_not_digit hr
    simp only [EndsWord, hb', Option.any_some, Bool.or_eq_false_iff, decide_eq_false_iff_not] at hr this
    exact ⟨this, hr.2⟩
  | some e =>
    refine ⟨scanExponent_text plus e (endsWord_not_digit hr), fun b hb => ?_⟩
    cases hb
    decide

private theorem fractionTail (fraction : List Nat) (hf : ∀ d ∈ fraction, d < 10) (hr : EndsWord rest) :
    scanFraction ((if fraction.isEmpty then [] else 0x2e :: digitBytes fraction) ++
        (exponent.elim [] (DecimalNumeral.exponentText plus) ++ rest)) =
      (digitBytes fraction, exponent.elim [] (DecimalNumeral.exponentText plus) ++ rest) := by
  obtain ⟨-, hhead⟩ := exponentTail plus exponent hr
  revert hhead
  generalize exponent.elim [] (DecimalNumeral.exponentText plus) ++ rest = tail
  intro hhead
  have hdigit : tail.head?.any isDigit = false := by
    cases hb : tail.head? with
    | none => rfl
    | some b => exact (hhead b hb).1
  cases fraction with
  | nil =>
    cases tail with
    | nil => rfl
    | cons b tail =>
      have hb := (hhead b rfl).2
      simp [scanFraction, digitBytes, hb]
  | cons d ds =>
    obtain ⟨htake, hdrop⟩ := takeWhile_append (digitBytes_digits hf).1 hdigit
    simp only [List.isEmpty_cons, Bool.false_eq_true, if_false, List.cons_append, scanFraction, if_true, htake, hdrop]

end Tail

/-- A numeral is read as what it says. -/
theorem nextToken_numeral {n : DecimalNumeral} (hn : n.Wellformed) (plus : Bool) (hr : EndsWord rest) :
    nextToken (n.text plus ++ rest) = some (.numeral n, rest) := by
  have hwhole := digitBytes_digits hn.whole_lt
  obtain ⟨d, ds, hds⟩ := List.exists_cons_of_ne_nil hn.whole_ne_nil
  obtain ⟨hexponent, hhead⟩ := exponentTail plus n.exponent hr
  have hfraction := fractionTail plus n.exponent n.fraction hn.fraction_lt hr
  have htail : ((if n.fraction.isEmpty then [] else 0x2e :: digitBytes n.fraction) ++
      (n.exponent.elim [] (DecimalNumeral.exponentText plus) ++ rest)).head?.any isDigit = false := by
    split_ifs
    · rw [List.nil_append]
      cases hb : (n.exponent.elim [] (DecimalNumeral.exponentText plus) ++ rest).head? with
      | none => rfl
      | some b => exact (hhead b hb).1
    · rfl
  obtain ⟨htake, hdrop⟩ := takeWhile_append hwhole.1 htail
  have hfirst : isDigit (digitByte d) = true := (digitByte_digit (hn.whole_lt d (by rw [hds]; exact List.mem_cons_self))).1
  obtain ⟨hletter, hspace⟩ := digit_not_letter hfirst
  have htext : n.text plus ++ rest = digitBytes n.whole ++ ((if n.fraction.isEmpty then [] else 0x2e :: digitBytes n.fraction) ++
      (n.exponent.elim [] (DecimalNumeral.exponentText plus) ++ rest)) := by
    simp only [DecimalNumeral.text, List.append_assoc]
  have hcons : digitBytes n.whole = digitByte d :: digitBytes ds := by rw [hds]; rfl
  have hscan : scanNumeral (n.text plus ++ rest) = some (n, rest) := by
    have hend : rest.head?.any (fun b => isWord b || b = 0x2e) = false := hr
    simp only [scanNumeral, htext, htake, hdrop, hfraction, hexponent, hend, Bool.false_eq_true, if_false, hwhole.2,
      (digitBytes_digits hn.fraction_lt).2]
  rw [htext, hcons, List.cons_append] at hscan ⊢
  simp only [nextToken, List.dropWhile_cons, hspace, Bool.false_eq_true, if_false, scanToken, hletter, hfirst, if_true, hscan,
    Option.map_some]

end Rules
end HyprShelld.Lua
