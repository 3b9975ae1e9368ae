import HyprShelld.Text.Utf16
import Mathlib.Tactic.Linarith

/-! The JSON number grammar and the scanner both readers run over it. -/
namespace HyprShelld

def isDigit (u : UInt16) : Bool := 0x30 ≤ u.toNat && u.toNat ≤ 0x39
def isNonzeroDigit (u : UInt16) : Bool := 0x31 ≤ u.toNat && u.toNat ≤ 0x39

def startsWithDigit : QString → Bool
  | [] => false
  | u :: _ => isDigit u

def takeSign : QString → QString × QString
  | [] => ([], [])
  | u :: rest => if u = unit '+' || u = unit '-' then ([u], rest) else ([], u :: rest)

/-- Scanners return the lexeme and what follows it, or how many units were
consumed when the grammar was left. -/
def scanExponent (lexeme : QString) : QString → Except Nat (QString × QString)
  | [] => .ok (lexeme, [])
  | u :: rest =>
    if u = unit 'e' || u = unit 'E' then
      let (sign, rest) := takeSign rest
      if startsWithDigit rest then
        .ok (lexeme ++ u :: sign ++ rest.takeWhile isDigit, rest.dropWhile isDigit)
      else .error (lexeme.length + 1 + sign.length)
    else .ok (lexeme, u :: rest)

def scanFraction (lexeme : QString) : QString → Except Nat (QString × QString)
  | [] => .ok (lexeme, [])
  | u :: rest =>
    if u = unit '.' then
      if startsWithDigit rest then
        scanExponent (lexeme ++ u :: rest.takeWhile isDigit) (rest.dropWhile isDigit)
      else .error (lexeme.length + 1)
    else scanExponent lexeme (u :: rest)

def scanInteger (sign : QString) : QString → Except Nat (QString × QString)
  | [] => .error sign.length
  | u :: rest =>
    if u = unit '0' then
      if startsWithDigit rest then .error (sign.length + 1) else scanFraction (sign ++ [u]) rest
    else if isNonzeroDigit u then
      scanFraction (sign ++ u :: rest.takeWhile isDigit) (rest.dropWhile isDigit)
    else .error sign.length

def scanNumber : QString → Except Nat (QString × QString)
  | [] => .error 0
  | u :: rest => if u = unit '-' then scanInteger [u] rest else scanInteger [] (u :: rest)

/-- Digits, at least one of them. -/
def IsDigits (s : QString) : Prop := s ≠ [] ∧ s.all isDigit = true

def IsInteger (s : QString) : Prop :=
  s = [unit '0'] ∨ ∃ u rest, s = u :: rest ∧ isNonzeroDigit u = true ∧ rest.all isDigit = true

def IsFraction (s : QString) : Prop := s = [] ∨ ∃ ds, s = unit '.' :: ds ∧ IsDigits ds

def IsExponent (s : QString) : Prop :=
  s = [] ∨ ∃ e sign ds, s = e :: sign ++ ds ∧ (e = unit 'e' ∨ e = unit 'E') ∧
    (sign = [] ∨ sign = [unit '+'] ∨ sign = [unit '-']) ∧ IsDigits ds

/-- A whole number of the JSON grammar. -/
def IsNumberLexeme (s : QString) : Prop :=
  ∃ sign int frac exp, s = sign ++ int ++ frac ++ exp ∧ (sign = [] ∨ sign = [unit '-']) ∧
    IsInteger int ∧ IsFraction frac ∧ IsExponent exp

/-- What may follow a number: no unit that would continue it. -/
def EndsNumber : QString → Prop
  | [] => True
  | u :: _ => isDigit u = false ∧ u ≠ unit '.' ∧ u ≠ unit 'e' ∧ u ≠ unit 'E'

theorem takeWhile_digits {ds rest : QString} (hd : ds.all isDigit = true)
    (hr : startsWithDigit rest = false) :
    (ds ++ rest).takeWhile isDigit = ds ∧ (ds ++ rest).dropWhile isDigit = rest := by
  induction ds with
  | nil =>
    cases rest with
    | nil => exact ⟨rfl, rfl⟩
    | cons u rest =>
      have hu : isDigit u = false := hr
      simp [hu]
  | cons d ds ih =>
    simp only [List.all_cons, Bool.and_eq_true] at hd
    obtain ⟨h1, h2⟩ := ih hd.2
    exact ⟨by simp [hd.1, h1], by simp [hd.1, h2]⟩

private theorem startsWithDigit_append {ds rest : QString} (hd : IsDigits ds) :
    startsWithDigit (ds ++ rest) = true := by
  obtain ⟨hne, hall⟩ := hd
  cases ds with
  | nil => exact absurd rfl hne
  | cons d ds =>
    simp only [List.all_cons, Bool.and_eq_true] at hall
    exact hall.1

private theorem ends_startsWithDigit {rest : QString} (h : EndsNumber rest) :
    startsWithDigit rest = false := by
  cases rest with
  | nil => rfl
  | cons u rest => exact h.1

private theorem takeSign_append {sign ds rest : QString}
    (hs : sign = [] ∨ sign = [unit '+'] ∨ sign = [unit '-']) (hd : IsDigits ds) :
    takeSign (sign ++ (ds ++ rest)) = (sign, ds ++ rest) := by
  rcases hs with rfl | rfl | rfl
  · cases ds with
    | nil => exact absurd rfl hd.1
    | cons d ds =>
      have h := hd.2
      simp only [List.all_cons, Bool.and_eq_true] at h
      have hp : d ≠ unit '+' := by rintro rfl; simp [isDigit, unit] at h
      have hm : d ≠ unit '-' := by rintro rfl; simp [isDigit, unit] at h
      simp [takeSign, hp, hm]
  · simp [takeSign]
  · simp [takeSign]

private theorem scanExponent_lexeme {exp rest : QString} (lexeme : QString) (he : IsExponent exp)
    (hr : EndsNumber rest) : scanExponent lexeme (exp ++ rest) = .ok (lexeme ++ exp, rest) := by
  rcases he with rfl | ⟨e, sign, ds, rfl, he, hs, hd⟩
  · cases rest with
    | nil => simp [scanExponent]
    | cons u rest => simp [scanExponent, hr.2.2.1, hr.2.2.2]
  · obtain ⟨h1, h2⟩ := takeWhile_digits hd.2 (ends_startsWithDigit hr)
    have hc : (e = unit 'e' || e = unit 'E') = true := by simpa using he
    simp only [List.cons_append, List.append_assoc, scanExponent, hc, if_true,
      takeSign_append hs hd, startsWithDigit_append hd, h1, h2]

private theorem scanFraction_lexeme {frac exp rest : QString} (lexeme : QString) (hf : IsFraction frac)
    (he : IsExponent exp) (hr : EndsNumber rest) :
    scanFraction lexeme (frac ++ (exp ++ rest)) = .ok (lexeme ++ frac ++ exp, rest) := by
  have hx := scanExponent_lexeme lexeme he hr
  rcases hf with rfl | ⟨ds, rfl, hd⟩
  · rw [List.nil_append, List.append_nil, ← hx]
    cases hs : exp ++ rest with
    | nil => rfl
    | cons u t =>
      have hu : u ≠ unit '.' := by
        rcases he with rfl | ⟨e, sign, ds, rfl, he, _⟩
        · rw [List.nil_append] at hs
          subst hs
          exact hr.2.1
        · rw [List.cons_append, List.cons_append, List.cons.injEq] at hs
          rw [← hs.1]
          rcases he with rfl | rfl <;> decide
      rw [scanFraction, if_neg hu]
  · have hst : startsWithDigit (exp ++ rest) = false := by
      rcases he with rfl | ⟨e, sign, ds', rfl, he, _⟩
      · exact ends_startsWithDigit hr
      · rcases he with rfl | rfl <;> rfl
    obtain ⟨h1, h2⟩ := takeWhile_digits hd.2 hst
    rw [List.cons_append, scanFraction, if_pos rfl, if_pos (startsWithDigit_append hd), h1, h2,
      scanExponent_lexeme _ he hr]

private theorem continues {frac exp rest : QString} (hf : IsFraction frac) (he : IsExponent exp)
    (hr : EndsNumber rest) : startsWithDigit (frac ++ (exp ++ rest)) = false := by
  rcases hf with rfl | ⟨ds, rfl, _⟩
  · rcases he with rfl | ⟨e, sign, ds, rfl, he, _⟩
    · exact ends_startsWithDigit hr
    · rcases he with rfl | rfl <;> rfl
  · rfl

private theorem scanInteger_lexeme {int frac exp rest : QString} (sign : QString) (hi : IsInteger int)
    (hf : IsFraction frac) (he : IsExponent exp) (hr : EndsNumber rest) :
    scanInteger sign (int ++ (frac ++ (exp ++ rest))) = .ok (sign ++ int ++ frac ++ exp, rest) := by
  have hc := continues hf he hr
  rcases hi with rfl | ⟨u, ds, rfl, hu, hd⟩
  · rw [List.singleton_append, scanInteger, if_pos rfl, hc, if_neg (by simp),
      scanFraction_lexeme _ hf he hr]
  · obtain ⟨h1, h2⟩ := takeWhile_digits hd hc
    have h0 : u ≠ unit '0' := by rintro rfl; simp [isNonzeroDigit, unit] at hu
    rw [List.cons_append, scanInteger, if_neg h0, if_pos hu, h1, h2, scanFraction_lexeme _ hf he hr]

/-- The scanner takes exactly one number off the front of a text. -/
theorem scanNumber_lexeme {l rest : QString} (hl : IsNumberLexeme l) (hr : EndsNumber rest) :
    scanNumber (l ++ rest) = .ok (l, rest) := by
  obtain ⟨sign, int, frac, exp, rfl, hs, hi, hf, he⟩ := hl
  have h := scanInteger_lexeme sign hi hf he hr
  simp only [List.append_assoc] at h ⊢
  rcases hs with rfl | rfl
  · rw [List.nil_append, List.nil_append] at *
    rcases hi with rfl | ⟨u, ds, rfl, hu, _⟩
    · exact h
    · have hm : u ≠ unit '-' := by rintro rfl; simp [isNonzeroDigit, unit] at hu
      rw [List.cons_append, scanNumber, if_neg hm]
      exact h
  · rw [List.singleton_append, scanNumber, if_pos rfl]
    exact h

private theorem scanExponent_eq {lexeme s l rest : QString} (h : scanExponent lexeme s = .ok (l, rest)) :
    lexeme ++ s = l ++ rest ∧ lexeme.length ≤ l.length := by
  cases s with
  | nil =>
    cases h
    exact ⟨rfl, le_rfl⟩
  | cons u s =>
    rw [scanExponent] at h
    split at h
    · rw [takeSign.eq_def] at h
      grind [List.takeWhile_append_dropWhile]
    · cases h
      exact ⟨rfl, le_rfl⟩

private theorem scanFraction_eq {lexeme s l rest : QString} (h : scanFraction lexeme s = .ok (l, rest)) :
    lexeme ++ s = l ++ rest ∧ lexeme.length ≤ l.length := by
  cases s with
  | nil =>
    cases h
    exact ⟨rfl, le_rfl⟩
  | cons u s =>
    rw [scanFraction] at h
    split_ifs at h
    · obtain ⟨h1, h2⟩ := scanExponent_eq h
      refine ⟨?_, ?_⟩
      · rw [← h1, List.append_assoc, List.cons_append, List.takeWhile_append_dropWhile]
      · rw [List.length_append] at h2
        omega
    · exact scanExponent_eq h

private theorem scanInteger_eq {sign s l rest : QString} (h : scanInteger sign s = .ok (l, rest)) :
    sign ++ s = l ++ rest ∧ sign.length < l.length := by
  cases s with
  | nil => simp [scanInteger] at h
  | cons u s =>
    rw [scanInteger] at h
    split_ifs at h
    · obtain ⟨h1, h2⟩ := scanFraction_eq h
      rw [List.length_append, List.length_singleton] at h2
      exact ⟨by rw [← h1]; simp, by omega⟩
    · obtain ⟨h1, h2⟩ := scanFraction_eq h
      rw [List.length_append, List.length_cons] at h2
      refine ⟨?_, by omega⟩
      rw [← h1, List.append_assoc, List.cons_append, List.takeWhile_append_dropWhile]

/-- A scanned number is a nonempty prefix of the text. -/
theorem scanNumber_eq {s l rest : QString} (h : scanNumber s = .ok (l, rest)) :
    s = l ++ rest ∧ l ≠ [] := by
  cases s with
  | nil => simp [scanNumber] at h
  | cons u s =>
    rw [scanNumber] at h
    split_ifs at h
    all_goals
      obtain ⟨h1, h2⟩ := scanInteger_eq h
      exact ⟨h1, List.ne_nil_of_length_pos (by omega)⟩

end HyprShelld
