import HyprShelld.Component.StrictJson
import HyprShelld.Json.Binary64
import HyprShelld.Json.RenderText
import HyprShelld.Json.Integers
import HyprShelld.Json.ReadBack

/-! Values the strict reader returns are exactly those it reads back after they were written
in compact form with a line feed at the end. -/
namespace HyprShelld.Components
open Json

variable (number : NumberText)

/-- QJsonDocument's compact text of a value. -/
def compactJson (v : QJsonValue) : QByteArray := toUtf8 (render number.printDouble v)

/-- A finite number whose printed form can be compared with a lexeme. -/
def PersistableNumber (x : Double) : Prop :=
  ∃ q, x = .finite q ∧ IsBinary64 q ∧ normalizeJsonNumber (number.print q) ≠ none

instance : DecidablePred (PersistableNumber number)
  | .finite q => decidable_of_iff (IsBinary64 q ∧ normalizeJsonNumber (number.print q) ≠ none)
      ⟨fun h => ⟨q, rfl, h⟩, fun ⟨_, he, h⟩ => by cases he; exact h⟩
  | .infinity _ => isFalse (by rintro ⟨_, h, _⟩; cases h)
  | .nan => isFalse (by rintro ⟨_, h, _⟩; cases h)

abbrev Persistable : QJsonValue → Prop := Valid IsText (PersistableNumber number)

variable {number}

/-- Digits alone name a decimal that can be compared. -/
theorem normalizeJsonNumber_digits {s : QString} (h : s.all isDigit = true) (hl : s.length ≤ maximumInt) :
    normalizeJsonNumber s ≠ none := by
  have hne (c : Char) (hc : isDigit (unit c) = false) : ∀ u ∈ s, u ≠ unit c := by
    rintro u hu rfl
    have := List.all_eq_true.mp h _ hu
    rw [hc] at this
    cases this
  have hsign : s.head? ≠ some (unit '-') := by
    intro hs
    exact hne '-' (by decide) _ (List.mem_of_mem_head? hs) rfl
  have hexponent : exponentPosition s = none := by
    have he : s.findIdx? (· = unit 'e') = none := by simpa using hne 'e' (by decide)
    have hE : s.findIdx? (· = unit 'E') = none := by simpa using hne 'E' (by decide)
    rw [exponentPosition, he, hE]
  have hpoint : s.dropWhile (· ≠ unit '.') = [] := by
    rw [List.dropWhile_eq_nil_iff]
    simpa using hne '.' (by decide)
  have hbound : (((s.filter (· ≠ unit '.')).dropWhile (· = unit '0')).drop 1).reverse.length ≤ s.length := by
    rw [List.length_reverse, List.length_drop]
    have h1 := List.length_dropWhile_le (· = unit '0') (s.filter (· ≠ unit '.'))
    have h2 := List.length_filter_le (· ≠ unit '.') s
    omega
  have htrailing := ((List.takeWhile_sublist (l := (((s.filter (· ≠ unit '.')).dropWhile (· = unit '0')).drop 1).reverse)
    (· = unit '0')).length_le).trans (hbound.trans hl)
  simp only [normalizeJsonNumber, hsign, decide_false, if_false, hexponent, hpoint, List.filter_nil,
    List.length_nil]
  split_ifs with hdigits
  · simp
  · simp only [maximumInt] at htrailing
    simp only [maximumInt64, minimumInt64, Option.bind_eq_bind, Option.bind_some, Nat.cast_zero]
    rw [if_neg (by norm_num), if_neg (by omega)]
    simp

theorem persistableNumber_natCast (hplain : number.PlainIntegers) {n : Nat} (hn : n < 2 ^ 53) :
    PersistableNumber number (.finite n) := by
  refine ⟨n, rfl, binary64_small (z := n) (by simpa using hn), ?_⟩
  rw [hplain n hn]
  apply normalizeJsonNumber_digits (decimal_digits n)
  have := decimal_length (n := n) (k := 16) (by norm_num) (by omega)
  exact this.trans (by norm_num [maximumInt])

theorem strictNumber_ok {lexeme : QString} {q : ℚ} (h : strictNumber number lexeme = .ok q) :
    PersistableNumber number (.finite q) := by
  unfold strictNumber at h
  split at h
  · rename_i r hr
    simp only [] at h
    split_ifs at h with hn
    cases h
    push Not at hn
    exact ⟨q, rfl, number.read_binary64 _ _ hr, hn.2.1⟩
  all_goals cases h

theorem strictNumber_print {q : ℚ} (hq : IsBinary64 q) (hn : normalizeJsonNumber (number.print q) ≠ none) :
    strictNumber number (number.print q) = .ok q := by
  simp [strictNumber, number.read_print q hq, hn]

private theorem persistable_of_produced {limits : StrictJsonLimits} {v : QJsonValue}
    (h : Produced (strictReader number limits) v) : Persistable number v := by
  refine h.mono (fun s hs => hs.1) ?_
  rintro _ ⟨q, lexeme, rfl, hq⟩
  exact strictNumber_ok hq

private theorem readable_of_persistable {limits : StrictJsonLimits} {v : QJsonValue} (h : Persistable number v) :
    Readable (strictReader number limits) number.printDouble v := by
  refine h.mono (fun s hs => ⟨hs, fun _ => rfl⟩) ?_
  rintro _ ⟨q, rfl, hq, hn⟩
  exact ⟨q, rfl, number.print_lexeme q hq, strictNumber_print hq hn⟩

theorem isText_persistable {v : QJsonValue} (h : Persistable number v) :
    IsText (render number.printDouble v) := by
  apply isText_render ?_ h
  rintro _ ⟨q, rfl, hq, _⟩
  exact isText_lexeme (number.print_lexeme q hq)

/-- What the strict reader returns can be written and read again, and respects its depth. -/
theorem parseStrictJsonObject_sound {bytes : QByteArray} {limits : StrictJsonLimits} {o : QJsonObject}
    (h : (parseStrictJsonObject number bytes limits).value = some o) :
    Persistable number (.object o) ∧ (nesting (.object o) : Int) ≤ limits.maximumDepth := by
  unfold parseStrictJsonObject at h
  simp only [] at h
  split_ifs at h
  split at h
  · cases h
  · split at h
    · rename_i text _ o' ho
      cases h
      obtain ⟨hp, hd, _⟩ := readDocument_sound _ ho
      exact ⟨persistable_of_produced hp, hd⟩
    · cases h

/-- What the strict reader returns was within its size. -/
theorem parseStrictJsonObject_length {bytes : QByteArray} {limits : StrictJsonLimits} {o : QJsonObject}
    (h : (parseStrictJsonObject number bytes limits).value = some o) : (bytes.length : Int) ≤ limits.maximumBytes := by
  unfold parseStrictJsonObject at h
  simp only [] at h
  split_ifs at h with hlimits hlength
  exact not_lt.mp hlength

/-- A persistable object within the limits is read back from its durable form. -/
theorem parseStrictJsonObject_compactJson (limits : StrictJsonLimits) {o : QJsonObject}
    (ho : Persistable number (.object o)) (hd : (nesting (.object o) : Int) ≤ limits.maximumDepth)
    (hb : ((compactJson number (.object o) ++ [0x0a]).length : Int) ≤ limits.maximumBytes) :
    parseStrictJsonObject number (compactJson number (.object o) ++ [0x0a]) limits = ⟨some o, []⟩ := by
  have htext : compactJson number (.object o) ++ [0x0a] =
      toUtf8 (render number.printDouble (.object o) ++ qstr "\n") := by
    rw [toUtf8_append (isText_persistable ho)]
    rfl
  have hall : IsText (render number.printDouble (.object o) ++ qstr "\n") :=
    (isText_persistable ho).append (isText_qstr _)
  have hdecode : decodeUtf8 (compactJson number (.object o) ++ [0x0a]) =
      some (render number.printDouble (.object o) ++ qstr "\n") := by
    rw [htext]
    apply decodeUtf8_toUtf8 hall
    simp [render, unit]
  have hread : readDocument (strictReader number limits)
      (render number.printDouble (.object o) ++ qstr "\n") = .ok o := by
    apply readDocument_render _ _ o _ ?_ (readable_of_persistable ho) hd
    · intro m hm
      cases hm
    · have h : (qstr "\n").all Cursor.isWhitespace = true := by decide
      exact fun u hu => List.all_eq_true.mp h u hu
  have hdepth : ¬ limits.maximumDepth ≤ 0 := by
    simp only [nesting] at hd
    push_cast at hd
    omega
  have hbytes : ¬ limits.maximumBytes ≤ 0 := by
    simp only [List.length_append, List.length_singleton] at hb
    push_cast at hb
    omega
  unfold parseStrictJsonObject
  rw [if_neg (by simp [hdepth, hbytes]), if_neg (by omega), hdecode]
  simp only []
  rw [hread]

/-- A number that a QJsonValue made of a finite one holds. -/
def StoredNumber (x : Double) : Prop := ∃ q, x = .finite q ∧ IsBinary64 q

instance : DecidablePred StoredNumber
  | .finite q => decidable_of_iff (IsBinary64 q) ⟨fun h => ⟨q, rfl, h⟩, fun ⟨_, he, h⟩ => by cases he; exact h⟩
  | .infinity _ => isFalse (by rintro ⟨_, h, _⟩; cases h)
  | .nan => isFalse (by rintro ⟨_, h, _⟩; cases h)

/-- A value with any strings, lone surrogates among them. -/
abbrev Stored : QJsonValue → Prop := Valid (fun _ => True) StoredNumber

theorem Stored.of_persistable {v : QJsonValue} (h : Persistable number v) : Stored v :=
  h.mono (fun _ _ => trivial) fun _ ⟨q, hx, hq, _⟩ => ⟨q, hx, hq⟩

/-- If the strict reader accepts what was written, it is what it returns. -/
theorem parseStrictJsonObject_written {limits : StrictJsonLimits} {o out : QJsonObject} (ho : Stored (.object o))
    (h : (parseStrictJsonObject number (compactJson number (.object o) ++ [0x0a]) limits).value = some out) : out = o := by
  have hlexeme (x : Double) (hx : StoredNumber x) : IsText (number.printDouble x) := by
    obtain ⟨q, rfl, hq⟩ := hx
    exact isText_lexeme (number.print_lexeme q hq)
  have htext := isText_render hlexeme ho
  have hbytes : compactJson number (.object o) ++ [0x0a] = toUtf8 (render number.printDouble (.object o) ++ qstr "\n") := by
    rw [toUtf8_append htext]
    rfl
  have hdecode : decodeUtf8 (compactJson number (.object o) ++ [0x0a]) =
      some (render number.printDouble (.object o) ++ qstr "\n") := by
    rw [hbytes]
    apply decodeUtf8_toUtf8 (htext.append (isText_qstr _))
    simp [render, unit]
  have hwritten : Written (strictReader number limits) number.printDouble (.object o) := by
    refine ho.mono (fun _ => id) ?_
    rintro _ ⟨q, rfl, hq⟩
    refine ⟨q, rfl, number.print_lexeme q hq, fun r hr => ?_⟩
    rw [show (strictReader number limits).number = strictNumber number from rfl] at hr
    unfold strictNumber at hr
    rw [NumberText.printDouble, number.read_print q hq] at hr
    dsimp only at hr
    split_ifs at hr
    exact (Except.ok.inj hr).symm
  unfold parseStrictJsonObject at h
  dsimp only at h
  split_ifs at h
  rw [hdecode] at h
  dsimp only at h
  split at h
  · rename_i o' hread
    obtain rfl := Option.some_inj.mp h
    exact readDocument_written _ _ hwritten hread
  · cases h

/-- A document is refused with an error. -/
theorem parseStrictJsonObject_errors {bytes : QByteArray} {limits : StrictJsonLimits}
    (h : (parseStrictJsonObject number bytes limits).value = none) :
    (parseStrictJsonObject number bytes limits).errors ≠ [] := by
  revert h
  unfold parseStrictJsonObject
  simp only []
  split_ifs
  · simp
  · simp
  · split
    · simp
    · split <;> simp

end HyprShelld.Components
