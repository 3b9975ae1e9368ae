import HyprShelld.Json.Reader
import HyprShelld.Json.Render
import Mathlib.Data.List.TakeWhile
import HyprShelld.Json.Limits

/-! The reader inverts the renderer: what a writer emits within a dialect's limits
is read back as the value written, and nothing after it is touched. -/
namespace HyprShelld.Json

variable {ε : Type} (d : Dialect ε) (number : Double → QString)

/-- A string the reader can meet in canonical text and accept. -/
def ReadableText (s : QString) : Prop := IsText s ∧ ∀ path, d.checkText s path = .ok ()

/-- A number whose text the dialect reads back. -/
def ReadableNumber (x : Double) : Prop :=
  ∃ q, x = .finite q ∧ IsNumberLexeme (number x) ∧ d.number (number x) = .ok q

/-- Values whose strings and numbers the dialect reads back and whose keys are sorted. -/
abbrev Readable : QJsonValue → Prop := Valid (ReadableText d) (ReadableNumber d number)
abbrev ReadableItems : List QJsonValue → Prop := ValidItems (ReadableText d) (ReadableNumber d number)

section Strings

private theorem hexValue_lowerHex : ∀ n < 16, hexValue (lowerHex n) = some n := by decide

theorem readHexCodeUnit_lowerHex (u : UInt16) (position : Nat) :
    readHexCodeUnit (lowerHex (u.toNat / 0x1000)) (lowerHex (u.toNat / 0x100 % 0x10))
      (lowerHex (u.toNat / 0x10 % 0x10)) (lowerHex (u.toNat % 0x10)) position = .ok u := by
  have hu := u.toNat_lt
  have h1 := hexValue_lowerHex (u.toNat / 0x1000) (by omega)
  have h2 := hexValue_lowerHex (u.toNat / 0x100 % 0x10) (by omega)
  have h3 := hexValue_lowerHex (u.toNat / 0x10 % 0x10) (by omega)
  have h4 := hexValue_lowerHex (u.toNat % 0x10) (by omega)
  have hv : (((0 * 16 + u.toNat / 0x1000) * 16 + u.toNat / 0x100 % 0x10) * 16 +
      u.toNat / 0x10 % 0x10) * 16 + u.toNat % 0x10 = u.toNat := by omega
  simp only [readHexCodeUnit, hexDigits, h1, h2, h3, h4, hv, Except.map, UInt16.ofNat_toNat]

theorem single_escape (path : QString) (u : UInt16) (rest value : QString) (position : Nat)
    (hh : isHighSurrogate u = false) (hl : isLowSurrogate u = false) :
    readStringBody d path (escapeUnit u ++ rest) position value =
      readStringBody d path rest (position + (escapeUnit u).length) (value ++ [u]) := by
  have simpleCase (e w : UInt16) (he : simpleEscape e = some w) :
      readStringBody d path ([unit '\\', e] ++ rest) position value =
        readStringBody d path rest (position + 2) (value ++ [w]) := by
    rw [List.cons_append, List.singleton_append, readStringBody.eq_def]
    simp [he, unit]
  unfold escapeUnit
  split_ifs with h1 h2 h3 h4 h5 h6 h7 h8
  · subst h1; exact simpleCase _ _ (by decide)
  · subst h2; exact simpleCase _ _ (by decide)
  · subst h3; exact simpleCase _ _ (by decide)
  · subst h4; exact simpleCase _ _ (by decide)
  · subst h5; exact simpleCase _ _ (by decide)
  · subst h6; exact simpleCase _ _ (by decide)
  · subst h7; exact simpleCase _ _ (by decide)
  · have hx := readHexCodeUnit_lowerHex u (position + 2)
    have hs : simpleEscape (unit 'u') = none := by decide
    simp only [unicodeEscape, List.cons_append, List.nil_append]
    rw [readStringBody.eq_def]
    simp only [hx, hs, hh, hl, List.length_cons, List.length_nil]
    simp [unit]
  · rw [List.singleton_append, readStringBody.eq_def]
    simp [h6, h7, h8, hh, hl]

theorem pair_escape (path : QString) (u v : UInt16) (rest value : QString) (position : Nat)
    (hu : isHighSurrogate u = true) (hv : isLowSurrogate v = true) :
    readStringBody d path (u :: v :: rest) position value =
      readStringBody d path rest (position + 2) (value ++ [u, v]) := by
  have hr := hu
  simp only [isHighSurrogate, Bool.and_eq_true, decide_eq_true_eq] at hr
  have h1 : u ≠ unit '"' := by rintro rfl; simp [unit] at hr
  have h2 : u ≠ unit '\\' := by rintro rfl; simp [unit] at hr
  have h3 : ¬ u.toNat < 0x20 := by omega
  rw [readStringBody.eq_def]
  simp [h1, h2, h3, hu, hv]

private theorem readStringBody_escape (path s rest value : QString) (position : Nat) (hs : IsText s) :
    readStringBody d path (escape s ++ unit '"' :: rest) position value =
      (d.checkText (value ++ s) path).map fun _ =>
        (value ++ s, rest, position + (escape s).length + 1) := by
  induction s using scalars.induct generalizing value position with
  | case1 =>
    rw [escape, List.nil_append, List.append_nil, readStringBody.eq_def]
    cases hc : d.checkText value path <;> simp [hc, Except.map, bind, Except.bind, pure, Except.pure]
  | case2 u hu => simp [isText_iff, scalars, hu] at hs
  | case3 u hu v s hv ih =>
    rw [escape_pair s hu hv, List.cons_append, List.cons_append, pair_escape d path u v _ _ _ hu hv,
      ih _ _ ((isText_cons_pair hu hv).mp hs)]
    simp only [List.append_assoc, List.cons_append, List.nil_append, List.length_cons]
    congr 1
    funext _
    simp only [Prod.mk.injEq, true_and]
    omega
  | case4 u hu v s hv => simp [isText_iff, scalars, hu, hv] at hs
  | case5 u s hu hl =>
    rw [isText_iff, scalars.eq_def] at hs
    simp [hu, hl] at hs
  | case6 u s hu hl ih =>
    have hu := Bool.eq_false_iff.mpr hu
    have hl := Bool.eq_false_iff.mpr hl
    rw [escape_single s hu hl, List.append_assoc, single_escape d path u _ _ _ hu hl,
      ih _ _ ((isText_cons_single hu hl).mp hs)]
    simp only [List.append_assoc, List.cons_append, List.nil_append, List.length_append]
    congr 1
    funext _
    simp only [Prod.mk.injEq, true_and]
    omega

theorem readString_render (path s rest : QString) (position count : Nat) (hs : ReadableText d s) :
    readString d path ⟨renderString s ++ rest, position, count⟩ =
      .ok (s, ⟨rest, position + (renderString s).length, count⟩) := by
  have h := readStringBody_escape d path s rest [] (position + 1) hs.1
  rw [List.nil_append, hs.2 path] at h
  simp only [readString, renderString, List.cons_append, List.append_assoc, List.drop_succ_cons,
    List.drop_zero, List.nil_append, h, List.length_cons, List.length_append, List.length_nil]
  simp only [Except.map, bind, Except.bind, pure, Except.pure]
  congr 3
  omega

end Strings

section Values

theorem skip_none {c : Cursor} (h : ∀ u, c.rest.head? = some u → Cursor.isWhitespace u = false) :
    c.skipWhitespace = c := by
  obtain ⟨rest, position, count⟩ := c
  cases rest with
  | nil => rfl
  | cons u rest =>
    have hu : Cursor.isWhitespace u = false := h u rfl
    simp [Cursor.skipWhitespace, hu]

theorem lexeme_head {l : QString} (h : IsNumberLexeme l) :
    ∃ u t, l = u :: t ∧ (u = unit '-' ∨ isDigit u = true) := by
  obtain ⟨sign, int, frac, exp, rfl, hs, hi, _, _⟩ := h
  rcases hs with rfl | rfl
  · rcases hi with rfl | ⟨u, ds, rfl, hu, _⟩
    · exact ⟨_, _, rfl, .inr rfl⟩
    · refine ⟨_, _, rfl, .inr ?_⟩
      simp only [isNonzeroDigit, isDigit, Bool.and_eq_true, decide_eq_true_eq] at hu ⊢
      omega
  · exact ⟨_, _, rfl, .inl rfl⟩

/-- What a value's text may start with. -/
theorem render_head {text : QString → Prop} {num : Double → Prop} (hnum : ∀ x, num x → IsNumberLexeme (number x))
    {v : QJsonValue} (h : Valid text num v) :
    ∃ u t, render number v = u :: t ∧ Cursor.isWhitespace u = false ∧ u ≠ unit ']' := by
  have fixed (u : UInt16) (t : QString) (hw : Cursor.isWhitespace u = false) (hb : u ≠ unit ']') :
      ∃ a b, u :: t = a :: b ∧ Cursor.isWhitespace a = false ∧ a ≠ unit ']' := ⟨u, t, rfl, hw, hb⟩
  cases v with
  | undefined => exact h.elim
  | null => exact fixed _ _ (by decide) (by decide)
  | bool b => cases b <;> exact fixed _ _ (by decide) (by decide)
  | double x =>
    obtain ⟨u, t, he, hu⟩ := lexeme_head (hnum x h)
    refine ⟨u, t, by rw [render, he], ?_, ?_⟩
    · rcases hu with rfl | hu
      · decide
      · simp only [Cursor.isWhitespace, Bool.or_eq_false_iff, decide_eq_false_iff_not]
        refine ⟨⟨⟨?_, ?_⟩, ?_⟩, ?_⟩ <;> rintro rfl <;> simp [isDigit] at hu
    · rcases hu with rfl | hu
      · decide
      · rintro rfl
        simp [isDigit, unit] at hu
  | string s => exact fixed _ _ (by decide) (by decide)
  | array items => exact fixed _ _ (by decide) (by decide)
  | object entries => exact fixed _ _ (by decide) (by decide)

private theorem readable_lexeme (x : Double) (h : ReadableNumber d number x) : IsNumberLexeme (number x) := by
  obtain ⟨q, rfl, hl, -⟩ := h
  exact hl

private theorem skip_render {v : QJsonValue} (h : Readable d number v) (rest : QString)
    (position count : Nat) : Cursor.skipWhitespace ⟨render number v ++ rest, position, count⟩ =
      ⟨render number v ++ rest, position, count⟩ := by
  obtain ⟨u, t, he, hu, _⟩ := render_head number (readable_lexeme d number) h
  apply skip_none
  intro w hw
  rw [he] at hw
  cases hw
  exact hu

theorem skip_unit (u : UInt16) (hu : Cursor.isWhitespace u = false) (rest : QString)
    (position count : Nat) : Cursor.skipWhitespace ⟨u :: rest, position, count⟩ =
      ⟨u :: rest, position, count⟩ := by
  apply skip_none
  rintro w ⟨⟩
  exact hu

private theorem readNumber_render (path l rest : QString) (q : ℚ) (position count : Nat)
    (hl : IsNumberLexeme l) (hq : d.number l = .ok q) (hr : EndsNumber rest) :
    readNumber d path ⟨l ++ rest, position, count⟩ =
      .ok (.double (.finite q), ⟨rest, position + l.length, count⟩) := by
  simp [readNumber, scanNumber_lexeme hl hr, hq, Cursor.advance]

private theorem readLiteral_render (path l rest : QString) (v : QJsonValue) (position count : Nat) :
    readLiteral d path l v ⟨l ++ rest, position, count⟩ = .ok (v, ⟨rest, position + l.length, count⟩) := by
  simp [readLiteral, Cursor.advance]

theorem insert_last {o : QJsonObject} {k : QString} {v : QJsonValue} (hv : v ≠ .undefined)
    (h : ∀ e ∈ o, utf16Less e.1 k = true) : QJsonObject.insert o k v = o ++ [(k, v)] := by
  rw [QJsonObject.insert, if_neg hv]
  induction o with
  | nil => rfl
  | cons e o ih =>
    obtain ⟨l, w⟩ := e
    have hl : utf16Less l k = true := h (l, w) List.mem_cons_self
    have hn : ¬ k = l := (utf16Less_ne hl).symm
    have hk : ¬ utf16Less k l = true := fun hk => by
      simpa [utf16Less_irrefl] using utf16Less_trans hl hk
    rw [QJsonObject.put, if_neg hn, if_neg hk, ih fun e he => h e (List.mem_cons_of_mem _ he)]
    rfl

theorem contains_last {o : QJsonObject} {k : QString} (h : ∀ e ∈ o, utf16Less e.1 k = true) :
    QJsonObject.contains o k = false := by
  rw [QJsonObject.contains, Option.isSome_eq_false_iff, Option.isNone_iff_eq_none]
  apply List.lookup_eq_none_iff.mpr
  intro e he
  have hn := utf16Less_ne (h e he)
  simpa using hn.symm

theorem endsNumber_close (u : UInt16) (rest : QString)
    (h : isDigit u = false ∧ u ≠ unit '.' ∧ u ≠ unit 'e' ∧ u ≠ unit 'E') : EndsNumber (u :: rest) := h

theorem renderItems_cons (v : QJsonValue) (items : List QJsonValue) :
    ∃ tail, renderItems number (v :: items) = render number v ++ tail := by
  cases items with
  | nil => exact ⟨[], by rw [renderItems]⟩
  | cons w items => exact ⟨_, by rw [renderItems]⟩

theorem renderMembers_cons (k : QString) (v : QJsonValue) (entries : List (QString × QJsonValue)) :
    ∃ tail, renderMembers number ((k, v) :: entries) = renderString k ++ tail := by
  cases entries with
  | nil => exact ⟨_, by rw [renderMembers]⟩
  | cons e entries =>
    obtain ⟨l, w⟩ := e
    exact ⟨_, by rw [renderMembers]⟩

/-- One member up to its value, for a key after all those read so far. -/
private theorem readMembers_key (fuel : Nat) (path : QString) (depth : Nat) {acc : QJsonObject} {k : QString}
    (hk : ReadableText d k) (hlast : ∀ a ∈ acc, utf16Less a.1 k = true) {tail : QString} {position count : Nat} :
    readMembers d (fuel + 1) path depth acc ⟨renderString k ++ unit ':' :: tail, position, count⟩ =
      match readValue d fuel (childPath path k) (depth + 1)
        ⟨tail, position + (renderString k).length + 1, count⟩ with
      | .error e => .error e
      | .ok (v, c) =>
        let object := QJsonObject.insert acc k v
        let c := c.skipWhitespace
        if c.sees (unit '}') then .ok (object, c.advance 1)
        else if !c.sees (unit ',') then d.fail .objectSeparatorRequired path c.position
        else readMembers d fuel path depth object (c.advance 1) := by
  have hs := readString_render d path k (unit ':' :: tail) position count hk
  have hq : renderString k = unit '"' :: (renderString k).drop 1 := by
    rw [renderString]
    rfl
  rw [hq, List.cons_append] at hs
  rw [readMembers, hq, List.cons_append, skip_unit _ (by decide)]
  simp only []
  rw [Cursor.sees_cons, if_neg (by decide), hs, ← hq]
  simp only [bind, Except.bind]
  rw [contains_last hlast, if_neg Bool.false_ne_true, skip_unit _ (by decide), Cursor.sees_cons,
    if_neg (by decide)]
  simp only [Cursor.advance, List.drop_succ_cons, List.drop_zero]
  rcases readValue d fuel (childPath path k) (depth + 1) _ with _ | ⟨v, c⟩ <;> rfl

mutual
/-- A value is read back from its text and the cursor stops right after it. -/
theorem readValue_render : ∀ (v : QJsonValue) (fuel : Nat) (path : QString) (depth : Nat)
    (rest : QString) (position count : Nat), Readable d number v →
    3 * (render number v).length + 1 ≤ fuel → Fits d depth (nesting v) →
    Room d count (valueCount v) → EndsNumber rest →
    readValue d fuel path depth ⟨render number v ++ rest, position, count⟩ =
      .ok (v, ⟨rest, position + (render number v).length, counted d count (valueCount v)⟩)
  | v, 0, _, _, _, _, _, _, hf, _, _, _ => absurd hf (by omega)
  | .undefined, _ + 1, _, _, _, _, _, hv, _, _, _, _ => hv.elim
  | .null, fuel + 1, path, depth, rest, position, count, _, _, _, hc, _ => by
    have hl := readLiteral_render d path (qstr "null") rest .null position (counted d count 1)
    rw [readValue, countValue_room d path _ hc]
    exact hl
  | .bool true, fuel + 1, path, depth, rest, position, count, _, _, _, hc, _ => by
    have hl := readLiteral_render d path (qstr "true") rest (.bool true) position (counted d count 1)
    rw [readValue, countValue_room d path _ hc]
    exact hl
  | .bool false, fuel + 1, path, depth, rest, position, count, _, _, _, hc, _ => by
    have hl := readLiteral_render d path (qstr "false") rest (.bool false) position (counted d count 1)
    rw [readValue, countValue_room d path _ hc]
    exact hl
  | .string s, fuel + 1, path, depth, rest, position, count, hv, _, _, hc, _ => by
    have hs := readString_render d path s rest position (counted d count 1) hv
    rw [readValue, countValue_room d path _ hc]
    simp only [bind, Except.bind, render, renderString, List.cons_append] at hs ⊢
    rw [skip_unit _ (by decide)]
    simp [unit] at hs ⊢
    rw [hs]
    rfl
  | .double x, fuel + 1, path, depth, rest, position, count, hv, _, _, hc, hr => by
    have hv' := hv
    obtain ⟨q, rfl, hl, hq⟩ := hv
    obtain ⟨u, t, he, hu⟩ := lexeme_head hl
    have hn := readNumber_render d path (number (.finite q)) rest q position (counted d count 1) hl hq hr
    rw [readValue, countValue_room d path _ hc]
    simp only [bind, Except.bind]
    rw [skip_render d number hv' rest position (counted d count 1)]
    simp only [render] at hn ⊢
    rw [he, List.cons_append] at hn ⊢
    have hne (w : UInt16) (hw : isDigit w = false) (hm : w ≠ unit '-') : u ≠ w := by
      rintro rfl
      rcases hu with rfl | hu
      · exact hm rfl
      · rw [hu] at hw
        cases hw
    have hd : (u = unit '-' || isDigit u) = true := by simpa using hu
    simp only [hne (unit '{') (by decide) (by decide), hne (unit '[') (by decide) (by decide),
      hne (unit '"') (by decide) (by decide), hne (unit 't') (by decide) (by decide),
      hne (unit 'f') (by decide) (by decide), hne (unit 'n') (by decide) (by decide), hd, if_false, if_true]
    exact hn
  | .array items, fuel + 1, path, depth, rest, position, count, hv, hf, hd, hc, _ => by
    simp only [render, List.length_cons, List.length_append, List.length_nil] at hf
    rw [readValue, countValue_room d path _ (hc.mono d (by simp only [valueCount]; omega))]
    simp only [bind, Except.bind, render, List.cons_append, List.append_assoc, List.nil_append]
    rw [skip_unit _ (by decide)]
    have h := readArray_render items fuel path depth rest position (counted d count 1) hv (by omega)
      (by
        rcases hd with h | h
        · simp [nesting] at h
        · simp only [nesting] at h
          push_cast at h
          omega)
      (Room.after d hc)
    rw [counted_counted] at h
    simp only []
    rw [if_neg (by decide), if_pos trivial, h]
    simp only [pure, Except.pure, valueCount, List.length_cons, List.length_append, List.length_nil,
      Except.ok.injEq, Prod.mk.injEq, Cursor.mk.injEq, true_and, and_true]
    omega
  | .object entries, fuel + 1, path, depth, rest, position, count, hv, hf, hd, hc, _ => by
    simp only [render, List.length_cons, List.length_append, List.length_nil] at hf
    rw [readValue, countValue_room d path _ (hc.mono d (by simp only [valueCount]; omega))]
    simp only [bind, Except.bind, render, List.cons_append, List.append_assoc, List.nil_append]
    rw [skip_unit _ (by decide)]
    have h := readObject_render entries fuel path depth rest position (counted d count 1) hv (by omega)
      (by
        rcases hd with h | h
        · simp [nesting] at h
        · simp only [nesting] at h
          push_cast at h
          omega)
      (Room.after d hc)
    rw [counted_counted] at h
    simp only []
    rw [if_pos trivial, h]
    simp only [pure, Except.pure, valueCount, List.length_cons, List.length_append, List.length_nil,
      Except.ok.injEq, Prod.mk.injEq, Cursor.mk.injEq, true_and, and_true]
    omega
termination_by _ fuel => fuel

theorem readArray_render : ∀ (items : List QJsonValue) (fuel : Nat) (path : QString) (depth : Nat)
    (rest : QString) (position count : Nat), ReadableItems d number items →
    3 * (renderItems number items).length + 3 ≤ fuel →
    (depth + itemsNesting items : Int) ≤ d.maximumDepth → Room d count (itemsCount items) →
    readArray d fuel path depth ⟨unit '[' :: (renderItems number items ++ unit ']' :: rest), position, count⟩ =
      .ok (items, ⟨rest, position + (renderItems number items).length + 2,
        counted d count (itemsCount items)⟩)
  | _, 0, _, _, _, _, _, _, hf, _, _ => absurd hf (by omega)
  | [], fuel + 1, path, depth, rest, position, count, _, _, hd, _ => by
    have hdepth : ¬ d.maximumDepth < (depth : Int) := by simp only [itemsNesting] at hd; omega
    rw [readArray, if_neg hdepth]
    simp only [Cursor.advance, List.drop_succ_cons, List.drop_zero, renderItems, List.nil_append]
    rw [skip_unit _ (by decide)]
    rw [Cursor.sees_cons]
    simp [counted, itemsCount]
  | v :: items, fuel + 1, path, depth, rest, position, count, hv, hf, hd, hc => by
    have hdepth : ¬ d.maximumDepth < (depth : Int) := by omega
    obtain ⟨u, t, he, hu, hb⟩ := render_head number (readable_lexeme d number) hv.1
    have h := readElements_render v items fuel path depth [] rest (position + 1) count hv (by omega) hd hc
    rw [readArray, if_neg hdepth]
    simp only [Cursor.advance, List.drop_succ_cons, List.drop_zero]
    have hs : renderItems number (v :: items) = u :: (renderItems number (v :: items)).drop 1 := by
      obtain ⟨tail, htail⟩ := renderItems_cons number v items
      rw [htail, he]
      rfl
    rw [hs, List.cons_append] at h ⊢
    rw [skip_unit u hu, Cursor.sees_cons, beq_eq_false_iff_ne.mpr hb, if_neg Bool.false_ne_true, h]
    simp only [List.nil_append, Except.ok.injEq, Prod.mk.injEq, Cursor.mk.injEq, true_and, and_true]
    omega
termination_by _ fuel => fuel

theorem readElements_render : ∀ (v : QJsonValue) (items : List QJsonValue) (fuel : Nat) (path : QString)
    (depth : Nat) (acc : List QJsonValue) (rest : QString) (position count : Nat),
    ReadableItems d number (v :: items) → 3 * (renderItems number (v :: items)).length + 2 ≤ fuel →
    (depth + itemsNesting (v :: items) : Int) ≤ d.maximumDepth →
    Room d count (itemsCount (v :: items)) →
    readElements d fuel path depth acc
        ⟨renderItems number (v :: items) ++ unit ']' :: rest, position, count⟩ =
      .ok (acc ++ v :: items, ⟨rest, position + (renderItems number (v :: items)).length + 1,
        counted d count (itemsCount (v :: items))⟩)
  | _, _, 0, _, _, _, _, _, _, _, hf, _, _ => absurd hf (by omega)
  | v, [], fuel + 1, path, depth, acc, rest, position, count, hv, hf, hd, hc => by
    simp only [renderItems, List.append_nil, itemsNesting, itemsCount, Nat.add_zero] at hf hd hc ⊢
    have h := readValue_render v fuel (elementPath path acc.length) (depth + 1) (unit ']' :: rest)
      position count hv.1 (by omega) (Fits.inside d (by omega)) hc (endsNumber_close _ _ (by decide))
    rw [readElements, h]
    simp only [bind, Except.bind]
    rw [skip_unit _ (by decide), Cursor.sees_cons]
    simp [Cursor.advance]
  | v, w :: items, fuel + 1, path, depth, acc, rest, position, count, hv, hf, hd, hc => by
    have hr : renderItems number (v :: w :: items) =
        render number v ++ unit ',' :: renderItems number (w :: items) := by rw [renderItems]
    rw [hr] at hf ⊢
    simp only [List.length_append, List.length_cons] at hf
    have hc0 : itemsCount (v :: w :: items) = valueCount v + itemsCount (w :: items) := by rw [itemsCount]
    have hn0 : itemsNesting (v :: w :: items) = max (nesting v) (itemsNesting (w :: items)) := by
      rw [itemsNesting]
    rw [hc0] at hc ⊢
    rw [hn0] at hd
    have h := readValue_render v fuel (elementPath path acc.length) (depth + 1)
      (unit ',' :: (renderItems number (w :: items) ++ unit ']' :: rest)) position count hv.1 (by omega)
      (Fits.inside d (by push_cast at hd; omega)) (hc.mono d (by omega))
      (endsNumber_close _ _ (by decide))
    have ht := readElements_render w items fuel path depth (acc ++ [v]) rest
      (position + (render number v).length + 1) (counted d count (valueCount v)) hv.2 (by omega)
      (by push_cast at hd; omega) (Room.after d hc)
    rw [List.append_assoc, List.cons_append, readElements, h]
    simp only [bind, Except.bind]
    rw [skip_unit _ (by decide), Cursor.sees_cons, Cursor.sees_cons, if_neg (by decide),
      if_neg (by decide)]
    simp only [Cursor.advance, List.drop_succ_cons, List.drop_zero]
    rw [ht, counted_counted]
    simp only [List.append_assoc, List.cons_append, List.nil_append, List.length_append, List.length_cons,
      Except.ok.injEq, Prod.mk.injEq, Cursor.mk.injEq, true_and, and_true]
    omega
termination_by _ _ fuel => fuel

theorem readObject_render : ∀ (entries : List (QString × QJsonValue)) (fuel : Nat) (path : QString)
    (depth : Nat) (rest : QString) (position count : Nat), Readable d number (.object entries) →
    3 * (renderMembers number entries).length + 3 ≤ fuel →
    (depth + membersNesting entries : Int) ≤ d.maximumDepth → Room d count (membersCount entries) →
    readObject d fuel path depth
        ⟨unit '{' :: (renderMembers number entries ++ unit '}' :: rest), position, count⟩ =
      .ok (entries, ⟨rest, position + (renderMembers number entries).length + 2,
        counted d count (membersCount entries)⟩)
  | _, 0, _, _, _, _, _, _, hf, _, _ => absurd hf (by omega)
  | [], fuel + 1, path, depth, rest, position, count, _, _, hd, _ => by
    have hdepth : ¬ d.maximumDepth < (depth : Int) := by simp only [membersNesting] at hd; omega
    rw [readObject, if_neg hdepth]
    simp only [Cursor.advance, List.drop_succ_cons, List.drop_zero, renderMembers, List.nil_append]
    rw [skip_unit _ (by decide)]
    rw [Cursor.sees_cons]
    simp [counted, membersCount]
  | (k, v) :: entries, fuel + 1, path, depth, rest, position, count, hv, hf, hd, hc => by
    have hdepth : ¬ d.maximumDepth < (depth : Int) := by omega
    have h := readMembers_render k v entries fuel path depth [] rest (position + 1) count hv
      (by simp) (by omega) hd hc
    rw [readObject, if_neg hdepth]
    simp only [Cursor.advance, List.drop_succ_cons, List.drop_zero]
    have hs : renderMembers number ((k, v) :: entries) = unit '"' ::
        (renderMembers number ((k, v) :: entries)).drop 1 := by
      obtain ⟨tail, htail⟩ := renderMembers_cons number k v entries
      rw [htail, renderString]
      rfl
    rw [hs, List.cons_append] at h ⊢
    rw [skip_unit _ (by decide), Cursor.sees_cons, if_neg (by decide), h]
    simp only [List.nil_append, Except.ok.injEq, Prod.mk.injEq, Cursor.mk.injEq, true_and, and_true]
    omega
termination_by _ fuel => fuel

theorem readMembers_render : ∀ (k : QString) (v : QJsonValue) (entries : List (QString × QJsonValue))
    (fuel : Nat) (path : QString) (depth : Nat) (acc : QJsonObject) (rest : QString) (position count : Nat),
    Readable d number (.object ((k, v) :: entries)) →
    (∀ a ∈ acc, ∀ e ∈ (k, v) :: entries, utf16Less a.1 e.1 = true) →
    3 * (renderMembers number ((k, v) :: entries)).length + 1 ≤ fuel →
    (depth + membersNesting ((k, v) :: entries) : Int) ≤ d.maximumDepth →
    Room d count (membersCount ((k, v) :: entries)) →
    readMembers d fuel path depth acc
        ⟨renderMembers number ((k, v) :: entries) ++ unit '}' :: rest, position, count⟩ =
      .ok (acc ++ (k, v) :: entries,
        ⟨rest, position + (renderMembers number ((k, v) :: entries)).length + 1,
          counted d count (membersCount ((k, v) :: entries))⟩)
  | _, _, _, 0, _, _, _, _, _, _, _, _, hf, _, _ => absurd hf (by omega)
  | k, v, entries, fuel + 1, path, depth, acc, rest, position, count, hv, ha, hf, hd, hc => by
    obtain ⟨hsort, hk, hval, hrest⟩ := hv
    have hlast := fun a ha' => ha a ha' (k, v) List.mem_cons_self
    have hc0 : membersCount ((k, v) :: entries) = valueCount v + membersCount entries := by
      rw [membersCount]
    have hn0 : membersNesting ((k, v) :: entries) = max (nesting v) (membersNesting entries) := by
      rw [membersNesting]
    rw [hc0] at hc ⊢
    rw [hn0] at hd
    cases entries with
    | nil =>
      have hr : renderMembers number [(k, v)] = renderString k ++ unit ':' :: render number v := by
        rw [renderMembers]
        simp
      rw [hr] at hf ⊢
      simp only [List.length_append, List.length_cons] at hf
      have h := readValue_render v fuel (childPath path k) (depth + 1) (unit '}' :: rest)
        (position + (renderString k).length + 1) count hval (by omega)
        (Fits.inside d (by push_cast at hd; omega)) (hc.mono d (by omega)) (endsNumber_close _ _ (by decide))
      rw [List.append_assoc, List.cons_append, readMembers_key d fuel path depth hk hlast, h]
      simp only []
      rw [skip_unit _ (by decide), Cursor.sees_cons, if_pos (by decide),
        insert_last hval.ne_undefined hlast]
      simp only [Cursor.advance, List.drop_succ_cons, List.drop_zero, membersCount, Nat.add_zero,
        List.length_append, List.length_cons, Except.ok.injEq, Prod.mk.injEq, Cursor.mk.injEq, true_and, and_true]
      omega
    | cons e entries =>
      obtain ⟨l, w⟩ := e
      have hr : renderMembers number ((k, v) :: (l, w) :: entries) = renderString k ++ unit ':' ::
          (render number v ++ unit ',' :: renderMembers number ((l, w) :: entries)) := by
        rw [renderMembers]
      rw [hr] at hf ⊢
      simp only [List.length_append, List.length_cons] at hf
      have h := readValue_render v fuel (childPath path k) (depth + 1)
        (unit ',' :: (renderMembers number ((l, w) :: entries) ++ unit '}' :: rest))
        (position + (renderString k).length + 1) count hval (by omega)
        (Fits.inside d (by push_cast at hd; omega)) (hc.mono d (by omega)) (endsNumber_close _ _ (by decide))
      have hsorted := List.pairwise_cons.mp hsort
      have ht := readMembers_render l w entries fuel path depth (acc ++ [(k, v)]) rest
        (position + (renderString k).length + 1 + (render number v).length + 1)
        (counted d count (valueCount v)) ⟨hsorted.2, hrest⟩
        (by
          intro a ha' e he
          rcases List.mem_append.mp ha' with ha' | ha'
          · exact ha a ha' e (List.mem_cons_of_mem _ he)
          · cases List.mem_singleton.mp ha'
            exact hsorted.1 e he)
        (by omega) (by push_cast at hd; omega) (Room.after d hc)
      simp only [List.append_assoc, List.cons_append]
      rw [readMembers_key d fuel path depth hk hlast, h]
      simp only []
      rw [skip_unit _ (by decide), Cursor.sees_cons, Cursor.sees_cons, if_neg (by decide), if_neg (by decide),
        insert_last hval.ne_undefined hlast]
      simp only [Cursor.advance, List.drop_succ_cons, List.drop_zero]
      rw [ht, counted_counted]
      simp only [List.append_assoc, List.cons_append, List.nil_append, List.length_append, List.length_cons,
        Except.ok.injEq, Prod.mk.injEq, Cursor.mk.injEq, true_and, and_true]
      omega
termination_by _ _ _ fuel => fuel
end

/-- A rendered object is read back as a document, whatever whitespace follows it. -/
theorem readDocument_render (o : QJsonObject) (space : QString)
    (hspace : ∀ u ∈ space, Cursor.isWhitespace u = true) (ho : Readable d number (.object o))
    (hn : (nesting (.object o) : Int) ≤ d.maximumDepth) (hc : Room d 0 (valueCount (.object o))) :
    readDocument d (render number (.object o) ++ space) = .ok o := by
  have h := readObject_render d number o (3 * (render number (.object o) ++ space).length + 4)
    (qstr "$") 1 space 0 (counted d 0 1) ho
    (by simp only [render, List.length_append, List.length_cons]; omega)
    (by simp only [nesting] at hn; push_cast at hn ⊢; omega) (Room.after d hc)
  have hend : space.dropWhile Cursor.isWhitespace = [] := List.dropWhile_eq_nil_iff.mpr hspace
  unfold readDocument
  generalize 3 * (render number (.object o) ++ space).length + 4 = fuel at h ⊢
  simp only [render, List.cons_append, List.append_assoc, List.nil_append] at h ⊢
  rw [skip_unit _ (by decide), Cursor.sees_cons, if_neg (by decide),
    countValue_room d _ _ (hc.mono d (by simp only [valueCount]; omega))]
  simp only [bind, Except.bind]
  rw [h]
  simp only [Cursor.skipWhitespace, hend]
  rfl

end Values

end HyprShelld.Json
