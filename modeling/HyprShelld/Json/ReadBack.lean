import HyprShelld.Json.RoundTrip
import HyprShelld.Json.Sound

/-! What the reader makes of a text that was written: the value written, or an error where the value
has lone surrogates, is nested too deeply or is one too many. -/
namespace HyprShelld.Json

variable {ε : Type} (d : Dialect ε)

section Strings

/-- No escaped low surrogate comes first. -/
def NoLowEscape (s : QString) : Prop :=
  (∀ tail, s ≠ unit '\\' :: unit 'u' :: tail) ∨ ∃ w tail, s = unicodeEscape w ++ tail ∧ isLowSurrogate w = false

theorem noLowEscape_head {u : UInt16} (hu : u ≠ unit '\\') (s : QString) : NoLowEscape (u :: s) := by
  refine .inl fun tail h => hu ?_
  rw [List.cons.injEq] at h
  exact h.1

theorem noLowEscape_second {u : UInt16} (hu : u ≠ unit 'u') (s : QString) : NoLowEscape (unit '\\' :: u :: s) := by
  refine .inl fun tail h => hu ?_
  rw [List.cons.injEq, List.cons.injEq] at h
  exact h.2.1

theorem high_ne_backslash {u : UInt16} (hu : isHighSurrogate u = true) : u ≠ unit '\\' := by
  rintro rfl
  simp [isHighSurrogate, unit] at hu

theorem noLowEscape_escapeUnit (u : UInt16) (hu : isLowSurrogate u = false) (s : QString) : NoLowEscape (escapeUnit u ++ s) := by
  unfold escapeUnit
  split_ifs with h1 h2 h3 h4 h5 h6 h7 h8
  case pos => exact noLowEscape_second (by decide) s
  case pos => exact noLowEscape_second (by decide) s
  case pos => exact noLowEscape_second (by decide) s
  case pos => exact noLowEscape_second (by decide) s
  case pos => exact noLowEscape_second (by decide) s
  case pos => exact noLowEscape_second (by decide) s
  case pos => exact noLowEscape_second (by decide) s
  case pos => exact .inr ⟨u, s, rfl, hu⟩
  case neg => exact noLowEscape_head h7 s

theorem noLowEscape_escape {v : UInt16} (hv : isLowSurrogate v = false) (s rest : QString) :
    NoLowEscape (escape (v :: s) ++ rest) := by
  rw [escape.eq_def]
  dsimp only
  cases hhigh : isHighSurrogate v with
  | true =>
    rw [if_pos rfl]
    cases s with
    | nil => exact .inr ⟨v, rest, rfl, hv⟩
    | cons w tail =>
      dsimp only
      split_ifs
      · exact noLowEscape_head (high_ne_backslash hhigh) _
      · exact .inr ⟨v, escape (w :: tail) ++ rest, List.append_assoc _ _ _, hv⟩
  | false =>
    rw [if_neg Bool.false_ne_true, if_neg (by rw [hv]; exact Bool.false_ne_true), List.append_assoc]
    exact noLowEscape_escapeUnit v hv _

/-- An escaped high surrogate needs an escaped low one behind it. -/
theorem readStringBody_loneHigh {path more value : QString} {position : Nat} {u : UInt16} (hu : isHighSurrogate u = true)
    (hmore : NoLowEscape more) (r : QString × QString × Nat) :
    readStringBody d path (unicodeEscape u ++ more) position value ≠ .ok r := by
  have hx := readHexCodeUnit_lowerHex u (position + 2)
  have hs : simpleEscape (unit 'u') = none := by decide
  simp only [unicodeEscape, List.cons_append, List.nil_append]
  rw [readStringBody.eq_def]
  dsimp only
  rw [if_neg (by decide), if_neg (by decide), if_neg (by decide), hs]
  dsimp only
  rw [if_neg (by decide), hx]
  dsimp only
  rw [if_pos hu]
  rcases hmore with hno | ⟨w, tail, rfl, hw⟩
  · split
    · rename_i b c pair
      rw [if_neg]
      · exact fail_ne_ok d
      · rintro ⟨rfl, rfl⟩
        exact hno pair rfl
    · exact fail_ne_ok d
  · have hy := readHexCodeUnit_lowerHex w (position + 8)
    simp only [unicodeEscape, List.cons_append, List.nil_append]
    rw [if_pos ⟨trivial, trivial⟩, hy]
    dsimp only
    rw [hw, if_neg Bool.false_ne_true]
    exact fail_ne_ok d

theorem readStringBody_loneLow {path more value : QString} {position : Nat} {u : UInt16} (hu : isHighSurrogate u = false)
    (hl : isLowSurrogate u = true) (r : QString × QString × Nat) :
    readStringBody d path (unicodeEscape u ++ more) position value ≠ .ok r := by
  have hx := readHexCodeUnit_lowerHex u (position + 2)
  have hs : simpleEscape (unit 'u') = none := by decide
  simp only [unicodeEscape, List.cons_append, List.nil_append]
  rw [readStringBody.eq_def]
  dsimp only
  rw [if_neg (by decide), if_neg (by decide), if_neg (by decide), hs]
  dsimp only
  rw [if_neg (by decide), hx]
  dsimp only
  rw [hu, if_neg Bool.false_ne_true, if_pos hl]
  exact fail_ne_ok d

/-- A string is read as it was written. -/
theorem readStringBody_written {path s rest value : QString} {position : Nat} {r : QString × QString × Nat}
    (h : readStringBody d path (escape s ++ unit '"' :: rest) position value = .ok r) : r.1 = value ++ s ∧ r.2.1 = rest := by
  induction s using scalars.induct generalizing value position with
  | case1 =>
    rw [escape, List.nil_append, readStringBody.eq_def] at h
    dsimp only at h
    rw [if_pos rfl] at h
    obtain ⟨-, -, h⟩ := bind_ok_iff.mp h
    obtain rfl := pure_ok_iff.mp h
    exact ⟨(List.append_nil _).symm, rfl⟩
  | case2 u hu =>
    rw [escape.eq_def] at h
    dsimp only at h
    rw [if_pos hu] at h
    exact absurd h (readStringBody_loneHigh d hu (noLowEscape_head (by decide) _) r)
  | case3 u hu v s hv ih =>
    rw [escape_pair s hu hv, List.cons_append, List.cons_append, pair_escape d path u v _ _ _ hu hv] at h
    obtain ⟨hr, hrest⟩ := ih h
    exact ⟨by rw [hr]; simp, hrest⟩
  | case4 u hu v s hv =>
    rw [escape.eq_def] at h
    dsimp only at h
    rw [if_pos hu, if_neg hv, List.append_assoc] at h
    exact absurd h (readStringBody_loneHigh d hu (noLowEscape_escape (Bool.eq_false_iff.mpr hv) _ _) r)
  | case5 u s hu hl =>
    rw [escape.eq_def] at h
    dsimp only at h
    rw [if_neg hu, if_pos hl, List.append_assoc] at h
    exact absurd h (readStringBody_loneLow d (Bool.eq_false_iff.mpr hu) hl r)
  | case6 u s hu hl ih =>
    have hu := Bool.eq_false_iff.mpr hu
    have hl := Bool.eq_false_iff.mpr hl
    rw [escape_single s hu hl, List.append_assoc, single_escape d path u _ _ _ hu hl] at h
    obtain ⟨hr, hrest⟩ := ih h
    exact ⟨by rw [hr]; simp, hrest⟩

theorem readString_written {path s s' rest : QString} {position count : Nat} {c : Cursor}
    (h : readString d path ⟨renderString s ++ rest, position, count⟩ = .ok (s', c)) : s' = s ∧ c.rest = rest := by
  simp only [readString, renderString, List.cons_append, List.append_assoc, List.drop_succ_cons, List.drop_zero,
    List.nil_append] at h
  obtain ⟨r, hr, h⟩ := bind_ok_iff.mp h
  obtain ⟨hvalue, hrest⟩ := readStringBody_written d hr
  obtain ⟨rfl, rfl⟩ := Prod.mk.injEq _ _ _ _ ▸ pure_ok_iff.mp h
  exact ⟨hvalue, hrest⟩

end Strings

section Values
variable (number : Double → QString)

/-- A number whose text the dialect reads as that number, if at all. -/
def WrittenNumber (x : Double) : Prop :=
  ∃ q, x = .finite q ∧ IsNumberLexeme (number x) ∧ ∀ r, d.number (number x) = .ok r → r = q

/-- Values with any strings, whose keys are sorted. -/
abbrev Written : QJsonValue → Prop := Valid (fun _ => True) (WrittenNumber d number)
abbrev WrittenItems : List QJsonValue → Prop := ValidItems (fun _ => True) (WrittenNumber d number)

private theorem written_lexeme (x : Double) (h : WrittenNumber d number x) : IsNumberLexeme (number x) := by
  obtain ⟨q, rfl, hl, -⟩ := h
  exact hl

private theorem skip_written {v : QJsonValue} (h : Written d number v) (rest : QString) (position count : Nat) :
    Cursor.skipWhitespace ⟨render number v ++ rest, position, count⟩ = ⟨render number v ++ rest, position, count⟩ := by
  obtain ⟨u, t, he, hu, -⟩ := render_head number (written_lexeme d number) h
  refine skip_none fun w hw => ?_
  rw [he] at hw
  cases hw
  exact hu

private theorem readLiteral_written {path literal rest : QString} {v w : QJsonValue} {position count : Nat} {c : Cursor}
    (h : readLiteral d path literal v ⟨literal ++ rest, position, count⟩ = .ok (w, c)) : w = v ∧ c.rest = rest := by
  have hprefix : literal.isPrefixOf (literal ++ rest) = true := by simp
  unfold readLiteral at h
  rw [if_pos hprefix] at h
  cases h
  exact ⟨rfl, List.drop_left⟩

private theorem readNumber_written {path rest : QString} {x : Double} {w : QJsonValue} {position count : Nat} {c : Cursor}
    (hx : WrittenNumber d number x) (hr : EndsNumber rest)
    (h : readNumber d path ⟨number x ++ rest, position, count⟩ = .ok (w, c)) : w = .double x ∧ c.rest = rest := by
  obtain ⟨q, rfl, hl, hread⟩ := hx
  unfold readNumber at h
  dsimp only at h
  rw [scanNumber_lexeme hl hr] at h
  dsimp only at h
  cases hn : d.number (number (.finite q)) with
  | error f =>
    rw [hn] at h
    exact absurd h (fail_ne_ok d)
  | ok r =>
    rw [hn] at h
    simp only [Cursor.advance, List.drop_left, Except.ok.injEq, Prod.mk.injEq] at h
    obtain ⟨rfl, rfl⟩ := h
    exact ⟨by rw [hread r hn], rfl⟩

mutual
theorem readValue_written : ∀ (fuel : Nat) (v : QJsonValue) {path : QString} {depth : Nat} {rest : QString}
    {position count : Nat} {w : QJsonValue} {c : Cursor}, Written d number v → EndsNumber rest →
    readValue d fuel path depth ⟨render number v ++ rest, position, count⟩ = .ok (w, c) → w = v ∧ c.rest = rest
  | 0, _, _, _, _, _, _, _, _, _, _, h => by
    rw [readValue] at h
    exact absurd h (fail_ne_ok d)
  | fuel + 1, v, path, depth, rest, position, count, w, c, hv, hr, h => by
    rw [readValue] at h
    obtain ⟨c₀, hc₀, h⟩ := bind_ok_iff.mp h
    obtain ⟨rfl, -⟩ := countValue_sound d hc₀
    dsimp only at h
    rw [skip_written d number hv] at h
    cases v with
    | undefined => exact hv.elim
    | null => exact @readLiteral_written _ d path (qstr "null") rest .null w position (counted d count 1) c h
    | bool b =>
      cases b with
      | true => exact @readLiteral_written _ d path (qstr "true") rest (.bool true) w position (counted d count 1) c h
      | false => exact @readLiteral_written _ d path (qstr "false") rest (.bool false) w position (counted d count 1) c h
    | string s =>
      simp only [render, renderString, List.cons_append] at h
      rw [if_neg (by decide), if_neg (by decide), if_pos trivial, ← List.cons_append] at h
      obtain ⟨⟨s', c'⟩, hs, h⟩ := bind_ok_iff.mp h
      cases h
      obtain ⟨rfl, hrest⟩ := @readString_written _ d path s s' rest position (counted d count 1) c' hs
      exact ⟨rfl, hrest⟩
    | double x =>
      obtain ⟨u, t, he, hu⟩ := lexeme_head (written_lexeme d number x hv)
      have hne (w : UInt16) (hw : isDigit w = false) (hm : w ≠ unit '-') : u ≠ w := by
        rintro rfl
        rcases hu with rfl | hu
        · exact hm rfl
        · rw [hu] at hw
          cases hw
      have hd : (u = unit '-' || isDigit u) = true := by simpa using hu
      simp only [render] at h
      rw [he, List.cons_append] at h
      simp only [hne (unit '\x7b') (by decide) (by decide), hne (unit '[') (by decide) (by decide),
        hne (unit '"') (by decide) (by decide), hne (unit 't') (by decide) (by decide),
        hne (unit 'f') (by decide) (by decide), hne (unit 'n') (by decide) (by decide), hd, if_false, if_true] at h
      rw [← List.cons_append, ← he] at h
      exact readNumber_written d number hv hr h
    | array items =>
      simp only [render, List.cons_append, List.append_assoc, List.nil_append] at h
      rw [if_neg (by decide), if_pos trivial] at h
      obtain ⟨⟨items', c'⟩, hitems, h⟩ := bind_ok_iff.mp h
      cases h
      obtain ⟨rfl, hrest⟩ := readArray_written fuel items hv hitems
      exact ⟨rfl, hrest⟩
    | object entries =>
      simp only [render, List.cons_append, List.append_assoc, List.nil_append] at h
      rw [if_pos trivial] at h
      obtain ⟨⟨entries', c'⟩, hentries, h⟩ := bind_ok_iff.mp h
      cases h
      obtain ⟨rfl, hrest⟩ := readObject_written fuel entries hv hentries
      exact ⟨rfl, hrest⟩
termination_by fuel => fuel

theorem readArray_written : ∀ (fuel : Nat) (items : List QJsonValue) {path : QString} {depth : Nat} {rest : QString}
    {position count : Nat} {out : QJsonArray} {c : Cursor}, WrittenItems d number items →
    readArray d fuel path depth ⟨unit '[' :: (renderItems number items ++ unit ']' :: rest), position, count⟩ =
      .ok (out, c) → out = items ∧ c.rest = rest
  | 0, _, _, _, _, _, _, _, _, _, h => by
    rw [readArray] at h
    exact absurd h (fail_ne_ok d)
  | fuel + 1, items, path, depth, rest, position, count, out, c, hv, h => by
    rw [readArray] at h
    split_ifs at h with hdepth
    · exact absurd h (fail_ne_ok d)
    simp only [Cursor.advance, List.drop_succ_cons, List.drop_zero] at h
    cases items with
    | nil =>
      rw [renderItems, List.nil_append, skip_unit _ (by decide), Cursor.sees_cons, if_pos (by decide)] at h
      cases h
      exact ⟨rfl, rfl⟩
    | cons v items =>
      obtain ⟨u, t, he, hu, hb⟩ := render_head number (written_lexeme d number) hv.1
      have hs : renderItems number (v :: items) = u :: (renderItems number (v :: items)).drop 1 := by
        obtain ⟨tail, htail⟩ := renderItems_cons number v items
        rw [htail, he]
        rfl
      rw [hs, List.cons_append, skip_unit u hu, Cursor.sees_cons, beq_eq_false_iff_ne.mpr hb, if_neg Bool.false_ne_true,
        ← List.cons_append, ← hs] at h
      exact readElements_written fuel v items [] hv h
termination_by fuel => fuel

theorem readElements_written : ∀ (fuel : Nat) (v : QJsonValue) (items acc : List QJsonValue) {path : QString} {depth : Nat}
    {rest : QString} {position count : Nat} {out : QJsonArray} {c : Cursor}, WrittenItems d number (v :: items) →
    readElements d fuel path depth acc ⟨renderItems number (v :: items) ++ unit ']' :: rest, position, count⟩ =
      .ok (out, c) → out = acc ++ v :: items ∧ c.rest = rest
  | 0, _, _, _, _, _, _, _, _, _, _, _, h => by
    rw [readElements] at h
    exact absurd h (fail_ne_ok d)
  | fuel + 1, v, items, acc, path, depth, rest, position, count, out, c, hv, h => by
    rw [readElements] at h
    obtain ⟨⟨v', c'⟩, hvalue, h⟩ := bind_ok_iff.mp h
    dsimp only at h
    cases items with
    | nil =>
      simp only [renderItems, List.append_nil] at hvalue
      obtain ⟨rfl, hrest⟩ := readValue_written fuel v hv.1 (endsNumber_close _ _ (by decide)) hvalue
      obtain ⟨remaining, p, n⟩ := c'
      obtain rfl : remaining = _ := hrest
      rw [skip_unit _ (by decide), Cursor.sees_cons, if_pos (by decide)] at h
      cases h
      exact ⟨rfl, rfl⟩
    | cons w items =>
      have hr : renderItems number (v :: w :: items) =
          render number v ++ unit ',' :: renderItems number (w :: items) := by rw [renderItems]
      rw [hr, List.append_assoc, List.cons_append] at hvalue
      obtain ⟨rfl, hrest⟩ := readValue_written fuel v hv.1 (endsNumber_close _ _ (by decide)) hvalue
      obtain ⟨remaining, p, n⟩ := c'
      obtain rfl : remaining = _ := hrest
      rw [skip_unit _ (by decide), Cursor.sees_cons, Cursor.sees_cons, if_neg (by decide), if_neg (by decide)] at h
      obtain ⟨hout, hrest⟩ := readElements_written fuel w items (acc ++ [v']) hv.2 h
      exact ⟨by rw [hout, List.append_assoc]; rfl, hrest⟩
termination_by fuel => fuel

theorem readObject_written : ∀ (fuel : Nat) (entries : List (QString × QJsonValue)) {path : QString} {depth : Nat}
    {rest : QString} {position count : Nat} {out : QJsonObject} {c : Cursor}, Written d number (.object entries) →
    readObject d fuel path depth
        ⟨unit '\x7b' :: (renderMembers number entries ++ unit '\x7d' :: rest), position, count⟩ = .ok (out, c) →
      out = entries ∧ c.rest = rest
  | 0, _, _, _, _, _, _, _, _, _, h => by
    rw [readObject] at h
    exact absurd h (fail_ne_ok d)
  | fuel + 1, entries, path, depth, rest, position, count, out, c, hv, h => by
    rw [readObject] at h
    split_ifs at h with hdepth
    · exact absurd h (fail_ne_ok d)
    simp only [Cursor.advance, List.drop_succ_cons, List.drop_zero] at h
    cases entries with
    | nil =>
      rw [renderMembers, List.nil_append, skip_unit _ (by decide), Cursor.sees_cons, if_pos (by decide)] at h
      cases h
      exact ⟨rfl, rfl⟩
    | cons e entries =>
      obtain ⟨k, v⟩ := e
      have hs : renderMembers number ((k, v) :: entries) = unit '"' :: (renderMembers number ((k, v) :: entries)).drop 1 := by
        obtain ⟨tail, htail⟩ := renderMembers_cons number k v entries
        rw [htail, renderString]
        rfl
      rw [hs, List.cons_append, skip_unit _ (by decide), Cursor.sees_cons, if_neg (by decide), ← List.cons_append, ← hs] at h
      exact readMembers_written fuel k v entries [] hv (by simp) h
termination_by fuel => fuel

theorem readMembers_written : ∀ (fuel : Nat) (k : QString) (v : QJsonValue) (entries : List (QString × QJsonValue))
    (acc : QJsonObject) {path : QString} {depth : Nat} {rest : QString} {position count : Nat} {out : QJsonObject} {c : Cursor},
    Written d number (.object ((k, v) :: entries)) → (∀ a ∈ acc, ∀ e ∈ (k, v) :: entries, utf16Less a.1 e.1 = true) →
    readMembers d fuel path depth acc
        ⟨renderMembers number ((k, v) :: entries) ++ unit '\x7d' :: rest, position, count⟩ = .ok (out, c) →
      out = acc ++ (k, v) :: entries ∧ c.rest = rest
  | 0, _, _, _, _, _, _, _, _, _, _, _, _, _, h => by
    rw [readMembers] at h
    exact absurd h (fail_ne_ok d)
  | fuel + 1, k, v, entries, acc, path, depth, rest, position, count, out, c, hv, ha, h => by
    obtain ⟨hsort, -, hval, hrest⟩ := hv
    have hlast := fun a ha' => ha a ha' (k, v) List.mem_cons_self
    -- what comes behind the member
    obtain ⟨tail, hends, hr, htail⟩ : ∃ tail, EndsNumber tail ∧
        renderMembers number ((k, v) :: entries) ++ unit '\x7d' :: rest = renderString k ++ unit ':' :: (render number v ++ tail) ∧
        tail = match entries with
          | [] => unit '\x7d' :: rest
          | e :: entries => unit ',' :: (renderMembers number (e :: entries) ++ unit '\x7d' :: rest) := by
      cases entries with
      | nil => exact ⟨_, endsNumber_close _ _ (by decide), by simp [renderMembers], rfl⟩
      | cons e entries => exact ⟨_, endsNumber_close _ _ (by decide), by simp [renderMembers], rfl⟩
    have hq : renderString k = unit '"' :: (renderString k).drop 1 := by
      rw [renderString]
      rfl
    rw [hr, hq, List.cons_append, readMembers, skip_unit _ (by decide)] at h
    dsimp only at h
    rw [Cursor.sees_cons, if_neg (by decide), ← List.cons_append, ← hq] at h
    obtain ⟨⟨k', c₁⟩, hkey, hmember⟩ := bind_ok_iff.mp h
    obtain ⟨hk', hrest₁⟩ := readString_written d hkey
    obtain ⟨remaining, p₁, n₁⟩ := c₁
    obtain rfl : remaining = _ := hrest₁
    obtain rfl : k' = k := hk'
    rw [contains_last hlast, if_neg Bool.false_ne_true, skip_unit _ (by decide), Cursor.sees_cons, if_neg (by decide)] at hmember
    obtain ⟨⟨v', c₂⟩, hvalue, hnext⟩ := bind_ok_iff.mp hmember
    obtain ⟨hv', hrest₂⟩ := readValue_written fuel v hval hends hvalue
    obtain ⟨remaining, p₂, n₂⟩ := c₂
    obtain rfl : remaining = _ := hrest₂
    obtain rfl : v' = v := hv'
    dsimp only at hnext
    rw [insert_last hval.ne_undefined hlast] at hnext
    cases entries with
    | nil =>
      obtain rfl := htail
      rw [skip_unit _ (by decide), Cursor.sees_cons, if_pos (by decide)] at hnext
      cases hnext
      exact ⟨rfl, rfl⟩
    | cons e entries =>
      obtain ⟨l, w⟩ := e
      obtain rfl := htail
      rw [skip_unit _ (by decide), Cursor.sees_cons, Cursor.sees_cons, if_neg (by decide), if_neg (by decide)] at hnext
      have hsorted := List.pairwise_cons.mp hsort
      obtain ⟨hout, hc⟩ := readMembers_written fuel l w entries (acc ++ [(k', v')]) ⟨hsorted.2, hrest⟩ (by
        intro a ha' e he
        rcases List.mem_append.mp ha' with ha' | ha'
        · exact ha a ha' e (List.mem_cons_of_mem _ he)
        · cases List.mem_singleton.mp ha'
          exact hsorted.1 e he) hnext
      exact ⟨by rw [hout, List.append_assoc]; rfl, hc⟩
termination_by fuel => fuel
end

/-- A document that was written is read as the object written, whatever follows it. -/
theorem readDocument_written {o out : QJsonObject} {space : QString} (ho : Written d number (.object o))
    (h : readDocument d (render number (.object o) ++ space) = .ok out) : out = o := by
  unfold readDocument at h
  simp only [render, List.cons_append, List.append_assoc, List.nil_append] at h
  rw [skip_unit _ (by decide), Cursor.sees_cons, if_neg (by decide)] at h
  obtain ⟨c₀, hc₀, h⟩ := bind_ok_iff.mp h
  obtain ⟨rfl, -⟩ := countValue_sound d hc₀
  obtain ⟨⟨out', c⟩, hobject, h⟩ := bind_ok_iff.mp h
  dsimp only at h
  split_ifs at h
  · exact absurd h (fail_ne_ok d)
  · obtain rfl := pure_ok_iff.mp h
    exact (readObject_written d number _ o ho hobject).1

end Values

end HyprShelld.Json
