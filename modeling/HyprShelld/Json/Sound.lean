import HyprShelld.Json.Limits
import HyprShelld.Support.Except

/-! What the reader returns is well formed and within its own limits, and a success
consumes text. -/
namespace HyprShelld.Json

variable {ε : Type} (d : Dialect ε)

/-- A string the reader has checked at some path. -/
def CheckedText (s : QString) : Prop := IsText s ∧ ∃ path, d.checkText s path = .ok ()

/-- A number read from some lexeme. -/
def ReadNumber (x : Double) : Prop := ∃ q lexeme, x = .finite q ∧ d.number lexeme = .ok q

abbrev Produced : QJsonValue → Prop := Valid (CheckedText d) (ReadNumber d)
abbrev ProducedItems : List QJsonValue → Prop := ValidItems (CheckedText d) (ReadNumber d)
abbrev ProducedMembers : List (QString × QJsonValue) → Prop := ValidMembers (CheckedText d) (ReadNumber d)

theorem fail_ne_ok {α : Type} {f : Fault} {path : QString} {position : Nat} {r : α} :
    d.fail f path position ≠ .ok r := by
  intro h
  cases h

private theorem isText_snoc {value : QString} {u : UInt16} (hv : IsText value)
    (hu : isHighSurrogate u = false) (hl : isLowSurrogate u = false) : IsText (value ++ [u]) :=
  hv.append ((isText_cons_single hu hl).mpr isText_nil)

private theorem isText_snoc_pair {value : QString} {u v : UInt16} (hv : IsText value)
    (hu : isHighSurrogate u = true) (hl : isLowSurrogate v = true) : IsText (value ++ [u, v]) :=
  hv.append ((isText_cons_pair hu hl).mpr isText_nil)

private theorem simpleEscape_plain {e w : UInt16} (h : simpleEscape e = some w) :
    isHighSurrogate w = false ∧ isLowSurrogate w = false := by
  unfold simpleEscape at h
  split_ifs at h <;> cases h <;> decide

theorem readStringBody_sound (path : QString) (s : QString) (position : Nat) (value : QString)
    {v rest : QString} {p : Nat} (h : readStringBody d path s position value = .ok (v, rest, p))
    (hv : IsText value) : IsText v ∧ d.checkText v path = .ok () ∧ rest.length < s.length := by
  fun_induction readStringBody d path s position value
  all_goals first | exact absurd h (fail_ne_ok d) | skip
  case case2 =>
    obtain ⟨_, hc, hr⟩ := bind_ok_iff.mp h
    cases hr
    exact ⟨hv, hc, Nat.lt_succ_self _⟩
  case case5 hu _ _ hl ih =>
    obtain ⟨ht, hc, hr⟩ := ih h (isText_snoc_pair hv hu hl)
    exact ⟨ht, hc, by simp only [List.length_cons]; omega⟩
  case case8 hu hl ih =>
    obtain ⟨ht, hc, hr⟩ := ih h (isText_snoc hv (Bool.eq_false_iff.mpr hu) (Bool.eq_false_iff.mpr hl))
    exact ⟨ht, hc, by simp only [List.length_cons]; omega⟩
  case case10 he ih =>
    have hw := simpleEscape_plain he
    obtain ⟨ht, hc, hr⟩ := ih h (isText_snoc hv hw.1 hw.2)
    exact ⟨ht, hc, by simp only [List.length_cons]; omega⟩
  case case14 hu _ _ _ _ _ _ _ _ _ _ hl ih =>
    obtain ⟨ht, hc, hr⟩ := ih h (isText_snoc_pair hv hu hl)
    exact ⟨ht, hc, by simp only [List.length_cons]; omega⟩
  case case20 hu hl ih =>
    obtain ⟨ht, hc, hr⟩ := ih h (isText_snoc hv (Bool.eq_false_iff.mpr hu) (Bool.eq_false_iff.mpr hl))
    exact ⟨ht, hc, by simp only [List.length_cons]; omega⟩

/-- What a success does to the cursor: n values are counted and text is consumed. -/
structure Took (c c' : Cursor) (n : Nat) : Prop where
  count : c'.valueCount = counted d c.valueCount n
  room : Room d c.valueCount n
  shorter : c'.rest.length < c.rest.length

private theorem skip_le (c : Cursor) : c.skipWhitespace.rest.length ≤ c.rest.length :=
  (List.dropWhile_suffix _).length_le

private theorem sees_ne_nil {c : Cursor} {u : UInt16} (h : c.sees u = true) : c.rest ≠ [] := by
  intro hn
  rw [Cursor.sees, hn] at h
  simp at h

private theorem advance_lt {c : Cursor} (h : c.rest ≠ []) {n : Nat} (hn : 0 < n) :
    (c.advance n).rest.length < c.rest.length := by
  have := List.length_pos_iff.mpr h
  simp only [Cursor.advance, List.length_drop]
  omega

private theorem readString_sound {path : QString} {c c' : Cursor} {s : QString}
    (h : readString d path c = .ok (s, c')) (hc : c.rest ≠ []) :
    CheckedText d s ∧ c'.valueCount = c.valueCount ∧ c'.rest.length < c.rest.length := by
  obtain ⟨⟨v, rest, p⟩, hb, hr⟩ := bind_ok_iff.mp h
  cases hr
  obtain ⟨ht, hck, hl⟩ := readStringBody_sound d path _ _ _ hb isText_nil
  have := List.length_pos_iff.mpr hc
  rw [List.length_drop] at hl
  exact ⟨⟨ht, path, hck⟩, rfl, by simp only []; omega⟩

private theorem readLiteral_sound {path literal : QString} {value v : QJsonValue} {c c' : Cursor}
    (h : readLiteral d path literal value c = .ok (v, c')) (hc : c.rest ≠ []) (hl : 0 < literal.length) :
    v = value ∧ c'.valueCount = c.valueCount ∧ c'.rest.length < c.rest.length := by
  unfold readLiteral at h
  split_ifs at h
  · cases h
    exact ⟨rfl, rfl, advance_lt hc hl⟩
  · cases h

private theorem readNumber_sound {path : QString} {v : QJsonValue} {c c' : Cursor}
    (h : readNumber d path c = .ok (v, c')) :
    (∃ q lexeme, v = .double (.finite q) ∧ d.number lexeme = .ok q) ∧ c'.valueCount = c.valueCount ∧
      c'.rest.length < c.rest.length := by
  unfold readNumber at h
  rcases hs : scanNumber c.rest with _ | ⟨lexeme, rest⟩
  · rw [hs] at h
    cases h
  · rw [hs] at h
    rcases hn : d.number lexeme with _ | q
    · simp only [hn] at h
      cases h
    · simp only [hn] at h
      cases h
      obtain ⟨he, hne⟩ := scanNumber_eq hs
      refine ⟨⟨q, lexeme, rfl, hn⟩, rfl, advance_lt ?_ (List.length_pos_iff.mpr hne)⟩
      rw [he]
      simp [hne]

private theorem Took.trans {c c₁ c₂ : Cursor} {n m : Nat} (h₁ : Took d c c₁ n) (h₂ : Took d c₁ c₂ m) :
    Took d c c₂ (n + m) := by
  refine ⟨?_, Room.before d (by rw [← h₁.count]; exact h₂.room), h₂.shorter.trans h₁.shorter⟩
  rw [h₂.count, h₁.count, counted_counted]

/-- Cursor moves that count nothing. -/
private theorem Took.moved {c c₁ c₂ : Cursor} {n : Nat} (h : Took d c₁ c₂ n)
    (hc : c₁.valueCount = c.valueCount) (hr : c₁.rest.length ≤ c.rest.length) : Took d c c₂ n :=
  ⟨by rw [h.count, hc], hc ▸ h.room, h.shorter.trans_le hr⟩

private theorem Took.then {c c₁ c₂ : Cursor} {n : Nat} (h : Took d c c₁ n)
    (hc : c₂.valueCount = c₁.valueCount) (hr : c₂.rest.length ≤ c₁.rest.length) : Took d c c₂ n :=
  ⟨by rw [hc, h.count], h.room, hr.trans_lt h.shorter⟩

mutual
theorem readValue_sound : ∀ (fuel : Nat) {path : QString} {depth : Nat} {c c' : Cursor} {v : QJsonValue},
    readValue d fuel path depth c = .ok (v, c') →
    Produced d v ∧ Fits d depth (nesting v) ∧ Took d c c' (valueCount v)
  | 0, path, depth, c, c', v, h => by
    rw [readValue] at h
    exact absurd h (fail_ne_ok d)
  | fuel + 1, path, depth, c, c', v, h => by
    rw [readValue] at h
    obtain ⟨c₀, h₀, h⟩ := bind_ok_iff.mp h
    obtain ⟨rfl, hroom⟩ := countValue_sound d h₀
    have one {c₁ c' : Cursor} {n : Nat} (h : Took d c₁ c' n)
        (hc : c₁.valueCount = counted d c.valueCount 1) (hr : c₁.rest.length ≤ c.rest.length) :
        Took d c c' (1 + n) := by
      refine ⟨?_, Room.before d (hc ▸ h.room), h.shorter.trans_le hr⟩
      rw [h.count, hc, counted_counted]
    have flat {c₁ c' : Cursor} (hv : c'.valueCount = c₁.valueCount ∧ c'.rest.length < c₁.rest.length)
        (hc : c₁.valueCount = counted d c.valueCount 1) (hr : c₁.rest.length ≤ c.rest.length) :
        Took d c c' 1 := ⟨hv.1.trans hc, hroom, hv.2.trans_le hr⟩
    have hskip := skip_le { c with valueCount := counted d c.valueCount 1 }
    have hcount : (Cursor.skipWhitespace { c with valueCount := counted d c.valueCount 1 }).valueCount =
      counted d c.valueCount 1 := rfl
    revert h hskip hcount
    generalize Cursor.skipWhitespace { c with valueCount := counted d c.valueCount 1 } = c₁
    intro h hskip hcount
    simp only [] at h
    have hroom₁ : Room d c₁.valueCount 0 := by
      rw [hcount]
      exact Room.after d hroom
    split at h
    · exact absurd h (fail_ne_ok d)
    rename_i u t hu
    have hne : c₁.rest ≠ [] := by rw [hu]; exact List.cons_ne_nil _ _
    split_ifs at h
    · obtain ⟨⟨o, c₂⟩, ho, h⟩ := bind_ok_iff.mp h
      cases h
      obtain ⟨hs, hp, hd, hk⟩ := readObject_sound fuel ho hroom₁ hne
      exact ⟨⟨hs, hp⟩, .inr (by simp only [nesting]; push_cast; omega), one hk hcount hskip⟩
    · obtain ⟨⟨items, c₂⟩, ho, h⟩ := bind_ok_iff.mp h
      cases h
      obtain ⟨hp, hd, hk⟩ := readArray_sound fuel ho hroom₁ hne
      exact ⟨hp, .inr (by simp only [nesting]; push_cast; omega), one hk hcount hskip⟩
    · obtain ⟨⟨s, c₂⟩, ho, h⟩ := bind_ok_iff.mp h
      cases h
      obtain ⟨hs, hk⟩ := readString_sound d ho hne
      exact ⟨hs, .inl rfl, flat hk hcount hskip⟩
    · obtain ⟨rfl, hk⟩ := readLiteral_sound d h hne (by decide)
      exact ⟨trivial, .inl rfl, flat hk hcount hskip⟩
    · obtain ⟨rfl, hk⟩ := readLiteral_sound d h hne (by decide)
      exact ⟨trivial, .inl rfl, flat hk hcount hskip⟩
    · obtain ⟨rfl, hk⟩ := readLiteral_sound d h hne (by decide)
      exact ⟨trivial, .inl rfl, flat hk hcount hskip⟩
    · obtain ⟨⟨q, lexeme, rfl, hq⟩, hk⟩ := readNumber_sound d h
      exact ⟨⟨q, lexeme, rfl, hq⟩, .inl rfl, flat hk hcount hskip⟩
    · exact absurd h (fail_ne_ok d)
termination_by fuel => fuel

theorem readObject_sound : ∀ (fuel : Nat) {path : QString} {depth : Nat} {c c' : Cursor} {o : QJsonObject},
    readObject d fuel path depth c = .ok (o, c') → Room d c.valueCount 0 → c.rest ≠ [] →
    QJsonObject.Sorted o ∧ ProducedMembers d o ∧ (depth + membersNesting o : Int) ≤ d.maximumDepth ∧
      Took d c c' (membersCount o)
  | 0, path, depth, c, c', o, h, _, _ => by
    rw [readObject] at h
    exact absurd h (fail_ne_ok d)
  | fuel + 1, path, depth, c, c', o, h, hroom, hc => by
    rw [readObject] at h
    split_ifs at h with hd
    · exact absurd h (fail_ne_ok d)
    have hlt : (c.advance 1).skipWhitespace.rest.length < c.rest.length :=
      (skip_le _).trans_lt (advance_lt hc Nat.one_pos)
    simp only [] at h
    split_ifs at h with hclose
    · cases h
      have := advance_lt (sees_ne_nil hclose) Nat.one_pos
      exact ⟨QJsonObject.sorted_nil, trivial, by simp only [membersNesting]; omega,
        by simp [membersCount]; rfl, hroom, by omega⟩
    · obtain ⟨hs, hp, hn, n, hcount, hk⟩ := readMembers_sound fuel h (by omega) QJsonObject.sorted_nil trivial
        (by simp only [membersNesting]; omega)
      rw [membersCount, Nat.zero_add] at hcount
      exact ⟨hs, hp, hn, hcount ▸ hk.moved d rfl hlt.le⟩
termination_by fuel => fuel

theorem readMembers_sound : ∀ (fuel : Nat) {path : QString} {depth : Nat} {acc : QJsonObject}
    {c c' : Cursor} {o : QJsonObject}, readMembers d fuel path depth acc c = .ok (o, c') →
    (depth : Int) ≤ d.maximumDepth → QJsonObject.Sorted acc → ProducedMembers d acc →
    (depth + membersNesting acc : Int) ≤ d.maximumDepth →
    QJsonObject.Sorted o ∧ ProducedMembers d o ∧ (depth + membersNesting o : Int) ≤ d.maximumDepth ∧
      ∃ n, membersCount o = membersCount acc + n ∧ Took d c c' n
  | 0, path, depth, acc, c, c', o, h, _, _, _, _ => by
    rw [readMembers] at h
    exact absurd h (fail_ne_ok d)
  | fuel + 1, path, depth, acc, c, c', o, h, hdepth, hs, hp, hn => by
    rw [readMembers] at h
    simp only [] at h
    split_ifs at h with hq
    · exact absurd h (fail_ne_ok d)
    obtain ⟨⟨key, c₁⟩, hkey, h⟩ := bind_ok_iff.mp h
    simp only [] at h
    split_ifs at h with hdup hcolon
    · exact absurd h (fail_ne_ok d)
    · exact absurd h (fail_ne_ok d)
    obtain ⟨⟨v, c₂⟩, hv, h⟩ := bind_ok_iff.mp h
    simp only [Bool.not_eq_true, Bool.not_eq_false'] at hq hdup hcolon
    have hskip := skip_le c
    have hcolon' := advance_lt (sees_ne_nil hcolon) Nat.one_pos
    have hskip₁ := skip_le c₁
    have hskip₂ := skip_le c₂
    obtain ⟨htext, hcount₁, hlt₁⟩ := readString_sound d hkey (sees_ne_nil hq)
    obtain ⟨hpv, hfit, hk⟩ := readValue_sound fuel hv
    have hfit' : (depth + nesting v : Int) ≤ d.maximumDepth := by
      rcases hfit with hf | hf
      · rw [hf]; simpa using hdepth
      · push_cast at hf; omega
    have hins : QJsonObject.insert acc key v = QJsonObject.put key v acc := if_neg hpv.ne_undefined
    have htook : Took d c c₂ (valueCount v) := hk.moved d hcount₁ (by omega)
    rw [hins] at h
    have hcount := membersCount_put (v := v) hdup
    have hnest : (depth + membersNesting (QJsonObject.put key v acc) : Int) ≤ d.maximumDepth := by
      rw [membersNesting_put hdup]
      push_cast
      omega
    have hsorted := QJsonObject.sorted_put hs key v
    have hprod := validMembers_put hp htext hpv
    simp only [] at h
    split_ifs at h with hclose hcomma
    · cases h
      have := advance_lt (sees_ne_nil hclose) Nat.one_pos
      exact ⟨hsorted, hprod, hnest, valueCount v, by omega, htook.then d rfl (by omega)⟩
    · exact absurd h (fail_ne_ok d)
    · rw [Bool.not_eq_true, Bool.not_eq_false'] at hcomma
      have := advance_lt (sees_ne_nil hcomma) Nat.one_pos
      obtain ⟨hs', hp', hn', n, hcount', hks⟩ := readMembers_sound fuel h hdepth hsorted hprod hnest
      exact ⟨hs', hp', hn', valueCount v + n, by omega, htook.trans d (hks.moved d rfl (by omega))⟩
termination_by fuel => fuel

theorem readArray_sound : ∀ (fuel : Nat) {path : QString} {depth : Nat} {c c' : Cursor} {items : QJsonArray},
    readArray d fuel path depth c = .ok (items, c') → Room d c.valueCount 0 → c.rest ≠ [] →
    ProducedItems d items ∧ (depth + itemsNesting items : Int) ≤ d.maximumDepth ∧
      Took d c c' (itemsCount items)
  | 0, path, depth, c, c', items, h, _, _ => by
    rw [readArray] at h
    exact absurd h (fail_ne_ok d)
  | fuel + 1, path, depth, c, c', items, h, hroom, hc => by
    rw [readArray] at h
    split_ifs at h with hd
    · exact absurd h (fail_ne_ok d)
    have hlt : (c.advance 1).skipWhitespace.rest.length < c.rest.length :=
      (skip_le _).trans_lt (advance_lt hc Nat.one_pos)
    simp only [] at h
    split_ifs at h with hclose
    · cases h
      have := advance_lt (sees_ne_nil hclose) Nat.one_pos
      exact ⟨trivial, by simp only [itemsNesting]; omega, by simp [itemsCount]; rfl, hroom, by omega⟩
    · obtain ⟨new, rfl, hp, hn, hk⟩ := readElements_sound fuel h (by omega)
      exact ⟨hp, hn, hk.moved d rfl hlt.le⟩
termination_by fuel => fuel

theorem readElements_sound : ∀ (fuel : Nat) {path : QString} {depth : Nat} {acc : QJsonArray}
    {c c' : Cursor} {items : QJsonArray}, readElements d fuel path depth acc c = .ok (items, c') →
    (depth : Int) ≤ d.maximumDepth →
    ∃ new, items = acc ++ new ∧ ProducedItems d new ∧ (depth + itemsNesting new : Int) ≤ d.maximumDepth ∧
      Took d c c' (itemsCount new)
  | 0, path, depth, acc, c, c', items, h, _ => by
    rw [readElements] at h
    exact absurd h (fail_ne_ok d)
  | fuel + 1, path, depth, acc, c, c', items, h, hdepth => by
    rw [readElements] at h
    obtain ⟨⟨v, c₁⟩, hv, h⟩ := bind_ok_iff.mp h
    obtain ⟨hp, hf, hk⟩ := readValue_sound fuel hv
    have hfit : (depth + nesting v : Int) ≤ d.maximumDepth := by
      rcases hf with hf | hf
      · rw [hf]; simpa using hdepth
      · push_cast at hf; omega
    simp only [] at h
    split_ifs at h with hclose hcomma
    · cases h
      have := advance_lt (sees_ne_nil hclose) Nat.one_pos
      have := skip_le c₁
      refine ⟨[v], rfl, ⟨hp, trivial⟩, by simpa [itemsNesting] using hfit, ?_⟩
      simp only [itemsCount, Nat.add_zero]
      exact hk.then d rfl (by omega)
    · exact absurd h (fail_ne_ok d)
    · rw [Bool.not_eq_true, Bool.not_eq_false'] at hcomma
      have := advance_lt (sees_ne_nil hcomma) Nat.one_pos
      have := skip_le c₁
      obtain ⟨new, rfl, hps, hn, hks⟩ := readElements_sound fuel h hdepth
      refine ⟨v :: new, by simp, ⟨hp, hps⟩, ?_, ?_⟩
      · simp only [itemsNesting]
        push_cast
        omega
      · simp only [itemsCount]
        exact hk.trans d (hks.moved d rfl (by omega))
termination_by fuel => fuel
end

/-- A document that was read is produced by the dialect, whole and within its limits. -/
theorem readDocument_sound {text : QString} {o : QJsonObject} (h : readDocument d text = .ok o) :
    Produced d (.object o) ∧ (nesting (.object o) : Int) ≤ d.maximumDepth ∧
      Room d 0 (valueCount (.object o)) := by
  unfold readDocument at h
  simp only [] at h
  split_ifs at h with hopen
  · exact absurd h (fail_ne_ok d)
  rw [Bool.not_eq_true, Bool.not_eq_false'] at hopen
  obtain ⟨c₀, h₀, h⟩ := bind_ok_iff.mp h
  obtain ⟨rfl, hroom⟩ := countValue_sound d h₀
  obtain ⟨⟨o', c₁⟩, ho, h⟩ := bind_ok_iff.mp h
  simp only [] at h
  split_ifs at h
  · exact absurd h (fail_ne_ok d)
  cases h
  obtain ⟨hs, hp, hn, hk⟩ := readObject_sound d _ ho (Room.after d hroom) (sees_ne_nil hopen)
  refine ⟨⟨hs, hp⟩, ?_, Room.before d hk.room⟩
  simp only [nesting]
  push_cast
  omega

end HyprShelld.Json
