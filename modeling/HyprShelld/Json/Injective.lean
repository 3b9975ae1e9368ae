import HyprShelld.Json.NumberText
import HyprShelld.Json.RenderText
import HyprShelld.Json.RoundTrip
import HyprShelld.Text.Utf8

/-! Compact JSON text tells every two values apart, also where strings hold lone surrogates. -/
namespace HyprShelld.Json

/-- A JSON value as a document can hold it: any string, and only numbers that are doubles. -/
abbrev IsJson : QJsonValue → Prop := Valid (fun _ => True) fun x => ∃ q, x = .finite q ∧ IsBinary64 q
abbrev IsJsonItems : List QJsonValue → Prop := ValidItems (fun _ => True) fun x => ∃ q, x = .finite q ∧ IsBinary64 q
abbrev IsJsonMembers : List (QString × QJsonValue) → Prop :=
  ValidMembers (fun _ => True) fun x => ∃ q, x = .finite q ∧ IsBinary64 q

section Strings

private def escapedUnit : QString → Option (QString × QString)
  | [] => none
  | e :: rest => match simpleEscape e with
    | some w => some ([w], rest)
    | none => match rest with
      | a :: b :: c :: d :: tail => (readHexCodeUnit a b c d 0).toOption.map fun u => ([u], tail)
      | _ => none

/-- What the first piece of an escaped string stands for, with the text behind it. -/
private def firstPiece : QString → Option (QString × QString)
  | [] => none
  | u :: rest =>
    if u = unit '"' then none
    else if u = unit '\\' then escapedUnit rest
    else if isHighSurrogate u then
      match rest with
      | [] => none
      | v :: tail => some ([u, v], tail)
    else some ([u], rest)

private theorem firstPiece_simple {e w : UInt16} (h : simpleEscape e = some w) (x : QString) :
    firstPiece ([unit '\\', e] ++ x) = some ([w], x) := by
  have hq : unit '\\' ≠ unit '"' := by decide
  simp [firstPiece, hq, escapedUnit, h]

private theorem firstPiece_unicode (u : UInt16) (x : QString) :
    firstPiece (unicodeEscape u ++ x) = some ([u], x) := by
  have hq : unit '\\' ≠ unit '"' := by decide
  have hs : simpleEscape (unit 'u') = none := by decide
  simp [unicodeEscape, firstPiece, hq, escapedUnit, hs, readHexCodeUnit_lowerHex, Except.toOption]

private theorem firstPiece_escapeUnit {u : UInt16} (hu : isHighSurrogate u = false) (x : QString) :
    firstPiece (escapeUnit u ++ x) = some ([u], x) := by
  unfold escapeUnit
  split_ifs with h1 h2 h3 h4 h5 h6 h7 h8
  · subst h1; exact firstPiece_simple (by decide) x
  · subst h2; exact firstPiece_simple (by decide) x
  · subst h3; exact firstPiece_simple (by decide) x
  · subst h4; exact firstPiece_simple (by decide) x
  · subst h5; exact firstPiece_simple (by decide) x
  · subst h6; exact firstPiece_simple (by decide) x
  · subst h7; exact firstPiece_simple (by decide) x
  · exact firstPiece_unicode u x
  · simp [firstPiece, h6, h7, hu]

/-- An escaped string is the piece of its first units and the escape of the others. -/
private theorem escape_piece {s : QString} (h : s ≠ []) : ∃ units rest piece : QString,
    units ≠ [] ∧ s = units ++ rest ∧ escape s = piece ++ escape rest ∧
      ∀ x, firstPiece (piece ++ x) = some (units, x) := by
  have lone (u : UInt16) (rest : QString) (he : escape (u :: rest) = unicodeEscape u ++ escape rest) :=
    (⟨[u], rest, unicodeEscape u, by simp, rfl, he, firstPiece_unicode u⟩ : ∃ units rest' piece : QString,
      units ≠ [] ∧ u :: rest = units ++ rest' ∧ escape (u :: rest) = piece ++ escape rest' ∧
        ∀ x, firstPiece (piece ++ x) = some (units, x))
  cases s with
  | nil => exact absurd rfl h
  | cons u rest =>
    by_cases hu : isHighSurrogate u = true
    · cases rest with
      | nil => exact lone u [] (by simp [escape, hu])
      | cons v tail =>
        by_cases hv : isLowSurrogate v = true
        · refine ⟨[u, v], tail, [u, v], by simp, rfl, escape_pair tail hu hv, fun x => ?_⟩
          have hq : u ≠ unit '"' := by
            rintro rfl
            exact absurd hu (by decide)
          have hb : u ≠ unit '\\' := by
            rintro rfl
            exact absurd hu (by decide)
          simp [firstPiece, hq, hb, hu]
        · exact lone u (v :: tail) (by simp [escape, hu, hv])
    · by_cases hl : isLowSurrogate u = true
      · refine lone u rest ?_
        rw [escape.eq_def]
        simp [hu, hl]
      · rw [Bool.not_eq_true] at hu hl
        exact ⟨[u], rest, escapeUnit u, by simp, rfl, escape_single rest hu hl, firstPiece_escapeUnit hu⟩

private theorem escape_cancel {s t r r' : QString}
    (h : escape s ++ unit '"' :: r = escape t ++ unit '"' :: r') : s = t ∧ r = r' := by
  have quote (x : QString) : firstPiece (unit '"' :: x) = none := rfl
  induction hn : s.length using Nat.strong_induction_on generalizing s t with
  | _ n ih =>
    rcases eq_or_ne s [] with rfl | hs <;> rcases eq_or_ne t [] with rfl | ht
    · exact ⟨rfl, List.tail_eq_of_cons_eq h⟩
    · obtain ⟨units, rest, piece, -, -, he, hp⟩ := escape_piece ht
      rw [he, List.append_assoc] at h
      have hc := (congrArg firstPiece h).symm.trans (quote r)
      rw [hp] at hc
      cases hc
    · obtain ⟨units, rest, piece, -, -, he, hp⟩ := escape_piece hs
      rw [he, List.append_assoc] at h
      have hc := (congrArg firstPiece h).trans (quote r')
      rw [hp] at hc
      cases hc
    · obtain ⟨units, rest, piece, hne, rfl, he, hp⟩ := escape_piece hs
      obtain ⟨units', rest', piece', -, rfl, he', hp'⟩ := escape_piece ht
      rw [he, he', List.append_assoc, List.append_assoc] at h
      have hc := congrArg firstPiece h
      rw [hp, hp'] at hc
      injection hc with hc
      injection hc with hu hr
      have hlt : rest.length < n := by
        rw [← hn, List.length_append]
        have := List.length_pos_of_ne_nil hne
        omega
      obtain ⟨rfl, rfl⟩ := ih _ hlt hr rfl
      exact ⟨by rw [hu], rfl⟩

theorem renderString_cancel {s t r r' : QString} (h : renderString s ++ r = renderString t ++ r') :
    s = t ∧ r = r' := by
  simp only [renderString, List.cons_append, List.append_assoc, List.cons.injEq, true_and] at h
  exact escape_cancel h

end Strings

section Values
variable (t : NumberText)

private def kindOf : QJsonValue → UInt16
  | .undefined | .null => unit 'n'
  | .bool b => if b then unit 't' else unit 'f'
  | .double _ => unit '0'
  | .string _ => unit '"'
  | .array _ => unit '['
  | .object _ => unit '{'

private def headKind (u : UInt16) : UInt16 := if u = unit '-' ∨ isDigit u = true then unit '0' else u

/-- The first unit of a value's text tells its kind. -/
private theorem render_kind {v : QJsonValue} (h : IsJson v) (r : QString) :
    (render t.printDouble v ++ r).head?.map headKind = some (kindOf v) := by
  cases v with
  | undefined => exact h.elim
  | null => rfl
  | bool b => cases b <;> rfl
  | double x =>
    obtain ⟨q, rfl, hq⟩ := h
    obtain ⟨u, l, he, hu⟩ := lexeme_head (t.print_lexeme q hq)
    rw [render, NumberText.printDouble, he, List.cons_append, List.head?_cons, Option.map_some, headKind, if_pos hu]
    rfl
  | string s => rfl
  | array items => rfl
  | object entries => rfl

/-- What stands behind a value inside a container. -/
private theorem endsNumber_behind {u : UInt16} (h : u = unit ',' ∨ u = unit ']' ∨ u = unit '}') (r : QString) :
    EndsNumber (u :: r) := by
  show isDigit u = false ∧ u ≠ unit '.' ∧ u ≠ unit 'e' ∧ u ≠ unit 'E'
  rcases h with rfl | rfl | rfl <;> decide

private theorem kind_of_eq {v w : QJsonValue} {r r' : QString} (hv : IsJson v) (hw : IsJson w)
    (h : render t.printDouble v ++ r = render t.printDouble w ++ r') : kindOf v = kindOf w := by
  have hk := render_kind t hv r
  rw [h, render_kind t hw r'] at hk
  exact (Option.some.inj hk).symm

/-- No value's text begins with the bracket that closes an array. -/
private theorem close_ne_render {w : QJsonValue} {r r' : QString} (hw : IsJson w) :
    unit ']' :: r ≠ render t.printDouble w ++ r' := by
  intro h
  have hk := render_kind t hw r'
  rw [← h, List.head?_cons, Option.map_some, Option.some_inj] at hk
  cases w with
  | bool b => cases b <;> cases hk
  | undefined | null | double | string | array | object => cases hk

private theorem number_cancel {p q : ℚ} {r r' : QString} (hp : IsBinary64 p) (hq : IsBinary64 q)
    (hr : EndsNumber r) (hr' : EndsNumber r') (h : t.print p ++ r = t.print q ++ r') : p = q ∧ r = r' := by
  have hs := scanNumber_lexeme (t.print_lexeme p hp) hr
  rw [h, scanNumber_lexeme (t.print_lexeme q hq) hr'] at hs
  injection hs with hs
  injection hs with hl hr
  have hread := t.read_print p hp
  rw [← hl, t.read_print q hq] at hread
  injection hread with he
  exact ⟨he.symm, hr.symm⟩

/-- The items behind the first one, each after a comma. -/
private def laterItems : List QJsonValue → QString
  | [] => []
  | v :: rest => unit ',' :: renderItems t.printDouble (v :: rest)

private def laterMembers : List (QString × QJsonValue) → QString
  | [] => []
  | e :: rest => unit ',' :: renderMembers t.printDouble (e :: rest)

private theorem renderItems_later (v : QJsonValue) (items : List QJsonValue) :
    renderItems t.printDouble (v :: items) = render t.printDouble v ++ laterItems t items := by
  cases items <;> rfl

private theorem renderMembers_later (k : QString) (v : QJsonValue) (entries : List (QString × QJsonValue)) :
    renderMembers t.printDouble ((k, v) :: entries) =
      renderString k ++ unit ':' :: (render t.printDouble v ++ laterMembers t entries) := by
  cases entries <;> rfl

private theorem endsNumber_items (items : List QJsonValue) (r : QString) :
    EndsNumber (laterItems t items ++ unit ']' :: r) := by
  cases items with
  | nil => exact endsNumber_behind (.inr (.inl rfl)) r
  | cons v items => exact endsNumber_behind (.inl rfl) _

private theorem endsNumber_members (entries : List (QString × QJsonValue)) (r : QString) :
    EndsNumber (laterMembers t entries ++ unit '}' :: r) := by
  cases entries with
  | nil => exact endsNumber_behind (.inr (.inr rfl)) r
  | cons e entries => exact endsNumber_behind (.inl rfl) _

mutual
theorem render_cancel : ∀ (v w : QJsonValue) {r r' : QString}, IsJson v → IsJson w → EndsNumber r → EndsNumber r' →
    render t.printDouble v ++ r = render t.printDouble w ++ r' → v = w ∧ r = r'
  | .undefined, _, _, _, hv, _, _, _, _ => hv.elim
  | .null, w, _, _, hv, hw, _, _, h => by
    have hk := kind_of_eq t hv hw h
    cases w with
    | undefined => exact hw.elim
    | null => exact ⟨rfl, List.append_cancel_left h⟩
    | bool c => cases c <;> cases hk
    | double | string | array | object => cases hk
  | .bool b, w, _, _, hv, hw, _, _, h => by
    have hk := kind_of_eq t hv hw h
    cases w with
    | undefined => exact hw.elim
    | bool c =>
      cases b <;> cases c
      · exact ⟨rfl, List.append_cancel_left h⟩
      · cases hk
      · cases hk
      · exact ⟨rfl, List.append_cancel_left h⟩
    | null | double | string | array | object => cases b <;> cases hk
  | .double x, w, _, _, hv, hw, hr, hr', h => by
    have hk := kind_of_eq t hv hw h
    cases w with
    | undefined => exact hw.elim
    | bool c => cases c <;> cases hk
    | double y =>
      obtain ⟨p, rfl, hp⟩ := hv
      obtain ⟨q, rfl, hq⟩ := hw
      obtain ⟨rfl, he⟩ := number_cancel t hp hq hr hr' h
      exact ⟨rfl, he⟩
    | null | string | array | object => cases hk
  | .string s, w, _, _, hv, hw, _, _, h => by
    have hk := kind_of_eq t hv hw h
    cases w with
    | undefined => exact hw.elim
    | bool c => cases c <;> cases hk
    | string s' =>
      obtain ⟨rfl, he⟩ := renderString_cancel h
      exact ⟨rfl, he⟩
    | null | double | array | object => cases hk
  | .array items, w, _, _, hv, hw, _, _, h => by
    have hk := kind_of_eq t hv hw h
    cases w with
    | undefined => exact hw.elim
    | bool c => cases c <;> cases hk
    | array items' =>
      simp only [render, List.cons_append, List.append_assoc, List.nil_append, List.cons.injEq, true_and] at h
      obtain ⟨rfl, he⟩ := items_cancel items items' hv hw h
      exact ⟨rfl, he⟩
    | null | double | string | object => cases hk
  | .object entries, w, _, _, hv, hw, _, _, h => by
    have hk := kind_of_eq t hv hw h
    cases w with
    | undefined => exact hw.elim
    | bool c => cases c <;> cases hk
    | object entries' =>
      simp only [render, List.cons_append, List.append_assoc, List.nil_append, List.cons.injEq, true_and] at h
      obtain ⟨rfl, he⟩ := members_cancel entries entries' hv.2 hw.2 h
      exact ⟨rfl, he⟩
    | null | double | string | array => cases hk

theorem items_cancel : ∀ (vs ws : List QJsonValue) {r r' : QString}, IsJsonItems vs → IsJsonItems ws →
    renderItems t.printDouble vs ++ unit ']' :: r = renderItems t.printDouble ws ++ unit ']' :: r' →
    vs = ws ∧ r = r'
  | [], [], _, _, _, _, h => ⟨rfl, List.tail_eq_of_cons_eq h⟩
  | [], w :: ws, _, _, _, hw, h => by
    rw [renderItems_later, List.append_assoc] at h
    exact absurd h (close_ne_render t hw.1)
  | v :: vs, [], _, _, hv, _, h => by
    rw [renderItems_later, List.append_assoc] at h
    exact absurd h.symm (close_ne_render t hv.1)
  | v :: vs, w :: ws, _, _, hv, hw, h => by
    rw [renderItems_later, renderItems_later, List.append_assoc, List.append_assoc] at h
    obtain ⟨he, hrest⟩ := render_cancel v w hv.1 hw.1 (endsNumber_items t vs _) (endsNumber_items t ws _) h
    subst he
    match vs, ws, hv, hw, hrest with
    | [], [], _, _, h => exact ⟨rfl, List.tail_eq_of_cons_eq h⟩
    | [], _ :: _, _, _, h => exact absurd (List.head_eq_of_cons_eq h) (by decide)
    | _ :: _, [], _, _, h => exact absurd (List.head_eq_of_cons_eq h) (by decide)
    | v' :: vs, w' :: ws, hv, hw, h =>
      obtain ⟨he, hr⟩ := items_cancel (v' :: vs) (w' :: ws) hv.2 hw.2 (List.tail_eq_of_cons_eq h)
      exact ⟨by rw [he], hr⟩

theorem members_cancel : ∀ (vs ws : List (QString × QJsonValue)) {r r' : QString},
    IsJsonMembers vs → IsJsonMembers ws →
    renderMembers t.printDouble vs ++ unit '}' :: r = renderMembers t.printDouble ws ++ unit '}' :: r' →
    vs = ws ∧ r = r'
  | [], [], _, _, _, _, h => ⟨rfl, List.tail_eq_of_cons_eq h⟩
  | [], (l, w) :: ws, _, _, _, _, h => by
    rw [renderMembers_later] at h
    exact absurd (List.head_eq_of_cons_eq h) (by decide)
  | (k, v) :: vs, [], _, _, _, _, h => by
    rw [renderMembers_later] at h
    exact absurd (List.head_eq_of_cons_eq h) (by decide)
  | (k, v) :: vs, (l, w) :: ws, _, _, hv, hw, h => by
    rw [renderMembers_later, renderMembers_later, List.append_assoc, List.append_assoc] at h
    obtain ⟨hk, hcolon⟩ := renderString_cancel h
    subst hk
    rw [List.cons_append, List.cons_append, List.append_assoc, List.append_assoc] at hcolon
    have hvalue := List.tail_eq_of_cons_eq hcolon
    obtain ⟨he, hrest⟩ := render_cancel v w hv.2.1 hw.2.1 (endsNumber_members t vs _) (endsNumber_members t ws _) hvalue
    subst he
    match vs, ws, hv, hw, hrest with
    | [], [], _, _, h => exact ⟨rfl, List.tail_eq_of_cons_eq h⟩
    | [], _ :: _, _, _, h => exact absurd (List.head_eq_of_cons_eq h) (by decide)
    | _ :: _, [], _, _, h => exact absurd (List.head_eq_of_cons_eq h) (by decide)
    | v' :: vs, w' :: ws, hv, hw, h =>
      obtain ⟨he, hr⟩ := members_cancel (v' :: vs) (w' :: ws) hv.2.2 hw.2.2 (List.tail_eq_of_cons_eq h)
      exact ⟨by rw [he], hr⟩
end

/-- Values with the same compact text are the same value. -/
theorem render_injective {v w : QJsonValue} (hv : IsJson v) (hw : IsJson w)
    (h : render t.printDouble v = render t.printDouble w) : v = w := by
  have hsame : render t.printDouble v ++ [] = render t.printDouble w ++ [] := by rw [h]
  have hend : EndsNumber [] := trivial
  exact (render_cancel t v w hv hw hend hend hsame).1

theorem isText_render_json {v : QJsonValue} (hv : IsJson v) : IsText (render t.printDouble v) := by
  apply isText_render ?_ hv
  rintro x ⟨q, rfl, hq⟩
  exact isText_lexeme (t.print_lexeme q hq)

end Values
end HyprShelld.Json
