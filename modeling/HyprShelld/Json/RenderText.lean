import HyprShelld.Json.Number
import HyprShelld.Json.Render
import HyprShelld.Json.Shape

/-! Rendered JSON is Unicode text, and its separators stand before every part but the first. -/
namespace HyprShelld
open Json

theorem renderItems_cons_eq (number : Double → QString) (v : QJsonValue) (items : List QJsonValue) :
    renderItems number (v :: items) =
      render number v ++ items.flatMap fun w => unit ',' :: render number w := by
  induction items generalizing v with
  | nil =>
    rw [renderItems]
    simp
  | cons w items ih => rw [renderItems, ih w, List.flatMap_cons, List.cons_append]

/-- A member as it stands between separators. -/
def renderMember (number : Double → QString) (e : QString × QJsonValue) : QString :=
  renderString e.1 ++ unit ':' :: render number e.2

theorem renderMembers_cons_eq (number : Double → QString) (e : QString × QJsonValue)
    (entries : List (QString × QJsonValue)) :
    renderMembers number (e :: entries) =
      renderMember number e ++ entries.flatMap fun f => unit ',' :: renderMember number f := by
  induction entries generalizing e with
  | nil =>
    rw [renderMembers]
    simp [renderMember]
  | cons f entries ih =>
    rw [renderMembers, ih f, List.flatMap_cons]
    simp [renderMember]

theorem isText_plain {s : QString} (h : ∀ u ∈ s, isHighSurrogate u = false ∧ isLowSurrogate u = false) :
    IsText s := by
  induction s with
  | nil => exact isText_nil
  | cons u s ih =>
    have hu := h u List.mem_cons_self
    exact (isText_cons_single hu.1 hu.2).mpr (ih fun w hw => h w (List.mem_cons_of_mem _ hw))

private theorem plain_below {u : UInt16} (h : u.toNat < 0x80) :
    isHighSurrogate u = false ∧ isLowSurrogate u = false := by
  simp only [isHighSurrogate, isLowSurrogate, Bool.and_eq_false_imp, decide_eq_true_eq, decide_eq_false_iff_not]
  omega

private theorem digits_below {s : QString} (h : s.all isDigit = true) : ∀ u ∈ s, u.toNat < 0x80 := by
  intro u hu
  have := List.all_eq_true.mp h u hu
  simp only [isDigit, Bool.and_eq_true, decide_eq_true_eq] at this
  omega

/-- Numbers are ASCII. -/
theorem lexeme_below {l : QString} (h : IsNumberLexeme l) : ∀ u ∈ l, u.toNat < 0x80 := by
  obtain ⟨sign, int, frac, exp, rfl, hs, hi, hf, he⟩ := h
  intro u hu
  simp only [List.mem_append] at hu
  rcases hu with ((hu | hu) | hu) | hu
  · rcases hs with rfl | rfl
    · cases hu
    · cases List.mem_singleton.mp hu
      decide
  · rcases hi with rfl | ⟨w, rest, rfl, hw, hd⟩
    · cases List.mem_singleton.mp hu
      decide
    · rcases List.mem_cons.mp hu with rfl | hu
      · simp only [isNonzeroDigit, Bool.and_eq_true, decide_eq_true_eq] at hw
        omega
      · exact digits_below hd u hu
  · rcases hf with rfl | ⟨ds, rfl, hd⟩
    · cases hu
    · rcases List.mem_cons.mp hu with rfl | hu
      · decide
      · exact digits_below hd.2 u hu
  · rcases he with rfl | ⟨e, sign, ds, rfl, he, hs, hd⟩
    · cases hu
    · simp only [List.cons_append, List.mem_cons, List.mem_append] at hu
      rcases hu with rfl | hu | hu
      · rcases he with rfl | rfl <;> decide
      · rcases hs with rfl | rfl | rfl
        · cases hu
        · cases List.mem_singleton.mp hu
          decide
        · cases List.mem_singleton.mp hu
          decide
      · exact digits_below hd.2 u hu

theorem isText_lexeme {l : QString} (h : IsNumberLexeme l) : IsText l :=
  isText_plain fun u hu => plain_below (lexeme_below h u hu)

theorem isText_digits {s : QString} (h : s.all isDigit = true) : IsText s :=
  isText_plain fun u hu => plain_below (digits_below h u hu)

theorem isText_unicodeEscape (u : UInt16) : IsText (unicodeEscape u) := by
  have hex (n : Nat) (hn : n < 16) : (lowerHex n).toNat < 0x80 := by
    have : ∀ n < 16, (lowerHex n).toNat < 0x80 := by decide
    exact this n hn
  have hr := u.toNat_lt
  refine isText_plain fun w hw => plain_below ?_
  simp only [unicodeEscape, List.mem_cons, List.not_mem_nil, or_false] at hw
  rcases hw with rfl | rfl | rfl | rfl | rfl | rfl
  · decide
  · decide
  all_goals exact hex _ (by omega)

theorem isText_escapeUnit {u : UInt16} (hu : isHighSurrogate u = false)
    (hl : isLowSurrogate u = false) : IsText (escapeUnit u) := by
  unfold escapeUnit
  split_ifs
  all_goals try decide
  · exact isText_unicodeEscape u
  · exact isText_plain (by simp [hu, hl])

/-- Escaping leaves no lone surrogate behind. -/
theorem isText_escape (s : QString) : IsText (escape s) := by
  fun_induction escape s with
  | case1 => exact isText_nil
  | case2 u hu => exact isText_unicodeEscape u
  | case3 u hu v tail hv ih => exact (isText_cons_pair hu hv).mpr ih
  | case4 u hu v tail hv ih => exact (isText_unicodeEscape u).append ih
  | case5 u rest hu hl ih => exact (isText_unicodeEscape u).append ih
  | case6 u rest hu hl ih =>
    exact (isText_escapeUnit (Bool.eq_false_iff.mpr hu) (Bool.eq_false_iff.mpr hl)).append ih

theorem isText_quoted {s : QString} (h : IsText s) : IsText (unit '"' :: (s ++ [unit '"'])) :=
  (isText_cons_single (by decide) (by decide)).mpr (h.append (isText_qstr "\""))

theorem isText_renderString (s : QString) : IsText (renderString s) := isText_quoted (isText_escape s)

section Valid

variable {text : QString → Prop} {num : Double → Prop} {number : Double → QString}

mutual
theorem isText_render (hn : ∀ x, num x → IsText (number x)) :
    ∀ {v : QJsonValue}, Valid text num v → IsText (render number v)
  | .null, _ => isText_qstr "null"
  | .bool true, _ => isText_qstr "true"
  | .bool false, _ => isText_qstr "false"
  | .double x, h => hn x h
  | .string s, _ => isText_renderString s
  | .array items, h => by
    have hi := isText_renderItems hn (v := items) h
    exact (isText_cons_single (by decide) (by decide)).mpr (hi.append (isText_qstr "]"))
  | .object entries, h => by
    have hm := isText_renderMembers hn (v := entries) h.2
    exact (isText_cons_single (by decide) (by decide)).mpr (hm.append (isText_qstr "\x7d"))

theorem isText_renderItems (hn : ∀ x, num x → IsText (number x)) :
    ∀ {v : List QJsonValue}, ValidItems text num v → IsText (renderItems number v)
  | [], _ => by
    rw [renderItems]
    exact isText_nil
  | [v], h => by
    rw [renderItems]
    exact (isText_render hn (v := v) h.1).append isText_nil
  | v :: w :: rest, h => by
    rw [renderItems]
    exact (isText_render hn (v := v) h.1).append
      ((isText_cons_single (by decide) (by decide)).mpr (isText_renderItems hn (v := w :: rest) h.2))

theorem isText_renderMembers (hn : ∀ x, num x → IsText (number x)) :
    ∀ {v : List (QString × QJsonValue)}, ValidMembers text num v → IsText (renderMembers number v)
  | [], _ => by
    rw [renderMembers]
    exact isText_nil
  | [(k, v)], h => by
    rw [renderMembers]
    exact (isText_renderString k).append
      ((isText_cons_single (by decide) (by decide)).mpr
        ((isText_render hn (v := v) h.2.1).append isText_nil))
  | (k, v) :: e :: rest, h => by
    obtain ⟨l, w⟩ := e
    rw [renderMembers]
    exact (isText_renderString k).append
      ((isText_cons_single (by decide) (by decide)).mpr
        ((isText_render hn (v := v) h.2.1).append
          ((isText_cons_single (by decide) (by decide)).mpr
            (isText_renderMembers hn (v := (l, w) :: rest) h.2.2))))
end

end Valid

end HyprShelld
