import Mathlib.Data.List.Basic
import Mathlib.Tactic.Common

/-! UTF-16 strings as QString stores them: lists of code units, of which only
those without a lone surrogate stand for Unicode text. -/
namespace HyprShelld

/-- A string of UTF-16 code units; its length is QString::size. -/
abbrev QString := List UInt16

def isHighSurrogate (u : UInt16) : Bool := 0xd800 ≤ u.toNat && u.toNat < 0xdc00
def isLowSurrogate (u : UInt16) : Bool := 0xdc00 ≤ u.toNat && u.toNat < 0xe000

/-- The code units of one Unicode scalar value. -/
def utf16Unit (c : Char) : QString :=
  if c.toNat < 0x10000 then [UInt16.ofNat c.toNat]
  else [UInt16.ofNat (0xd800 + (c.toNat - 0x10000) / 0x400),
    UInt16.ofNat (0xdc00 + (c.toNat - 0x10000) % 0x400)]

def utf16 (cs : List Char) : QString := cs.flatMap utf16Unit

/-- The code units of a literal of the source. -/
def qstr (s : String) : QString := utf16 s.toList

/-- One UTF-16 unit of an ASCII character of the source. -/
def unit (c : Char) : UInt16 := UInt16.ofNat c.toNat

def surrogateToUcs4 (high low : UInt16) : Nat :=
  (high.toNat - 0xd800) * 0x400 + (low.toNat - 0xdc00) + 0x10000

/-- The scalar values a string stands for, none at a lone surrogate. -/
def scalars : QString → Option (List Char)
  | [] => some []
  | u :: rest =>
    if isHighSurrogate u then
      match rest with
      | [] => none
      | v :: rest =>
        if isLowSurrogate v then (Char.ofNat (surrogateToUcs4 u v) :: ·) <$> scalars rest else none
    else if isLowSurrogate u then none
    else (Char.ofNat u.toNat :: ·) <$> scalars rest

/-- Strings that are UTF-16 of Unicode text. -/
def IsText (s : QString) : Prop := ∃ cs, s = utf16 cs

theorem scalars_single {u : UInt16} (s : QString) (hu : isHighSurrogate u = false)
    (hl : isLowSurrogate u = false) : scalars (u :: s) = (Char.ofNat u.toNat :: ·) <$> scalars s := by
  rw [scalars.eq_def]
  simp [hu, hl]

theorem scalars_pair {u v : UInt16} (s : QString) (hu : isHighSurrogate u = true)
    (hl : isLowSurrogate v = true) :
    scalars (u :: v :: s) = (Char.ofNat (surrogateToUcs4 u v) :: ·) <$> scalars s := by
  simp [scalars, hu, hl]

@[simp] theorem utf16_nil : utf16 [] = [] := rfl
@[simp] theorem utf16_cons (c : Char) (cs : List Char) : utf16 (c :: cs) = utf16Unit c ++ utf16 cs := rfl
@[simp] theorem utf16_append (a b : List Char) : utf16 (a ++ b) = utf16 a ++ utf16 b := by
  simp [utf16]

theorem IsText.append {a b : QString} (ha : IsText a) (hb : IsText b) : IsText (a ++ b) := by
  obtain ⟨x, rfl⟩ := ha
  obtain ⟨y, rfl⟩ := hb
  exact ⟨x ++ y, (utf16_append x y).symm⟩

theorem isText_nil : IsText [] := ⟨[], rfl⟩
theorem isText_qstr (s : String) : IsText (qstr s) := ⟨s.toList, rfl⟩

private theorem char_range (c : Char) : c.toNat < 0xd800 ∨ 0xdfff < c.toNat ∧ c.toNat < 0x110000 := by
  have h := c.valid
  simp only [UInt32.isValidChar, Nat.isValidChar] at h
  exact h

/-- The surrogate pair of a supplementary scalar value. -/
private theorem supplementary (c : Char) (h : ¬ c.toNat < 0x10000) :
    ∃ u v, utf16Unit c = [u, v] ∧ isHighSurrogate u = true ∧ isLowSurrogate v = true ∧
      surrogateToUcs4 u v = c.toNat := by
  have hr := char_range c
  refine ⟨_, _, if_neg h, ?_, ?_, ?_⟩
  all_goals
    simp only [isHighSurrogate, isLowSurrogate, surrogateToUcs4, Bool.and_eq_true, decide_eq_true_eq,
      UInt16.toNat_ofNat']
    omega

private theorem basic (c : Char) (h : c.toNat < 0x10000) :
    utf16Unit c = [UInt16.ofNat c.toNat] ∧ (UInt16.ofNat c.toNat).toNat = c.toNat ∧
      isHighSurrogate (UInt16.ofNat c.toNat) = false ∧ isLowSurrogate (UInt16.ofNat c.toNat) = false := by
  have hr := char_range c
  have hn : (UInt16.ofNat c.toNat).toNat = c.toNat := by
    rw [UInt16.toNat_ofNat']
    omega
  refine ⟨if_pos h, hn, ?_, ?_⟩
  all_goals
    simp only [isHighSurrogate, isLowSurrogate, hn, Bool.and_eq_false_imp, decide_eq_true_eq,
      decide_eq_false_iff_not]
    omega

/-- Reading one scalar value back off the front of a string. -/
theorem scalars_utf16Unit (c : Char) (rest : QString) :
    scalars (utf16Unit c ++ rest) = (c :: ·) <$> scalars rest := by
  by_cases h : c.toNat < 0x10000
  · obtain ⟨he, hn, hh, hl⟩ := basic c h
    rw [he, List.singleton_append, scalars_single _ hh hl, hn, Char.ofNat_toNat]
  · obtain ⟨u, v, he, hu, hv, hs⟩ := supplementary c h
    rw [he, List.cons_append, List.singleton_append, scalars_pair _ hu hv, hs, Char.ofNat_toNat]

theorem scalars_utf16_append (cs : List Char) (rest : QString) :
    scalars (utf16 cs ++ rest) = (cs ++ ·) <$> scalars rest := by
  induction cs with
  | nil => simp
  | cons c cs ih =>
    rw [utf16_cons, List.append_assoc, scalars_utf16Unit, ih, ← comp_map]
    rfl

@[simp] theorem scalars_utf16 (cs : List Char) : scalars (utf16 cs) = some cs := by
  simpa [scalars] using scalars_utf16_append cs []

theorem utf16_injective : Function.Injective utf16 := by
  intro a b h
  have := congrArg scalars h
  simpa using this

theorem qstr_append (a b : String) : qstr (a ++ b) = qstr a ++ qstr b := by
  rw [qstr, String.toList_append, utf16_append, qstr, qstr]

@[simp] theorem qstr_inj {a b : String} : qstr a = qstr b ↔ a = b := by
  constructor
  · intro h
    exact String.toList_injective (utf16_injective h)
  · rintro rfl
    rfl

private theorem toNat_ofNat_scalar {n : Nat} (h : n < 0xd800 ∨ 0xdfff < n ∧ n < 0x110000) :
    (Char.ofNat n).toNat = n := by
  have hv : Nat.isValidChar n := h
  rw [Char.ofNat, dif_pos hv]
  rfl

private theorem utf16Unit_pair (u v : UInt16) (hu : isHighSurrogate u = true) (hv : isLowSurrogate v = true) :
    utf16Unit (Char.ofNat (surrogateToUcs4 u v)) = [u, v] := by
  simp only [isHighSurrogate, isLowSurrogate, Bool.and_eq_true, decide_eq_true_eq] at hu hv
  have hs : surrogateToUcs4 u v =
      (u.toNat - 0xd800) * 0x400 + (v.toNat - 0xdc00) + 0x10000 := rfl
  have hn := toNat_ofNat_scalar (n := surrogateToUcs4 u v) (by omega)
  have hlt : ¬ surrogateToUcs4 u v < 0x10000 := by omega
  rw [utf16Unit, hn, if_neg hlt]
  have h1 : 0xd800 + (surrogateToUcs4 u v - 0x10000) / 0x400 = u.toNat := by omega
  have h2 : 0xdc00 + (surrogateToUcs4 u v - 0x10000) % 0x400 = v.toNat := by omega
  rw [h1, h2, UInt16.ofNat_toNat, UInt16.ofNat_toNat]

private theorem utf16Unit_single (u : UInt16) (hu : isHighSurrogate u = false) (hv : isLowSurrogate u = false) :
    utf16Unit (Char.ofNat u.toNat) = [u] := by
  simp only [isHighSurrogate, isLowSurrogate, Bool.and_eq_false_imp, decide_eq_true_eq,
    decide_eq_false_iff_not] at hu hv
  have hb := u.toNat_lt
  have hn := toNat_ofNat_scalar (n := u.toNat) (by omega)
  rw [utf16Unit, hn, if_pos (by omega), UInt16.ofNat_toNat]

/-- Only UTF-16 of the scalar values returned is accepted. -/
theorem utf16_of_scalars {s : QString} {cs : List Char} (h : scalars s = some cs) : utf16 cs = s := by
  induction s using scalars.induct generalizing cs with
  | case1 =>
    cases h
    rfl
  | case2 u hu => simp [scalars, hu] at h
  | case3 u hu v rest hv ih =>
    rw [scalars_pair _ hu hv, Option.map_eq_map, Option.map_eq_some_iff] at h
    obtain ⟨ds, hd, rfl⟩ := h
    rw [utf16_cons, utf16Unit_pair u v hu hv, ih hd]
    rfl
  | case4 u hu v rest hv => simp [scalars, hu, hv] at h
  | case5 u rest hu hl =>
    rw [scalars.eq_def] at h
    simp [hu, hl] at h
  | case6 u rest hu hl ih =>
    have hu' := Bool.eq_false_iff.mpr hu
    have hl' := Bool.eq_false_iff.mpr hl
    rw [scalars_single _ hu' hl', Option.map_eq_map, Option.map_eq_some_iff] at h
    obtain ⟨ds, hd, rfl⟩ := h
    rw [utf16_cons, utf16Unit_single u hu' hl', ih hd]
    rfl

theorem isText_iff (s : QString) : IsText s ↔ (scalars s).isSome = true := by
  constructor
  · rintro ⟨cs, rfl⟩
    simp
  · intro h
    obtain ⟨cs, hs⟩ := Option.isSome_iff_exists.mp h
    exact ⟨cs, (utf16_of_scalars hs).symm⟩

instance (s : QString) : Decidable (IsText s) := decidable_of_iff _ (isText_iff s).symm

theorem isText_cons_single {u : UInt16} {s : QString} (hu : isHighSurrogate u = false)
    (hl : isLowSurrogate u = false) : IsText (u :: s) ↔ IsText s := by
  simp [isText_iff, scalars_single s hu hl]

theorem isText_cons_pair {u v : UInt16} {s : QString} (hu : isHighSurrogate u = true)
    (hl : isLowSurrogate v = true) : IsText (u :: v :: s) ↔ IsText s := by
  simp [isText_iff, scalars_pair s hu hl]

end HyprShelld
