import Mathlib.Logic.Relation
import Mathlib.Data.List.Basic

/-! Settings that fall back to a default of their own or to the setting of a parent. -/
namespace HyprShelld

section
variable {α β : Type} (parent : α → Option α) (default : α → β) (valid : α → β → Prop)

/-- A setting resolves to its override, else to its parent's setting, else to its default; it has to be
valid wherever it is passed on. -/
inductive Resolves (overrides : α → Option β) : α → β → Prop where
  | override {a : α} {b : β} (hown : overrides a = some b) (hvalid : valid a b) : Resolves overrides a b
  | inherited {a s : α} {b : β} (hown : overrides a = none) (hparent : parent a = some s) (hsource : Resolves overrides s b)
    (hvalid : valid a b) : Resolves overrides a b
  | default {a : α} (hown : overrides a = none) (hparent : parent a = none) (hvalid : valid a (default a)) :
    Resolves overrides a (default a)

/-- One setting inherits from the other. -/
def Inherits (a s : α) : Prop := parent a = some s

/-- What the parents of a setting resolve to, if they did not come back to it. -/
def Grounded (a : α) : Prop := Acc (fun s a => Inherits parent a s) a

end

section
variable {α β : Type} {parent : α → Option α} {default : α → β} {valid : α → β → Prop}
  {full kept : α → Option β} {a : α} {b c : β}

theorem Resolves.isValid (h : Resolves parent default valid full a b) : valid a b := by
  cases h with
  | override _ hvalid => exact hvalid
  | inherited _ _ _ hvalid => exact hvalid
  | default _ _ hvalid => exact hvalid

theorem Resolves.unique (h : Resolves parent default valid full a b) (h' : Resolves parent default valid full a c) : b = c := by
  induction h with
  | override hown _ =>
    cases h' with
    | override hown' _ => exact Option.some_inj.mp (hown.symm.trans hown')
    | inherited hnone _ _ _ => cases hown.symm.trans hnone
    | default hnone _ _ => cases hown.symm.trans hnone
  | inherited hown hparent _ _ ih =>
    cases h' with
    | override hown' _ => cases hown.symm.trans hown'
    | inherited _ hparent' hsource _ =>
      obtain rfl := Option.some_inj.mp (hparent.symm.trans hparent')
      exact ih hsource
    | default _ hnone _ => cases hparent.symm.trans hnone
  | default hown hparent _ =>
    cases h' with
    | override hown' _ => cases hown.symm.trans hown'
    | inherited _ hparent' _ _ => cases hparent.symm.trans hparent'
    | default _ _ _ => rfl

/-- Only the overrides of a setting and of what it inherits from bear on it. -/
theorem Resolves.congr (h : Resolves parent default valid full a b)
    (hsame : ∀ x, Relation.ReflTransGen (Inherits parent) a x → kept x = full x) :
    Resolves parent default valid kept a b := by
  induction h with
  | override hown hvalid => exact .override ((hsame _ .refl).trans hown) hvalid
  | inherited hown hparent _ hvalid ih =>
    exact .inherited ((hsame _ .refl).trans hown) hparent (ih fun x hx => hsame x (.head hparent hx)) hvalid
  | default hown hparent hvalid => exact .default ((hsame _ .refl).trans hown) hparent hvalid

/-- A setting that is grounded does not inherit from itself. -/
theorem Grounded.apart (h : Grounded parent a) {x : α} (hx : Relation.TransGen (Inherits parent) a x) : x ≠ a := by
  rintro rfl
  induction h with
  | intro a _ ih =>
    obtain ⟨s, hs, hsa⟩ := Relation.TransGen.head'_iff.mp hx
    exact ih s hs (.tail' hsa hs)

/-- The override of a setting says what the setting would resolve to without it. -/
def Redundant (parent : α → Option α) (default : α → β) (valid : α → β → Prop) (full : α → Option β) (a : α) : Prop :=
  ∃ b without, full a = some b ∧ without a = none ∧
    (∀ x, Relation.TransGen (Inherits parent) a x → without x = full x) ∧ Resolves parent default valid without a b

/-- Dropping redundant overrides, any number of them at once, changes no setting. -/
theorem Resolves.drop (h : Resolves parent default valid full a b) (hgrounded : Grounded parent a)
    (hkept : ∀ x, Relation.ReflTransGen (Inherits parent) a x →
      kept x = full x ∨ kept x = none ∧ Redundant parent default valid full x) :
    Resolves parent default valid kept a b := by
  induction hgrounded generalizing b with
  | intro a hground ih =>
    have hsource {s : α} {b : β} (hs : Inherits parent a s) (hb : Resolves parent default valid full s b) :
        Resolves parent default valid kept s b := ih s hs hb fun x hx => hkept x (.head hs hx)
    rcases hkept a .refl with hown | ⟨hnone, d, without, hfull, herased, hsame, hwithout⟩
    · cases h with
      | override hfull hvalid => exact .override (hown.trans hfull) hvalid
      | inherited hfull hparent hs hvalid => exact .inherited (hown.trans hfull) hparent (hsource hparent hs) hvalid
      | default hfull hparent hvalid => exact .default (hown.trans hfull) hparent hvalid
    · obtain rfl : b = d := h.unique (.override hfull hwithout.isValid)
      cases hwithout with
      | override hown _ => cases herased.symm.trans hown
      | inherited _ hparent hs hvalid =>
        refine .inherited hnone hparent (hsource hparent (hs.congr fun x hx => ?_)) hvalid
        exact (hsame x (.head' hparent hx)).symm
      | default _ hparent hvalid => exact .default hnone hparent hvalid

end

end HyprShelld
