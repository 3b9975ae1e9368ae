import Mathlib.Data.List.Basic
import Mathlib.Tactic.Common

/-! Computations that report errors and go on: a value read, with everything reported on the way. -/
namespace HyprShelld

structure Checked (ε α : Type) where
  value : α
  errors : List ε

namespace Checked
variable {ε α β : Type}

instance : Monad (Checked ε) where
  pure a := ⟨a, []⟩
  bind c f := ⟨(f c.value).value, c.errors ++ (f c.value).errors⟩

@[simp] theorem pure_value (a : α) : (pure a : Checked ε α).value = a := rfl
@[simp] theorem pure_errors (a : α) : (pure a : Checked ε α).errors = [] := rfl
@[simp] theorem bind_value (c : Checked ε α) (f : α → Checked ε β) : (c >>= f).value = (f c.value).value := rfl
@[simp] theorem bind_errors (c : Checked ε α) (f : α → Checked ε β) :
    (c >>= f).errors = c.errors ++ (f c.value).errors := rfl

def report (e : ε) : Checked ε Unit := ⟨(), [e]⟩

def rejectIf (bad : Bool) (e : ε) : Checked ε Unit := if bad then report e else pure ()

@[simp] theorem rejectIf_errors {bad : Bool} {e : ε} : (rejectIf bad e).errors = [] ↔ bad = false := by
  cases bad <;> simp [rejectIf, report]

/-- Errors found elsewhere are passed on. -/
def reportAll (errors : List ε) : Checked ε Unit := ⟨(), errors⟩

@[simp] theorem reportAll_errors (errors : List ε) : (reportAll errors).errors = errors := rfl

/-- Check every item at its index. -/
def forEach (f : Nat → α → Checked ε Unit) : Nat → List α → Checked ε Unit
  | _, [] => pure ()
  | i, a :: rest => do
    f i a
    forEach f (i + 1) rest

theorem forEach_errors_iff {f : α → Checked ε Unit} {i : Nat} {items : List α} :
    (forEach (fun _ => f) i items).errors = [] ↔ ∀ a ∈ items, (f a).errors = [] := by
  induction items generalizing i with
  | nil => simp [forEach]
  | cons a items ih => simp [forEach, ih]

theorem forEach_congr {f g : Nat → α → Checked ε Unit} {items : List α} (h : ∀ i, ∀ a ∈ items, f i a = g i a) (i : Nat) :
    forEach f i items = forEach g i items := by
  induction items generalizing i with
  | nil => rfl
  | cons a items ih =>
    rw [forEach, forEach, h i a List.mem_cons_self, ih fun j b hb => h j b (List.mem_cons_of_mem _ hb)]

/-- The computation returns the value and reports nothing. -/
def Clean (c : Checked ε α) (a : α) : Prop := c = ⟨a, []⟩

theorem clean_self {c : Checked ε α} (h : c.errors = []) : Clean c c.value := by
  obtain ⟨a, errors⟩ := c
  subst h
  rfl

theorem Clean.errors {c : Checked ε α} {a : α} (h : Clean c a) : c.errors = [] := by
  rw [show c = ⟨a, []⟩ from h]

@[simp] theorem clean_pure {a b : α} : Clean (pure a : Checked ε α) b ↔ a = b := by
  constructor
  · intro h
    injection h
  · rintro rfl
    rfl

@[simp] theorem clean_bind {c : Checked ε α} {f : α → Checked ε β} {b : β} :
    Clean (c >>= f) b ↔ ∃ a, Clean c a ∧ Clean (f a) b := by
  constructor
  · intro h
    have herrors : c.errors ++ (f c.value).errors = [] := congrArg Checked.errors h
    obtain ⟨hc, hf⟩ := List.append_eq_nil_iff.mp herrors
    have hb : (f c.value).value = b := congrArg Checked.value h
    exact ⟨c.value, clean_self hc, hb ▸ clean_self hf⟩
  · rintro ⟨a, ha, hb⟩
    rw [show c = ⟨a, []⟩ from ha]
    have hf : f a = ⟨b, []⟩ := hb
    show (⟨(f a).value, [] ++ (f a).errors⟩ : Checked ε β) = ⟨b, []⟩
    rw [hf]
    rfl

@[simp] theorem clean_report {e : ε} {u : Unit} : ¬ Clean (report e) u := by
  intro h
  cases h

@[simp] theorem clean_rejectIf {bad : Bool} {e : ε} {u : Unit} : Clean (rejectIf bad e) u ↔ bad = false := by
  cases bad <;> simp [rejectIf]

/-- Report every key that an earlier item already had; items without a key are passed over. -/
def rejectRepeated {κ : Type} [DecidableEq κ] (error : Nat → ε) : Nat → List κ → List (Option κ) → Checked ε Unit
  | _, _, [] => pure ()
  | i, seen, none :: rest => rejectRepeated error (i + 1) seen rest
  | i, seen, some k :: rest => do
    rejectIf (seen.contains k) (error i)
    rejectRepeated error (i + 1) (k :: seen) rest

theorem rejectRepeated_errors_iff {κ : Type} [DecidableEq κ] {error : Nat → ε} {i : Nat} {seen : List κ}
    {keys : List (Option κ)} : (rejectRepeated error i seen keys).errors = [] ↔
      (keys.filterMap id).Nodup ∧ ∀ k ∈ keys.filterMap id, k ∉ seen := by
  induction keys generalizing i seen with
  | nil => simp [rejectRepeated]
  | cons key keys ih =>
    cases key with
    | none => exact ih
    | some k =>
      rw [List.filterMap_cons_some (f := id) (b := k) rfl, List.nodup_cons]
      simp only [rejectRepeated, bind_errors, List.append_eq_nil_iff, rejectIf_errors, ih]
      constructor
      · rintro ⟨hk, hn, hs⟩
        refine ⟨⟨fun hm => hs k hm List.mem_cons_self, hn⟩, fun l hl => ?_⟩
        rcases List.mem_cons.mp hl with rfl | hl
        · simpa using hk
        · exact fun hm => hs l hl (List.mem_cons_of_mem _ hm)
      · rintro ⟨⟨hk, hn⟩, hs⟩
        refine ⟨by simpa using hs k List.mem_cons_self, hn, fun l hl hm => ?_⟩
        rcases List.mem_cons.mp hm with rfl | hm
        · exact hk hl
        · exact hs l (List.mem_cons_of_mem _ hl) hm

theorem rejectRepeated_errors {κ : Type} [DecidableEq κ] {error : Nat → ε} {i : Nat} {seen : List κ}
    {keys : List (Option κ)} (h : (rejectRepeated error i seen keys).errors = []) :
    (keys.filterMap id).Nodup ∧ ∀ k ∈ keys.filterMap id, k ∉ seen := rejectRepeated_errors_iff.mp h

end Checked
end HyprShelld
