import HyprShelld.Text.Utf16
import HyprShelld.Support.Checked

/-! Validation errors and results. -/
namespace HyprShelld

structure ValidationError where
  path : QString
  code : QString
  message : QString
  deriving DecidableEq

abbrev ValidationErrors := List ValidationError

structure ValidationResult (α : Type) where
  value : Option α
  errors : ValidationErrors
  deriving DecidableEq

/-- A value is handed out only when nothing was reported. -/
def ValidationResult.ok {α : Type} (r : ValidationResult α) : Bool := r.value.isSome && r.errors.isEmpty

abbrev Reads (α : Type) := Checked ValidationError α

/-- The error of a check whose texts are fixed. -/
def issue (path : QString) (code message : String) : ValidationError := ⟨path, qstr code, qstr message⟩

def addError (path : QString) (code message : String) : Reads Unit := .report (issue path code message)

def Checked.result {α : Type} (c : Reads α) : ValidationResult α :=
  ⟨if c.errors = [] then some c.value else none, c.errors⟩

theorem Checked.result_value {α : Type} {c : Reads α} {a : α} :
    c.result.value = some a ↔ c.errors = [] ∧ c.value = a := by
  simp [Checked.result]

theorem Checked.result_errors {α : Type} {c : Reads α} (h : c.result.value = none) : c.result.errors ≠ [] := by
  intro he
  have he : c.errors = [] := he
  rw [Checked.result, if_pos he] at h
  cases h

theorem forEach_errors {α : Type} {f : Nat → α → Reads Unit} {i : Nat} {items : List α}
    (h : (Checked.forEach f i items).errors = []) : ∀ a ∈ items, ∃ j, (f j a).errors = [] := by
  induction items generalizing i with
  | nil => simp
  | cons a items ih =>
    obtain ⟨ha, h⟩ := List.append_eq_nil_iff.mp h
    intro b hb
    rcases List.mem_cons.mp hb with rfl | hb
    · exact ⟨i, ha⟩
    · exact ih h b hb

end HyprShelld
