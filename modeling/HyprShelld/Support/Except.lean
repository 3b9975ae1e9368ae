import Mathlib.Tactic.Common

/-! Inversion of fallible computations: a bind that succeeds has a first part that
succeeded. -/
namespace HyprShelld

theorem bind_ok_iff {ε α β : Type} {x : Except ε α} {f : α → Except ε β} {r : β} :
    (x >>= f) = .ok r ↔ ∃ a, x = .ok a ∧ f a = .ok r := by
  cases x with
  | error e =>
    constructor
    · intro h
      cases h
    · rintro ⟨a, h, _⟩
      cases h
  | ok a =>
    constructor
    · exact fun h => ⟨a, rfl, h⟩
    · rintro ⟨b, h, hf⟩
      cases h
      exact hf

theorem bind_error_iff {ε α β : Type} {x : Except ε α} {f : α → Except ε β} {e : ε} :
    (x >>= f) = .error e ↔ x = .error e ∨ ∃ a, x = .ok a ∧ f a = .error e := by
  cases x with
  | error e' =>
    constructor
    · intro h
      cases h
      exact .inl rfl
    · rintro (h | ⟨_, h, _⟩)
      · cases h
        rfl
      · cases h
  | ok a =>
    constructor
    · exact fun h => .inr ⟨a, rfl, h⟩
    · rintro (h | ⟨b, h, hf⟩)
      · cases h
      · cases h
        exact hf

theorem ok_of_toOption {ε α : Type} {x : Except ε α} {a : α} (h : x.toOption = some a) : x = .ok a := by
  cases x with
  | error e => cases h
  | ok b =>
    cases h
    rfl

@[simp] theorem pure_ok_iff {ε α : Type} {a b : α} : (pure a : Except ε α) = .ok b ↔ a = b := by
  constructor
  · intro h
    cases h
    rfl
  · rintro rfl
    rfl

/-- Fail unless a condition holds. -/
def require {ε : Type} (condition : Bool) (e : ε) : Except ε Unit := if condition then .ok () else .error e

@[simp] theorem require_ok_iff {ε : Type} {condition : Bool} {e : ε} {u : Unit} :
    require condition e = .ok u ↔ condition = true := by
  cases condition <;> simp [require]

@[simp] theorem require_error_iff {ε : Type} {condition : Bool} {e e' : ε} :
    require condition e = .error e' ↔ condition = false ∧ e' = e := by
  cases condition <;> simp [require, eq_comm]

/-- The value of an optional result, or an error. -/
def orError {ε α : Type} (value : Option α) (e : ε) : Except ε α := value.elim (.error e) .ok

@[simp] theorem orError_ok_iff {ε α : Type} {value : Option α} {e : ε} {a : α} :
    orError value e = .ok a ↔ value = some a := by
  cases value <;> simp [orError]

@[simp] theorem orError_error_iff {ε α : Type} {value : Option α} {e e' : ε} :
    orError value e = .error e' ↔ value = none ∧ e' = e := by
  cases value <;> simp [orError, eq_comm]

end HyprShelld
