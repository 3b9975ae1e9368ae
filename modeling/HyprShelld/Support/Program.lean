import Mathlib.Tactic.Common

/-! Programs as trees of calls: what a program does depends on the answers to its calls. -/
namespace HyprShelld

inductive Program (Call : Type) (Answer : Call → Type) (α : Type) where
  | done (a : α)
  | call (c : Call) (next : Answer c → Program Call Answer α)

namespace Program
variable {Call : Type} {Answer : Call → Type} {α β : Type}

def bind : Program Call Answer α → (α → Program Call Answer β) → Program Call Answer β
  | done a, f => f a
  | call c next, f => call c fun answer => (next answer).bind f

instance : Monad (Program Call Answer) where
  pure := done
  bind := bind

@[simp] theorem pure_eq (a : α) : (pure a : Program Call Answer α) = done a := rfl
@[simp] theorem done_bind (a : α) (f : α → Program Call Answer β) : (done a >>= f) = f a := rfl
@[simp] theorem call_bind (c : Call) (next : Answer c → Program Call Answer α) (f : α → Program Call Answer β) :
    (call c next >>= f) = call c fun answer => next answer >>= f := rfl

/-- One call, answered. -/
def ask (c : Call) : Program Call Answer (Answer c) := call c done

section Settled
variable (answer : (c : Call) → Answer c)

/-- The result where every call has a fixed answer. -/
def settled : Program Call Answer α → α
  | done a => a
  | call c next => (next (answer c)).settled

@[simp] theorem settled_bind (x : Program Call Answer α) (f : α → Program Call Answer β) :
    (x >>= f).settled answer = (f (x.settled answer)).settled answer := by
  induction x with
  | done a => rfl
  | call c next ih => exact ih (answer c)

end Settled

section Returns

/-- What a program returns with some answers to its calls. -/
inductive Returns : Program Call Answer α → α → Prop
  | done (a : α) : Returns (done a) a
  | call {c : Call} {next : Answer c → Program Call Answer α} {a : α} (answer : Answer c) :
    Returns (next answer) a → Returns (call c next) a

variable {x : Program Call Answer α} {f : α → Program Call Answer β} {a b : α}

@[simp] theorem returns_done : Returns (Program.done a : Program Call Answer α) b ↔ a = b := by
  constructor
  · rintro ⟨⟩
    rfl
  · rintro rfl
    exact .done a

@[simp] theorem returns_ask {c : Call} {answer : Answer c} : Returns (ask c : Program Call Answer (Answer c)) answer :=
  .call answer (.done answer)

theorem returns_call {c : Call} {next : Answer c → Program Call Answer α} :
    Returns (call c next) a ↔ ∃ answer, Returns (next answer) a := by
  constructor
  · intro h
    cases h with
    | call answer h => exact ⟨answer, h⟩
  · rintro ⟨answer, h⟩
    exact .call answer h

@[simp] theorem returns_bind {b : β} : Returns (x >>= f) b ↔ ∃ a, Returns x a ∧ Returns (f a) b := by
  induction x with
  | done a => simp
  | call c next ih =>
    simp only [call_bind, returns_call, ih]
    constructor
    · rintro ⟨answer, a, ha, hb⟩
      exact ⟨a, ⟨answer, ha⟩, hb⟩
    · rintro ⟨a, ⟨answer, ha⟩, hb⟩
      exact ⟨answer, a, ha, hb⟩

end Returns
end Program
end HyprShelld
