import Mathlib.Tactic.Common

/-! Runs of a deterministic system under a sequence of events. -/
namespace HyprShelld

variable {σ ε : Type}

def run (step : σ → ε → σ) (s : σ) (events : List ε) : σ := events.foldl step s

@[simp] theorem run_nil (step : σ → ε → σ) (s : σ) : run step s [] = s := rfl

@[simp] theorem run_cons (step : σ → ε → σ) (s : σ) (e : ε) (events : List ε) :
    run step s (e :: events) = run step (step s e) events := rfl

theorem run_append (step : σ → ε → σ) (s : σ) (a b : List ε) :
    run step s (a ++ b) = run step (run step s a) b := List.foldl_append

/-- What every allowed event preserves holds at the end of every run of allowed events. -/
theorem run_invariant {step : σ → ε → σ} {allowed : ε → Prop} {P : σ → Prop}
    (preserves : ∀ s e, allowed e → P s → P (step s e)) {s : σ} (h : P s) {events : List ε}
    (hevents : ∀ e ∈ events, allowed e) : P (run step s events) := by
  induction events generalizing s with
  | nil => exact h
  | cons e events ih =>
    exact ih (preserves s e (hevents e List.mem_cons_self) h) fun f hf => hevents f (List.mem_cons_of_mem _ hf)

/-- A run in which every event is allowed where it happens. -/
def Permitted (step : σ → ε → σ) (allowed : σ → ε → Prop) : σ → List ε → Prop
  | _, [] => True
  | s, e :: events => allowed s e ∧ Permitted step allowed (step s e) events

instance decidablePermitted (step : σ → ε → σ) (allowed : σ → ε → Prop) [∀ s e, Decidable (allowed s e)] :
    (s : σ) → (events : List ε) → Decidable (Permitted step allowed s events)
  | _, [] => .isTrue trivial
  | s, e :: events =>
    haveI := decidablePermitted step allowed (step s e) events
    inferInstanceAs (Decidable (allowed s e ∧ Permitted step allowed (step s e) events))

theorem permitted_append {step : σ → ε → σ} {allowed : σ → ε → Prop} {a b : List ε} {s : σ} :
    Permitted step allowed s (a ++ b) ↔ Permitted step allowed s a ∧ Permitted step allowed (run step s a) b := by
  induction a generalizing s with
  | nil => simp [Permitted]
  | cons e a ih => simp [Permitted, ih, and_assoc]

theorem permitted_of_forall {step : σ → ε → σ} {allowed : σ → ε → Prop} {events : List ε}
    (h : ∀ s, ∀ e ∈ events, allowed s e) (s : σ) : Permitted step allowed s events := by
  induction events generalizing s with
  | nil => trivial
  | cons e events ih => exact ⟨h s e List.mem_cons_self, ih (fun s f hf => h s f (List.mem_cons_of_mem _ hf)) _⟩

theorem run_permitted {step : σ → ε → σ} {allowed : σ → ε → Prop} {P : σ → Prop}
    (preserves : ∀ s e, allowed s e → P s → P (step s e)) {s : σ} (h : P s) {events : List ε}
    (hevents : Permitted step allowed s events) : P (run step s events) := by
  induction events generalizing s with
  | nil => exact h
  | cons e events ih => exact ih (preserves s e hevents.1 h) hevents.2

end HyprShelld
