import Mathlib.Data.List.Basic

/-! Streams of lines that end at a separator, received in fragments. -/
namespace HyprShelld.Lines

variable {α : Type} [DecidableEq α] (separator : α)

/-- The complete lines of a text, and what follows the last separator. -/
def split : List α → List (List α) × List α
  | [] => ([], [])
  | a :: s =>
    if a = separator then ([] :: (split s).1, (split s).2)
    else match split s with
      | ([], rest) => ([], a :: rest)
      | (line :: lines, rest) => ((a :: line) :: lines, rest)

def complete (s : List α) : List (List α) := (split separator s).1

def unfinished (s : List α) : List α := (split separator s).2

@[simp] theorem complete_cons_separator (s : List α) :
    complete separator (separator :: s) = [] :: complete separator s := by simp [complete, split]

@[simp] theorem unfinished_cons_separator (s : List α) :
    unfinished separator (separator :: s) = unfinished separator s := by simp [unfinished, split]

variable {separator}

theorem split_cons_of_nil {a : α} {s : List α} (ha : a ≠ separator) (hs : complete separator s = []) :
    complete separator (a :: s) = [] ∧ unfinished separator (a :: s) = a :: unfinished separator s := by
  unfold complete unfinished at *
  rw [split, if_neg ha]
  generalize split separator s = r at *
  obtain ⟨lines, rest⟩ := r
  dsimp only at hs
  subst hs
  exact ⟨rfl, rfl⟩

theorem split_cons_of_cons {a : α} {s line : List α} {lines : List (List α)} (ha : a ≠ separator)
    (hs : complete separator s = line :: lines) :
    complete separator (a :: s) = (a :: line) :: lines ∧ unfinished separator (a :: s) = unfinished separator s := by
  unfold complete unfinished at *
  rw [split, if_neg ha]
  generalize split separator s = r at *
  obtain ⟨found, rest⟩ := r
  dsimp only at hs
  subst hs
  exact ⟨rfl, rfl⟩

/-- What is left over has no complete line of its own. -/
theorem split_unfinished (s : List α) :
    complete separator (unfinished separator s) = [] ∧
      unfinished separator (unfinished separator s) = unfinished separator s := by
  induction s with
  | nil => exact ⟨rfl, rfl⟩
  | cons a s ih =>
    by_cases ha : a = separator
    · subst ha
      rwa [unfinished_cons_separator]
    · cases hs : complete separator s with
      | nil =>
        obtain ⟨hc, hu⟩ := split_cons_of_nil ha ih.1
        rw [(split_cons_of_nil ha hs).2]
        exact ⟨hc, hu.trans (by rw [ih.2])⟩
      | cons line lines =>
        rw [(split_cons_of_cons ha hs).2]
        exact ih

/-- The lines of a text that arrives in two parts: those of the first part, then those of the second
part behind what the first left over. -/
theorem split_append (s t : List α) :
    complete separator (s ++ t) = complete separator s ++ complete separator (unfinished separator s ++ t) ∧
      unfinished separator (s ++ t) = unfinished separator (unfinished separator s ++ t) := by
  induction s with
  | nil => exact ⟨rfl, rfl⟩
  | cons a s ih =>
    by_cases ha : a = separator
    · subst ha
      simp only [List.cons_append, complete_cons_separator, unfinished_cons_separator, ih.1, ih.2, and_self]
    · cases hs : complete separator s with
      | nil =>
        obtain ⟨hc, hu⟩ := split_cons_of_nil ha hs
        rw [hc, hu, List.nil_append]
        rw [hs, List.nil_append] at ih
        rw [List.cons_append, List.cons_append]
        cases ht : complete separator (s ++ t) with
        | nil =>
          have hleft := ih.1.symm.trans ht
          rw [(split_cons_of_nil ha ht).1, (split_cons_of_nil ha ht).2, (split_cons_of_nil ha hleft).1,
            (split_cons_of_nil ha hleft).2, ih.2]
          exact ⟨rfl, rfl⟩
        | cons line lines =>
          have hleft := ih.1.symm.trans ht
          rw [(split_cons_of_cons ha ht).1, (split_cons_of_cons ha ht).2, (split_cons_of_cons ha hleft).1,
            (split_cons_of_cons ha hleft).2, ih.2]
          exact ⟨rfl, rfl⟩
      | cons line lines =>
        obtain ⟨hc, hu⟩ := split_cons_of_cons ha hs
        rw [hs, List.cons_append] at ih
        rw [hc, hu, List.cons_append, List.cons_append, (split_cons_of_cons ha ih.1).1, (split_cons_of_cons ha ih.1).2]
        exact ⟨rfl, ih.2⟩

theorem complete_append (s t : List α) :
    complete separator (s ++ t) = complete separator s ++ complete separator (unfinished separator s ++ t) :=
  (split_append s t).1

/-- A line that was left over comes first once it is completed. -/
theorem complete_unfinished_append (s t : List α) :
    complete separator (unfinished separator s ++ t) = [] ∨
      ∃ line lines, complete separator (unfinished separator s ++ t) = (unfinished separator s ++ line) :: lines := by
  have hprefix (u : List α) (hu : separator ∉ u) : complete separator (u ++ t) = [] ∨
      ∃ line lines, complete separator (u ++ t) = (u ++ line) :: lines := by
    induction u with
    | nil =>
      cases h : complete separator t with
      | nil => exact .inl h
      | cons line lines => exact .inr ⟨line, lines, h⟩
    | cons a u ih =>
      have ha : a ≠ separator := fun h => hu (h ▸ List.mem_cons_self)
      rcases ih (fun h => hu (List.mem_cons_of_mem _ h)) with h | ⟨line, lines, h⟩
      · exact .inl (split_cons_of_nil ha h).1
      · exact .inr ⟨line, lines, (split_cons_of_cons ha h).1⟩
  refine hprefix _ ?_
  induction s with
  | nil => exact List.not_mem_nil
  | cons a s ih =>
    by_cases ha : a = separator
    · subst ha
      rwa [unfinished_cons_separator]
    · cases hs : complete separator s with
      | nil =>
        rw [(split_cons_of_nil ha hs).2]
        exact List.not_mem_cons_of_ne_of_not_mem (Ne.symm ha) ih
      | cons line lines => rwa [(split_cons_of_cons ha hs).2]

end HyprShelld.Lines
