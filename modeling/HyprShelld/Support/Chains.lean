import Mathlib.Logic.Relation
import Mathlib.Data.List.Basic

/-! Chains of single successors, and the search for one that comes back. -/
namespace HyprShelld

/-- Following the relation from somewhere comes to something a second time. -/
def ReachesTwice {α : Type} (r : α → α → Prop) : Prop :=
  ∃ start x, Relation.ReflTransGen r start x ∧ Relation.TransGen r x x

theorem reachesTwice_iff {α : Type} {r : α → α → Prop} : ReachesTwice r ↔ ∃ x, Relation.TransGen r x x :=
  ⟨fun ⟨_, x, _, hx⟩ => ⟨x, hx⟩, fun ⟨x, hx⟩ => ⟨x, x, .refl, hx⟩⟩

/-- A cycle maps to a cycle where two steps in a row map to one step: every step of a cycle has a
step after it. -/
theorem transGen_lift_cycle {α β : Type} {r : α → α → Prop} {q : β → β → Prop} {f : α → β}
    (h : ∀ a b c, r a b → r b c → q (f a) (f b)) {x : α} (hx : Relation.TransGen r x x) :
    Relation.TransGen q (f x) (f x) := by
  have hlift : ∀ {a b}, Relation.TransGen r a b → ∀ c, r b c → Relation.TransGen q (f a) (f b) := by
    intro a b hab
    induction hab with
    | single hab => exact fun c hbc => .single (h _ _ c hab hbc)
    | tail _ hbd ih => exact fun c hdc => (ih _ hbd).tail (h _ _ c hbd hdc)
  obtain ⟨c, hxc, -⟩ := Relation.TransGen.head'_iff.mp hx
  exact hlift hx c hxc

section Chains
variable {α : Type} {succ : α → Option α}

/-- The chain goes on from one element to the other. -/
def Follows (succ : α → Option α) (x y : α) : Prop := succ x = some y

/-- Following the chain from here reaches some element a second time. -/
def Cyclic (succ : α → Option α) (x : α) : Prop :=
  ∃ r, Relation.ReflTransGen (Follows succ) x r ∧ Relation.TransGen (Follows succ) r r

theorem Cyclic.of_follows {x y : α} (hy : Follows succ x y) (h : Cyclic succ y) : Cyclic succ x := by
  obtain ⟨r, hyr, hr⟩ := h
  exact ⟨r, .head hy hyr, hr⟩

/-- A chain that comes back goes on at its start, and comes back from there. -/
theorem Cyclic.goes_on {x : α} (h : Cyclic succ x) : ∃ y, Follows succ x y ∧ Cyclic succ y := by
  obtain ⟨r, hxr, hr⟩ := h
  rcases hxr.cases_head with rfl | ⟨y, hy, hyr⟩
  · obtain ⟨y, hy, hyx⟩ := Relation.TransGen.head'_iff.mp hr
    exact ⟨y, hy, x, hyx, hr⟩
  · exact ⟨y, hy, r, hyr, hr⟩

theorem cyclic_iff_of_follows {x y : α} (hy : Follows succ x y) : Cyclic succ x ↔ Cyclic succ y := by
  constructor
  · intro h
    obtain ⟨z, hz, hcyclic⟩ := h.goes_on
    exact Option.some.inj (hz.symm.trans hy) ▸ hcyclic
  · exact .of_follows hy

variable [BEq α]

/-- Follow the chain until it ends or comes to a visited element: what was visited, where the chain
stopped, and whether it closed. The number bounds the rounds. -/
def chase (succ : α → Option α) : Nat → List α → α → List α × α × Bool
  | 0, visited, x => (visited, x, false)
  | rounds + 1, visited, x =>
    match succ x with
    | none => (visited, x, false)
    | some y => if visited.contains x then (visited, x, true) else chase succ rounds (x :: visited) y

theorem chase_of_none {x : α} (h : succ x = none) (rounds : Nat) (visited : List α) :
    chase succ rounds visited x = (visited, x, false) := by
  cases rounds with
  | zero => rfl
  | succ rounds => simp only [chase, h]

theorem chase_of_some {x y : α} (h : Follows succ x y) (rounds : Nat) (visited : List α) :
    chase succ (rounds + 1) visited x =
      if visited.contains x then (visited, x, true) else chase succ rounds (x :: visited) y := by
  simp only [chase, show succ x = some y from h]

theorem chase_reaches (rounds : Nat) (visited : List α) (x : α) :
    Relation.ReflTransGen (Follows succ) x (chase succ rounds visited x).2.1 := by
  induction rounds generalizing visited x with
  | zero => exact .refl
  | succ rounds ih =>
    cases hx : succ x with
    | none => rw [chase_of_none hx]
    | some y =>
      rw [chase_of_some hx]
      split
      · exact .refl
      · exact .head hx (ih (x :: visited) y)

variable [LawfulBEq α]

/-- Visiting one more element leaves fewer. -/
theorem unvisited_lt {keys visited : List α} {x : α} (hx : x ∈ keys) (hnew : x ∉ visited) :
    (keys.filter (· ∉ x :: visited)).length < (keys.filter (· ∉ visited)).length := by
  have hsplit : keys.filter (· ∉ x :: visited) = (keys.filter (· ∉ visited)).filter (· != x) := by
    rw [List.filter_filter]
    congr 1
    funext y
    simp [bne]
  rw [hsplit]
  have hmem : x ∈ keys.filter (· ∉ visited) := by simpa using ⟨hx, hnew⟩
  exact List.length_filter_lt_length_iff_exists.mpr ⟨x, hmem, by simp⟩

variable {keys : List α} (hkeys : ∀ x y, Follows succ x y → x ∈ keys)
include hkeys

/-- Every round visits another element that goes on, so with a round for each of them more rounds
change nothing. -/
theorem chase_rounds {rounds : Nat} {visited : List α} {x : α}
    (hrounds : (keys.filter (· ∉ visited)).length < rounds) (extra : Nat) :
    chase succ (rounds + extra) visited x = chase succ rounds visited x := by
  induction rounds generalizing visited x with
  | zero => exact absurd hrounds (Nat.not_lt_zero _)
  | succ rounds ih =>
    cases hx : succ x with
    | none => rw [chase_of_none hx, chase_of_none hx]
    | some y =>
      rw [Nat.add_right_comm, chase_of_some hx, chase_of_some hx]
      by_cases hseen : x ∈ visited
      · simp [hseen]
      · have hfewer := unvisited_lt (hkeys x y hx) hseen
        simp only [List.contains_iff_mem, hseen, if_false, @ih (x :: visited) y (by omega)]

/-- A search that did not close stopped at the end of the chain. -/
theorem chase_ends {rounds : Nat} {visited : List α} {x : α}
    (hrounds : (keys.filter (· ∉ visited)).length < rounds) (h : (chase succ rounds visited x).2.2 = false) :
    succ (chase succ rounds visited x).2.1 = none := by
  induction rounds generalizing visited x with
  | zero => exact absurd hrounds (Nat.not_lt_zero _)
  | succ rounds ih =>
    cases hx : succ x with
    | none => rwa [chase_of_none hx]
    | some y =>
      rw [chase_of_some hx] at h ⊢
      by_cases hseen : x ∈ visited
      · simp [hseen] at h
      · have hfewer := unvisited_lt (hkeys x y hx) hseen
        simp only [List.contains_iff_mem, hseen, if_false] at h ⊢
        exact ih (by omega) h

/-- The search closes exactly on the chains that come back, as long as the chain went through
everything visited that goes on. -/
theorem chase_closed_iff {rounds : Nat} {visited : List α} {x : α}
    (hrounds : (keys.filter (· ∉ visited)).length < rounds)
    (hvisited : ∀ v ∈ visited, ∀ y, Follows succ v y → Relation.TransGen (Follows succ) v x) :
    (chase succ rounds visited x).2.2 = true ↔ Cyclic succ x := by
  induction rounds generalizing visited x with
  | zero => exact absurd hrounds (Nat.not_lt_zero _)
  | succ rounds ih =>
    cases hx : succ x with
    | none =>
      rw [chase_of_none hx]
      refine iff_of_false (by simp) fun h => ?_
      obtain ⟨y, hy, -⟩ := h.goes_on
      cases hx.symm.trans hy
    | some y =>
      rw [chase_of_some hx]
      by_cases hseen : x ∈ visited
      · exact iff_of_true (by simp [hseen]) ⟨x, .refl, hvisited x hseen y hx⟩
      · have hfewer := unvisited_lt (hkeys x y hx) hseen
        simp only [List.contains_iff_mem, hseen, if_false, cyclic_iff_of_follows hx]
        refine ih (by omega) fun v hv z hz => ?_
        rcases List.mem_cons.mp hv with rfl | hv
        · exact .single hx
        · exact (hvisited v hv z hz).tail hx

end Chains
end HyprShelld
