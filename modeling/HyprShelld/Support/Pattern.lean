import Mathlib.Data.List.Basic

/-! Anchored regular expressions over code points, as far as fixed expressions use them:
literals, repeated character classes, sequence and alternation. -/
namespace HyprShelld

inductive Pattern where
  | empty
  | literal (text : List Nat)
  /-- A character class, repeated from least to most times. -/
  | many (accepts : Nat → Bool) (least : Nat) (most : Option Nat)
  | sequence (a b : Pattern)
  | either (a b : Pattern)

namespace Pattern

/-- What may be left after a match at the start. -/
def remainders : Pattern → List Nat → List (List Nat)
  | empty, s => [s]
  | literal text, s => if text.isPrefixOf s then [s.drop text.length] else []
  | many accepts least most, s =>
    let run := (s.takeWhile accepts).length
    ((List.range ((most.elim run (min run)) + 1)).filter (least ≤ ·)).map s.drop
  | sequence a b, s => (remainders a s).flatMap (remainders b)
  | either a b, s => remainders a s ++ remainders b s

/-- A match of the whole text; the end anchor also holds before a final line feed. -/
def matchesWhole (p : Pattern) (s : List Nat) : Bool :=
  (p.remainders s).any fun rest => rest = [] || rest = [0x0a]

def text (s : String) : Pattern := literal (s.toList.map Char.toNat)

/-- A class given by its ranges. -/
def among (ranges : List (Char × Char)) (c : Nat) : Bool :=
  ranges.any fun r => r.1.toNat ≤ c && c ≤ r.2.toNat

def charset (ranges : List (Char × Char)) (least : Nat) (most : Option Nat) : Pattern :=
  many (among ranges) least most

def optional (p : Pattern) : Pattern := either p empty

def sequenceOf (parts : List Pattern) : Pattern := parts.foldr sequence empty

def anyOf : List Pattern → Pattern
  | [] => many (fun _ => false) 1 none
  | [p] => p
  | p :: rest => either p (anyOf rest)

/-- The texts a pattern stands for. -/
def Language : Pattern → List Nat → Prop
  | empty, t => t = []
  | literal text, t => t = text
  | many accepts least most, t =>
    (∀ c ∈ t, accepts c = true) ∧ least ≤ t.length ∧ ∀ m, most = some m → t.length ≤ m
  | sequence a b, t => ∃ u v, t = u ++ v ∧ Language a u ∧ Language b v
  | either a b, t => Language a t ∨ Language b t

private theorem take_of_run {accepts : Nat → Bool} {s : List Nat} {k : Nat}
    (h : k ≤ (s.takeWhile accepts).length) : (∀ c ∈ s.take k, accepts c = true) ∧ k ≤ s.length := by
  have hle := (List.takeWhile_prefix accepts (l := s)).length_le
  refine ⟨?_, by omega⟩
  have ht : s.take k = (s.takeWhile accepts).take k := by
    rw [List.prefix_iff_eq_take.mp (List.takeWhile_prefix accepts (l := s)), List.take_take, Nat.min_eq_left h]
  intro c hc
  rw [ht] at hc
  exact List.all_eq_true.mp List.all_takeWhile c (List.mem_of_mem_take hc)

private theorem run_of_append {accepts : Nat → Bool} {t rest : List Nat} (h : ∀ c ∈ t, accepts c = true) :
    t.length ≤ ((t ++ rest).takeWhile accepts).length := by
  rw [List.takeWhile_append_of_pos h, List.length_append]
  omega

/-- The matcher finds every split into a text of the pattern and what is left. -/
theorem mem_remainders {p : Pattern} {s rest : List Nat} :
    rest ∈ p.remainders s ↔ ∃ t, s = t ++ rest ∧ p.Language t := by
  induction p generalizing s rest with
  | empty =>
    simp only [remainders, Language, List.mem_singleton]
    constructor
    · rintro rfl
      exact ⟨[], rfl, rfl⟩
    · rintro ⟨_, rfl, rfl⟩
      rfl
  | literal text =>
    simp only [remainders, Language]
    constructor
    · intro h
      split_ifs at h with hp
      · obtain ⟨tail, rfl⟩ := List.isPrefixOf_iff_prefix.mp hp
        exact ⟨text, by simpa using (List.mem_singleton.mp h).symm, rfl⟩
      · simp at h
    · rintro ⟨_, rfl, rfl⟩
      rw [if_pos (List.isPrefixOf_iff_prefix.mpr (List.prefix_append _ _))]
      simp
  | many accepts least most =>
    simp only [remainders, Language, List.mem_map, List.mem_filter, List.mem_range, decide_eq_true_eq]
    constructor
    · rintro ⟨k, ⟨hk, hleast⟩, rfl⟩
      have hrun : k ≤ (s.takeWhile accepts).length := by
        cases most with
        | none => exact Nat.lt_succ_iff.mp hk
        | some m => exact Nat.le_trans (Nat.lt_succ_iff.mp hk) (Nat.min_le_left _ _)
      obtain ⟨hall, hlen⟩ := take_of_run hrun
      refine ⟨s.take k, (List.take_append_drop k s).symm, hall, ?_, ?_⟩
      · rwa [List.length_take, Nat.min_eq_left hlen]
      · rintro m rfl
        rw [List.length_take, Nat.min_eq_left hlen]
        exact Nat.le_trans (Nat.lt_succ_iff.mp hk) (Nat.min_le_right _ _)
    · rintro ⟨t, rfl, hall, hleast, hmost⟩
      have hrun : t.length ≤ ((t ++ rest).takeWhile accepts).length := run_of_append hall
      refine ⟨t.length, ⟨?_, hleast⟩, by simp⟩
      apply Nat.lt_succ_iff.mpr
      cases most with
      | none => exact hrun
      | some m => exact Nat.le_min.mpr ⟨hrun, hmost m rfl⟩
  | sequence a b iha ihb =>
    simp only [remainders, Language, List.mem_flatMap]
    constructor
    · rintro ⟨mid, ha, hb⟩
      obtain ⟨u, rfl, hu⟩ := iha.mp ha
      obtain ⟨v, rfl, hv⟩ := ihb.mp hb
      exact ⟨u ++ v, (List.append_assoc _ _ _).symm, u, v, rfl, hu, hv⟩
    · rintro ⟨_, rfl, u, v, rfl, hu, hv⟩
      exact ⟨v ++ rest, iha.mpr ⟨u, List.append_assoc _ _ _, hu⟩, ihb.mpr ⟨v, rfl, hv⟩⟩
  | either a b iha ihb =>
    simp only [remainders, Language, List.mem_append, iha, ihb]
    constructor
    · rintro (⟨t, hs, ht⟩ | ⟨t, hs, ht⟩)
      · exact ⟨t, hs, .inl ht⟩
      · exact ⟨t, hs, .inr ht⟩
    · rintro ⟨t, hs, ht | ht⟩
      · exact .inl ⟨t, hs, ht⟩
      · exact .inr ⟨t, hs, ht⟩

/-- A whole match of text without a final line feed is a text of the pattern. -/
theorem language_of_matchesWhole {p : Pattern} {s : List Nat} (h : p.matchesWhole s = true)
    (hs : 0x0a ∉ s) : p.Language s := by
  obtain ⟨rest, hr, he⟩ := List.any_eq_true.mp h
  obtain ⟨t, rfl, ht⟩ := mem_remainders.mp hr
  have hrest : rest = [] := by
    rcases (by simpa using he : rest = [] ∨ rest = [0x0a]) with rfl | rfl
    · rfl
    · simp at hs
  rwa [hrest, List.append_nil]

end Pattern
end HyprShelld
