import HyprShelld.Support.Pattern

/-! Repeated patterns, and matches followed by a final line feed. -/
namespace HyprShelld.Pattern

/-- What may be left after any number of matches, of which each takes something. -/
def repeated (p : Pattern) : Nat → List Nat → List (List Nat)
  | 0, s => [s]
  | fuel + 1, s => s :: ((p.remainders s).filter fun rest => rest.length < s.length).flatMap (p.repeated fuel)

theorem mem_repeated {p : Pattern} {fuel : Nat} {s rest : List Nat} (hfuel : s.length ≤ fuel) :
    rest ∈ p.repeated fuel s ↔ ∃ parts : List (List Nat), s = parts.flatten ++ rest ∧ ∀ part ∈ parts, p.Language part := by
  induction fuel generalizing s with
  | zero =>
    rw [List.length_eq_zero_iff.mp (Nat.le_zero.mp hfuel)]
    constructor
    · intro h
      rw [List.mem_singleton.mp h]
      exact ⟨[], rfl, by simp⟩
    · rintro ⟨parts, h, -⟩
      rw [(List.nil_eq_append_iff.mp h).2]
      exact List.mem_singleton_self _
  | succ fuel ih =>
    rw [repeated, List.mem_cons, List.mem_flatMap]
    constructor
    · rintro (rfl | ⟨mid, hmid, hrest⟩)
      · exact ⟨[], rfl, by simp⟩
      · obtain ⟨hmid, hshort⟩ := List.mem_filter.mp hmid
        have hshort : mid.length < s.length := of_decide_eq_true hshort
        obtain ⟨part, rfl, hpart⟩ := mem_remainders.mp hmid
        obtain ⟨parts, rfl, hparts⟩ := (ih (by omega)).mp hrest
        exact ⟨part :: parts, by simp, List.forall_mem_cons.mpr ⟨hpart, hparts⟩⟩
    · rintro ⟨parts, hs, hparts⟩
      induction parts with
      | nil => exact .inl (by simpa using hs.symm)
      | cons part parts ihparts =>
        obtain ⟨hpart, hparts⟩ := List.forall_mem_cons.mp hparts
        rw [List.flatten_cons, List.append_assoc] at hs
        by_cases hempty : part = []
        · exact ihparts (by simpa [hempty] using hs) hparts
        · have hpos := List.length_pos_iff.mpr hempty
          have hlength : s.length = part.length + (parts.flatten ++ rest).length := by
            rw [hs, List.length_append]
          refine .inr ⟨parts.flatten ++ rest, List.mem_filter.mpr ⟨mem_remainders.mpr ⟨part, hs, hpart⟩, ?_⟩, ?_⟩
          · exact decide_eq_true (by omega)
          · exact (ih (by omega)).mpr ⟨parts, rfl, hparts⟩

/-- One text or more of a pattern, joined by a separator. -/
theorem flatten_separated {separator : Nat} {first : List Nat} {rest : List (List Nat)} :
    first ++ (rest.map (separator :: ·)).flatten = [separator].intercalate (first :: rest) := by
  induction rest generalizing first with
  | nil => simp
  | cons second rest ih =>
    rw [List.map_cons, List.flatten_cons, List.cons_append, ih, List.intercalate_cons_cons]
    simp

/-- Text of a grammar with a line feed behind it. -/
def LineFeedAfter (grammar : List Nat → Prop) (s : List Nat) : Prop := ∃ t, s = t ++ [0x0a] ∧ grammar t

theorem matchesWhole_iff {p : Pattern} {s : List Nat} :
    p.matchesWhole s = true ↔ p.Language s ∨ LineFeedAfter p.Language s := by
  simp only [matchesWhole, List.any_eq_true, mem_remainders, Bool.or_eq_true, decide_eq_true_eq]
  constructor
  · rintro ⟨rest, ⟨t, rfl, ht⟩, rfl | rfl⟩
    · exact .inl (by rwa [List.append_nil])
    · exact .inr ⟨t, rfl, ht⟩
  · rintro (h | ⟨t, rfl, ht⟩)
    · exact ⟨[], ⟨s, by simp, h⟩, .inl rfl⟩
    · exact ⟨[0x0a], ⟨t, rfl, ht⟩, .inr rfl⟩

/-- Every character a pattern admits satisfies a predicate. -/
def Over (P : Nat → Prop) : Pattern → Prop
  | empty => True
  | literal text => ∀ c ∈ text, P c
  | many accepts _ _ => ∀ c, accepts c = true → P c
  | sequence a b | either a b => Over P a ∧ Over P b

theorem Over.language {P : Nat → Prop} {p : Pattern} (h : p.Over P) {t : List Nat} (ht : p.Language t) : ∀ c ∈ t, P c := by
  induction p generalizing t with
  | empty =>
    obtain rfl := ht
    exact fun _ hc => absurd hc List.not_mem_nil
  | literal text =>
    obtain rfl := ht
    exact h
  | many accepts least most => exact fun c hc => h c (ht.1 c hc)
  | sequence a b iha ihb =>
    obtain ⟨u, v, rfl, hu, hv⟩ := ht
    intro c hc
    rcases List.mem_append.mp hc with hc | hc
    · exact iha h.1 hu c hc
    · exact ihb h.2 hv c hc
  | either a b iha ihb =>
    rcases ht with ht | ht
    · exact iha h.1 ht
    · exact ihb h.2 ht

theorem over_charset {P : Nat → Prop} {ranges : List (Char × Char)} {least : Nat} {most : Option Nat}
    (h : ∀ r ∈ ranges, ∀ c, r.1.toNat ≤ c → c ≤ r.2.toNat → P c) : (charset ranges least most).Over P := by
  intro c hc
  obtain ⟨r, hr, hrange⟩ := List.any_eq_true.mp hc
  simp only [Bool.and_eq_true, decide_eq_true_eq] at hrange
  exact h r hr c hrange.1 hrange.2

end HyprShelld.Pattern
