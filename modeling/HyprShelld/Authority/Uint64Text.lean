import HyprShelld.Authority.Identity
import HyprShelld.Authority.Records
import HyprShelld.Component.Identifiers

/-! The readers of unsigned 64-bit decimal text: where they accept the same text for every value. -/
namespace HyprShelld.Compositor
open Hyprland Components

/-- The reader of revisions in the generation store. -/
def Generation.parseRevision (text : QString) : Option UInt64 :=
  if text.isEmpty || (decide (1 < text.length) && text.head? = some (unit '0')) then none
  else if text.any (fun u => !isDecimalDigit u || decide (unit '9' < u)) then none
  else (toULongLong text).map UInt64.ofNat

/-- The products and sums computed by the loop of `parseCanonicalUint64`. -/
def uint64Steps (result : Nat) : QString → List Nat
  | [] => []
  | u :: rest =>
    match digitValue u with
    | none => []
    | some digit =>
      if (maximumUnsigned64 - digit) / 10 < result then []
      else result * 10 :: (result * 10 + digit) :: uint64Steps (result * 10 + digit) rest

/-- A text is read as a value exactly when it is the decimal text of the value. -/
def ReadsExactly (parse : QString → Option UInt64) (text : QString) : Prop :=
  ∀ v, parse text = some v ↔ text = decimal v.toNat

structure ReadersAgree (text : QString) : Prop where
  canonical : ReadsExactly parseCanonicalUint64 text
  transaction : ReadsExactly parseRevisionText text
  generation : ReadsExactly Generation.parseRevision text
  desired : ReadsExactly Hyprland.parseRevision text
  steps : ∀ n ∈ uint64Steps 0 text, n ≤ maximumUnsigned64

section Exact
variable {text : QString}

theorem uint64Steps_bounded {result : Nat} : ∀ n ∈ uint64Steps result text, n ≤ maximumUnsigned64 := by
  induction text generalizing result with
  | nil => simp [uint64Steps]
  | cons u rest ih =>
    unfold uint64Steps
    cases hdigit : digitValue u with
    | none => simp
    | some digit =>
      have hlt := (digitUnit_digitValue hdigit).1
      dsimp only
      split_ifs with hguard
      · simp
      · have hbound : maximumUnsigned64 = 18446744073709551615 := rfl
        simp only [List.forall_mem_cons]
        exact ⟨by omega, by omega, ih⟩

theorem readUint64_le {s : QString} {m n : Nat} (h : readUint64 m s = some n) (hm : m ≤ maximumUnsigned64) :
    n ≤ maximumUnsigned64 := by
  induction s generalizing m with
  | nil =>
    cases h
    exact hm
  | cons u rest ih =>
    obtain ⟨digit, hdigit, h⟩ := Option.bind_eq_some_iff.mp h
    have hlt := (digitUnit_digitValue hdigit).1
    split_ifs at h with hguard
    have hbound : maximumUnsigned64 = 18446744073709551615 := rfl
    exact ih h (by omega)

theorem parseCanonicalUint64_exact : ReadsExactly parseCanonicalUint64 text := by
  intro v
  constructor
  · intro h
    unfold parseCanonicalUint64 at h
    split_ifs at h
    obtain ⟨n, hn, h⟩ := Option.bind_eq_some_iff.mp h
    split_ifs at h with htext
    have hle := readUint64_le hn (Nat.zero_le _)
    have hlt : n < 2 ^ 64 := Nat.lt_of_le_of_lt hle (by decide)
    rw [← Option.some_inj.mp h, UInt64.toNat_ofNat_of_lt' hlt]
    exact (not_not.mp htext).symm
  · rintro rfl
    exact parseCanonicalUint64_decimal v

theorem digits_decimal (n : Nat) : ∀ u ∈ decimal n, 0x30 ≤ u.toNat ∧ u.toNat ≤ 0x39 := by
  intro u hu
  simpa [isDigit] using List.all_eq_true.mp (decimal_digits n) u hu

theorem parseRevisionText_exact : ReadsExactly parseRevisionText text := by
  intro v
  have hzero : (unit '0').toNat = 0x30 := rfl
  have hnine : (unit '9').toNat = 0x39 := rfl
  unfold parseRevisionText
  by_cases hempty : text.isEmpty || (decide (1 < text.length) && text.head? = some (unit '0'))
  · rw [if_pos hempty]
    refine iff_of_false (by simp) ?_
    rintro rfl
    have := decimal_head v
    simp_all [decimal_ne_nil]
  · rw [if_neg hempty]
    simp only [Bool.or_eq_true, Bool.and_eq_true, decide_eq_true_eq, List.isEmpty_iff, not_or] at hempty
    rw [← toULongLong_map hempty.2 hempty.1]
    by_cases hdigits : text.all (fun u => decide (unit '0' ≤ u) && decide (u ≤ unit '9'))
    · rw [if_neg (by simp [hdigits])]
    · rw [if_pos (by simpa using hdigits)]
      refine iff_of_false (by simp) fun h => hdigits ?_
      obtain rfl := (toULongLong_map hempty.2 hempty.1).mp h
      refine List.all_eq_true.mpr fun u hu => ?_
      have := digits_decimal _ u hu
      simpa [UInt16.le_iff_toNat_le, hzero, hnine] using this

theorem generation_parseRevision_exact : ReadsExactly Generation.parseRevision text := by
  intro v
  have hnine : (unit '9').toNat = 0x39 := rfl
  unfold Generation.parseRevision
  by_cases hempty : text.isEmpty || (decide (1 < text.length) && text.head? = some (unit '0'))
  · rw [if_pos hempty]
    refine iff_of_false (by simp) ?_
    rintro rfl
    have := decimal_head v
    simp_all [decimal_ne_nil]
  · rw [if_neg hempty]
    simp only [Bool.or_eq_true, Bool.and_eq_true, decide_eq_true_eq, List.isEmpty_iff, not_or] at hempty
    rw [← toULongLong_map hempty.2 hempty.1]
    by_cases hother : text.any (fun u => !isDecimalDigit u || decide (unit '9' < u))
    · rw [if_pos hother]
      refine iff_of_false (by simp) fun h => ?_
      obtain rfl := (toULongLong_map hempty.2 hempty.1).mp h
      obtain ⟨u, hu, hbad⟩ := List.any_eq_true.mp hother
      have hdigit := digits_decimal _ u hu
      have hdecimal := (isDecimalDigit_ascii (by omega)).mpr hdigit
      simp only [hdecimal, Bool.not_true, Bool.false_or, decide_eq_true_eq, UInt16.lt_iff_toNat_lt, hnine] at hbad
      omega
    · rw [if_neg hother]

/-- One to twenty digits, and no zero before others. -/
structure RevisionText (t : List Nat) : Prop where
  nonempty : t ≠ []
  length : t.length ≤ 20
  digits : ∀ c ∈ t, IsDigit c
  lead : ¬ (1 < t.length ∧ t.head? = some 0x30)

theorem language_revision {t : List Nat} : revisionExpression.Language t ↔ RevisionText t := by
  have hzero : "0".toList.map Char.toNat = [0x30] := by decide
  have hfirst (c : Nat) : Pattern.among [('1', '9')] c = true ↔ 0x31 ≤ c ∧ c ≤ 0x39 := by simp [Pattern.among]
  constructor
  · rintro (h | ⟨first, rest, rfl, h, hrest, -, hlength⟩)
    · obtain rfl : t = [0x30] := h.trans hzero
      exact ⟨by simp, by simp, by simp [IsDigit], by simp⟩
    · obtain ⟨c, rfl, hc⟩ := language_one.mp h
      rw [hfirst] at hc
      have hlength := hlength 19 rfl
      refine ⟨by simp, by simp; omega, ?_, ?_⟩
      · refine List.forall_mem_cons.mpr ⟨⟨by omega, hc.2⟩, fun d hd => (isDigit_iff d).mp (hrest d hd)⟩
      · simp only [List.cons_append, List.head?_cons, Option.some.injEq]
        omega
  · rintro ⟨hne, hlength, hdigits, hlead⟩
    cases t with
    | nil => exact absurd rfl hne
    | cons c rest =>
      obtain ⟨hc, hrest⟩ := List.forall_mem_cons.mp hdigits
      by_cases hzero' : c = 0x30
      · cases rest with
        | nil => exact .inl (by rw [hzero', Pattern.text, Pattern.Language, hzero])
        | cons _ _ => exact absurd ⟨by simp, by rw [hzero']; rfl⟩ hlead
      · unfold IsDigit at hc
        refine .inr ⟨[c], rest, rfl, language_one.mpr ⟨c, rfl, (hfirst c).mpr (by omega)⟩,
          fun d hd => (isDigit_iff d).mpr (hrest d hd), Nat.zero_le _, ?_⟩
        rintro _ ⟨⟩
        rw [List.length_cons] at hlength
        omega

theorem hasMatch_revision : hasMatch revisionExpression text = true ↔
    RevisionText (units text) ∨ Pattern.LineFeedAfter RevisionText (units text) := by
  refine hasMatch_iff (fun _ => language_revision) fun t ht c hc => ?_
  have := ht.digits c hc
  unfold IsDigit at this
  omega

theorem revisionText_decimal (v : UInt64) : RevisionText (units (decimal v.toNat)) := by
  have hlength : (units (decimal v.toNat)).length = (decimal v.toNat).length := List.length_map _
  refine ⟨by simp [units, decimal_ne_nil], ?_, ?_, ?_⟩
  · rw [hlength]
    exact length_decimal (by decide) (Nat.lt_of_lt_of_le v.toNat_lt (by decide))
  · intro c hc
    obtain ⟨u, hu, rfl⟩ := List.mem_map.mp hc
    exact digits_decimal _ u hu
  · rintro ⟨hlong, hhead⟩
    rw [hlength] at hlong
    obtain ⟨u, hu, he⟩ := Option.map_eq_some_iff.mp ((List.head?_map (f := UInt16.toNat)).symm.trans hhead)
    exact head_decimal hlong (hu.trans (congrArg some (UInt16.toNat_inj.mp he)))

theorem trimmed_revision (h : RevisionText (units text)) : trimmed text = text ∧ trimmed (text ++ [0x0a]) = text := by
  have hspace : ∀ u ∈ text, isSpace u = false := by
    intro u hu
    have := h.digits _ (List.mem_map_of_mem hu)
    simp only [IsDigit] at this
    simp only [isSpace, Bool.or_eq_false_iff, Bool.and_eq_false_imp, decide_eq_false_iff_not, decide_eq_true_eq]
    omega
  refine ⟨trimmed_eq hspace, ?_⟩
  cases text with
  | nil => exact absurd rfl h.nonempty
  | cons u rest =>
    have hu := hspace u List.mem_cons_self
    have hfront : (u :: rest ++ [0x0a]).dropWhile isSpace = u :: rest ++ [0x0a] := by simp [hu]
    have hback : ((u :: rest).reverse).dropWhile isSpace = (u :: rest).reverse := by
      rw [List.dropWhile_eq_self_iff]
      intro hpos
      simpa using hspace _ (List.mem_reverse.mp (List.getElem_mem hpos))
    rw [trimmed, hfront, List.reverse_append, List.reverse_singleton, List.singleton_append,
      List.dropWhile_cons_of_pos (by decide), hback, List.reverse_reverse]

theorem lead_of_revisionText (h : RevisionText (units text)) :
    ¬ (1 < text.length ∧ text.head? = some (unit '0')) ∧ text ≠ [] := by
  constructor
  · rintro ⟨hlong, hhead⟩
    refine h.lead ⟨by simpa [units] using hlong, ?_⟩
    rw [units, List.head?_map, hhead]
    rfl
  · rintro rfl
    exact h.nonempty rfl

/-- The reader of desired states accepts a line feed behind the text of a value, too. -/
theorem parseRevision_iff {v : UInt64} : Hyprland.parseRevision text = some v ↔
    text = decimal v.toNat ∨ text = decimal v.toNat ++ [0x0a] := by
  unfold Hyprland.parseRevision
  constructor
  · intro h
    split_ifs at h with hmatch
    have hmatch : hasMatch revisionExpression text = true := by simpa using hmatch
    rcases hasMatch_revision.mp hmatch with hrevision | ⟨t, ht, hrevision⟩
    · rw [(trimmed_revision hrevision).1] at h
      obtain ⟨hlead, hne⟩ := lead_of_revisionText hrevision
      exact .inl ((toULongLong_map hlead hne).mp h)
    · obtain ⟨digits, feed, rfl, rfl, hfeed⟩ := List.map_eq_append_iff.mp ht
      obtain ⟨u, rfl, hu⟩ := List.map_eq_singleton_iff.mp hfeed
      obtain rfl : u = 0x0a := UInt16.toNat_inj.mp hu
      rw [(trimmed_revision hrevision).2] at h
      obtain ⟨hlead, hne⟩ := lead_of_revisionText hrevision
      exact .inr (congrArg (· ++ [0x0a]) ((toULongLong_map hlead hne).mp h))
  · have hrevision := revisionText_decimal v
    have hread := (toULongLong_map (decimal_head v) (decimal_ne_nil v.toNat)).mpr rfl
    rintro (rfl | rfl)
    · rw [if_neg (by rw [hasMatch_revision.mpr (.inl hrevision)]; decide), (trimmed_revision hrevision).1, hread]
    · have hfeed : Pattern.LineFeedAfter RevisionText (units (decimal v.toNat ++ [0x0a])) :=
        ⟨units (decimal v.toNat), by simp [units], hrevision⟩
      rw [if_neg (by rw [hasMatch_revision.mpr (.inr hfeed)]; decide), (trimmed_revision hrevision).2, hread]

theorem decimal_noFeed (n : Nat) (s : QString) : decimal n ≠ s ++ [0x0a] := by
  intro h
  have := digits_decimal n 0x0a (by simp [h])
  simp at this

/-- The four readers agree on every text that is not a value with a line feed behind it, which only the
reader of desired states accepts. -/
theorem uint64Readers_exact (text : QString) :
    ReadersAgree text ↔ ¬ ∃ v : UInt64, text = decimal v.toNat ++ [0x0a] := by
  constructor
  · rintro h ⟨v, hv⟩
    exact decimal_noFeed _ _ ((h.desired v).mp (parseRevision_iff.mpr (.inr hv)) ▸ hv)
  · intro h
    refine ⟨parseCanonicalUint64_exact, parseRevisionText_exact, generation_parseRevision_exact, fun v => ?_, uint64Steps_bounded⟩
    rw [parseRevision_iff]
    exact or_iff_left fun hv => h ⟨v, hv⟩

/-- A revision with a line feed behind it is a revision to the reader of desired states only. -/
theorem uint64Readers_lineFeed :
    ¬ ReadersAgree (qstr "5\n") ∧ Hyprland.parseRevision (qstr "5\n") = some 5 ∧ parseCanonicalUint64 (qstr "5\n") = none ∧
      parseRevisionText (qstr "5\n") = none ∧ Generation.parseRevision (qstr "5\n") = none := by
  have hread : (Hyprland.parseRevision (qstr "5\n") = some 5 ∧ parseCanonicalUint64 (qstr "5\n") = none ∧
      parseRevisionText (qstr "5\n") = none ∧ Generation.parseRevision (qstr "5\n") = none) ∧
      qstr "5\n" ≠ decimal (5 : UInt64).toNat := by
    decide +kernel
  exact ⟨fun h => hread.2 ((h.desired 5).mp hread.1.1), hread.1⟩

end Exact

end HyprShelld.Compositor
