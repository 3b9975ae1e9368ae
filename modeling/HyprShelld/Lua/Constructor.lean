import HyprShelld.Lua.Lexer

/-! Lua expressions of data, their grammar and their values: literals and table constructors. -/
namespace HyprShelld.Lua

inductive Expr where
  | nil
  | boolean (b : Bool)
  | number (negative : Bool) (n : DecimalNumeral)
  | string (bytes : QByteArray)
  | table (fields : List (Option Expr × Expr))

/-- Fields are positional, or have the expression of their key. -/
abbrev Field := Option Expr × Expr

section Grammar

mutual
/-- An expression at the front of the tokens, nested at most so deep. -/
def parseExpr : Nat → List Token → Option (Expr × List Token)
  | 0, _ => none
  | _ + 1, [] => none
  | depth + 1, t :: rest =>
    match t with
    | .string bytes => some (.string bytes, rest)
    | .numeral n => some (.number false n, rest)
    | .keyword word =>
      if word = utf8 "true".toList then some (.boolean true, rest)
      else if word = utf8 "false".toList then some (.boolean false, rest)
      else if word = utf8 "nil".toList then some (.nil, rest)
      else none
    | .symbol b =>
      if b = 0x2d then
        match rest with
        | .numeral n :: rest => some (.number true n, rest)
        | _ => none
      else if b = 0x7b then (parseFields depth rest).map fun r => (.table r.1, r.2)
      else none
    | .name _ => none

/-- The fields of a constructor up to its closing brace. -/
def parseFields : Nat → List Token → Option (List Field × List Token)
  | 0, _ => none
  | depth + 1, ts =>
    match ts with
    | .symbol 0x7d :: rest => some ([], rest)
    | _ =>
      match parseField depth ts with
      | some (field, .symbol 0x7d :: rest) => some ([field], rest)
      | some (field, .symbol 0x2c :: rest) => (parseFields depth rest).map fun r => (field :: r.1, r.2)
      | some (field, .symbol 0x3b :: rest) => (parseFields depth rest).map fun r => (field :: r.1, r.2)
      | _ => none

def parseField : Nat → List Token → Option (Field × List Token)
  | 0, _ => none
  | depth + 1, ts =>
    match ts with
    | .symbol 0x5b :: rest =>
      match parseExpr depth rest with
      | some (key, .symbol 0x5d :: .symbol 0x3d :: rest) => (parseExpr depth rest).map fun r => ((some key, r.1), r.2)
      | _ => none
    | .name key :: .symbol 0x3d :: rest => (parseExpr depth rest).map fun r => ((some (.string key), r.1), r.2)
    | _ => (parseExpr depth ts).map fun r => ((none, r.1), r.2)
end

/-- What is parsed at one depth is parsed so at the next. -/
private theorem parse_step (depth : Nat) :
    (∀ {ts x}, parseExpr depth ts = some x → parseExpr (depth + 1) ts = some x) ∧
    (∀ {ts x}, parseFields depth ts = some x → parseFields (depth + 1) ts = some x) ∧
    (∀ {ts x}, parseField depth ts = some x → parseField (depth + 1) ts = some x) := by
  induction depth with
  | zero =>
    refine ⟨fun h => ?_, fun h => ?_, fun h => ?_⟩ <;> simp [parseExpr, parseFields, parseField] at h
  | succ depth ih =>
    obtain ⟨ihe, ihfs, ihf⟩ := ih
    refine ⟨fun {ts x} h => ?_, fun {ts x} h => ?_, fun {ts x} h => ?_⟩
    · cases ts with
      | nil => simp [parseExpr] at h
      | cons t rest =>
        cases t with
        | symbol b =>
          simp only [parseExpr] at h ⊢
          split_ifs at h ⊢
          · exact h
          · obtain ⟨r, hr, rfl⟩ := Option.map_eq_some_iff.mp h
            rw [ihfs hr]
            rfl
        | _ => simpa only [parseExpr] using h
    · unfold parseFields at h ⊢
      split at h
      · exact h
      · split at h
        · rename_i hf
          simp only [ihf hf]
          exact h
        · rename_i hf
          obtain ⟨r, hr, rfl⟩ := Option.map_eq_some_iff.mp h
          simp only [ihf hf, ihfs hr, Option.map_some]
        · rename_i hf
          obtain ⟨r, hr, rfl⟩ := Option.map_eq_some_iff.mp h
          simp only [ihf hf, ihfs hr, Option.map_some]
        · cases h
    · unfold parseField at h ⊢
      split at h
      · split at h
        · rename_i hkey
          obtain ⟨r, hr, rfl⟩ := Option.map_eq_some_iff.mp h
          simp only [ihe hkey, ihe hr, Option.map_some]
        · cases h
      · obtain ⟨r, hr, rfl⟩ := Option.map_eq_some_iff.mp h
        simp only [ihe hr, Option.map_some]
      · obtain ⟨r, hr, rfl⟩ := Option.map_eq_some_iff.mp h
        simp only [ihe hr, Option.map_some]

theorem parseExpr_mono {depth more : Nat} (hle : depth ≤ more) {ts : List Token} {x : Expr × List Token}
    (h : parseExpr depth ts = some x) : parseExpr more ts = some x := by
  induction hle with
  | refl => exact h
  | step _ ih => exact (parse_step _).1 ih

section Fields
variable {depth : Nat} {ts rest : List Token} {field : Field}

theorem parseFields_last (hts : ts.head? ≠ some (.symbol 0x7d))
    (h : parseField depth ts = some (field, .symbol 0x7d :: rest)) : parseFields (depth + 1) ts = some ([field], rest) := by
  unfold parseFields
  split
  · exact absurd rfl hts
  · simp only [h]

theorem parseFields_more (hts : ts.head? ≠ some (.symbol 0x7d))
    (h : parseField depth ts = some (field, .symbol 0x2c :: rest)) :
    parseFields (depth + 1) ts = (parseFields depth rest).map fun r => (field :: r.1, r.2) := by
  rw [parseFields.eq_def]
  dsimp only
  split
  · exact absurd rfl hts
  · simp only [h]

/-- What follows a field is a separator or the closing brace. -/
theorem parseFields_none (hts : ts.head? ≠ some (.symbol 0x7d))
    (h : ∀ field rest, parseField depth ts = some (field, rest) →
      ∀ b ∈ [0x7d, 0x2c, 0x3b], rest.head? ≠ some (.symbol b)) : parseFields (depth + 1) ts = none := by
  unfold parseFields
  split
  · exact absurd rfl hts
  · split
    · exact absurd rfl (h _ _ (by assumption) 0x7d (by decide))
    · exact absurd rfl (h _ _ (by assumption) 0x2c (by decide))
    · exact absurd rfl (h _ _ (by assumption) 0x3b (by decide))
    · rfl

theorem parseField_positional (hopen : ts.head? ≠ some (.symbol 0x5b)) (hname : ∀ key, ts.head? ≠ some (.name key)) :
    parseField (depth + 1) ts = (parseExpr depth ts).map fun r => ((none, r.1), r.2) := by
  unfold parseField
  split
  · exact absurd rfl hopen
  · exact absurd rfl (hname _)
  · rfl

theorem parseField_name (key : QByteArray) :
    parseField (depth + 1) (.name key :: .symbol 0x3d :: rest)
      = (parseExpr depth rest).map fun r => ((some (.string key), r.1), r.2) := rfl

theorem parseField_bracket (key : QByteArray) :
    parseField (depth + 2) (.symbol 0x5b :: .string key :: .symbol 0x5d :: .symbol 0x3d :: rest)
      = (parseExpr (depth + 1) rest).map fun r => ((some (.string key), r.1), r.2) := rfl

theorem parseExpr_keyword {word : QByteArray} {e : Expr} (h : parseExpr depth (.keyword word :: ts) = some (e, rest)) :
    rest = ts := by
  cases depth with
  | zero => simp [parseExpr] at h
  | succ depth =>
    simp only [parseExpr] at h
    split_ifs at h <;> cases h <;> rfl

end Fields

end Grammar

section Values

inductive Data where
  | nil
  | boolean (b : Bool)
  | number (q : ℚ)
  | string (bytes : QByteArray)
  /-- Keys with their values, in the order in which they are assigned. -/
  | table (entries : List (Data × Data))

open Classical in
/-- The float a decimal is read as. -/
noncomputable def floatOf (v : ℚ) : ℚ := if h : ∃ q, ReadsAs v q then h.choose else v

theorem floatOf_eq {v q : ℚ} (h : ReadsAs v q) : floatOf v = q := by
  have he : ∃ q, ReadsAs v q := ⟨q, h⟩
  rw [floatOf, dif_pos he]
  exact he.choose_spec.unique h

/-- Integers that fit are integers, all else is a float. -/
noncomputable def numeralValue (n : DecimalNumeral) : ℚ :=
  if n.isInteger ∧ n.value < 2 ^ 63 then n.value else floatOf n.value

open Classical in
/-- The entries that assignments leave: the last one for each key, and none for nil. -/
noncomputable def entriesOf : List (Data × Data) → List (Data × Data)
  | [] => []
  | (key, v) :: rest => if key ∈ rest.map Prod.fst ∨ v = .nil then entriesOf rest else (key, v) :: entriesOf rest

theorem entriesOf_sublist (assignments : List (Data × Data)) : (entriesOf assignments).Sublist assignments := by
  induction assignments with
  | nil => exact .slnil
  | cons e rest ih =>
    rw [entriesOf]
    split_ifs
    · exact ih.cons e
    · exact ih.cons_cons e

theorem entriesOf_eq_self_iff {assignments : List (Data × Data)} :
    entriesOf assignments = assignments ↔ (assignments.map Prod.fst).Nodup ∧ ∀ e ∈ assignments, e.2 ≠ .nil := by
  induction assignments with
  | nil => simp [entriesOf]
  | cons e rest ih =>
    obtain ⟨key, v⟩ := e
    rw [entriesOf, List.map_cons, List.nodup_cons, List.forall_mem_cons]
    split_ifs with h
    · refine iff_of_false (fun heq => ?_) fun hall => h.elim hall.1.1 hall.2.1
      have hlength := (entriesOf_sublist rest).length_le
      rw [heq, List.length_cons] at hlength
      omega
    · rw [not_or] at h
      rw [List.cons_inj_right, ih]
      exact ⟨fun hrest => ⟨⟨h.1, hrest.1⟩, h.2, hrest.2⟩, fun hall => ⟨hall.1.2, hall.2.2⟩⟩

/-- Entries as many as the assignments are the assignments. -/
theorem entriesOf_eq_iff {assignments entries : List (Data × Data)} (h : entries.length = assignments.length) :
    entriesOf assignments = entries ↔
      assignments = entries ∧ (entries.map Prod.fst).Nodup ∧ ∀ e ∈ entries, e.2 ≠ .nil := by
  constructor
  · rintro rfl
    have heq := (entriesOf_sublist assignments).eq_of_length h
    exact ⟨heq.symm, heq.symm ▸ entriesOf_eq_self_iff.mp heq⟩
  · rintro ⟨rfl, hentries⟩
    exact entriesOf_eq_self_iff.mpr hentries

mutual
noncomputable def evaluate : Expr → Data
  | .nil => .nil
  | .boolean b => .boolean b
  | .number negative n => .number (if negative then -numeralValue n else numeralValue n)
  | .string bytes => .string bytes
  | .table fields => .table (entriesOf (evaluateFields 1 fields))

/-- Positional fields count from one. -/
noncomputable def evaluateFields : Nat → List Field → List (Data × Data)
  | _, [] => []
  | index, (none, v) :: rest => (.number index, evaluate v) :: evaluateFields (index + 1) rest
  | index, (some key, v) :: rest => (evaluate key, evaluate v) :: evaluateFields index rest
end

end Values

/-- A text is one expression, and this is its value. -/
def Evaluates (text : QByteArray) (d : Data) : Prop :=
  ∃ ts depth e, Lexes text ts ∧ parseExpr depth ts = some (e, []) ∧ evaluate e = d

/-- Where every deep enough parse of the tokens says the same, it decides the value. -/
theorem evaluates_iff {text : QByteArray} {ts : List Token} {bound : Nat} {result : Option Expr} (hl : Lexes text ts)
    (hp : ∀ depth ≥ bound, parseExpr depth ts = result.map (·, [])) (d : Data) :
    Evaluates text d ↔ ∃ e, result = some e ∧ evaluate e = d := by
  constructor
  · rintro ⟨us, depth, e, hl', hparse, hvalue⟩
    rw [← hl.unique hl'] at hparse
    have hdeep := parseExpr_mono (Nat.le_max_left depth bound) hparse
    rw [hp _ (Nat.le_max_right _ _)] at hdeep
    obtain ⟨e', hresult, heq⟩ := Option.map_eq_some_iff.mp hdeep
    cases heq
    exact ⟨e, hresult, hvalue⟩
  · rintro ⟨e, rfl, hvalue⟩
    exact ⟨ts, bound, e, hl, hp bound (Nat.le_refl _), hvalue⟩

end HyprShelld.Lua
