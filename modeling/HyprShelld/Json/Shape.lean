import HyprShelld.Json.Object

/-! Predicates and measures over a whole JSON value: which strings and numbers occur
in it, whether its keys are sorted, how many values it holds and how deep it nests. -/
namespace HyprShelld.Json

section Valid

variable (text : QString → Prop) (num : Double → Prop)

mutual
/-- Every string and number is good, keys are strictly sorted and nothing is undefined. -/
def Valid : QJsonValue → Prop
  | .undefined => False
  | .null | .bool _ => True
  | .double x => num x
  | .string s => text s
  | .array items => ValidItems items
  | .object entries => QJsonObject.Sorted entries ∧ ValidMembers entries

def ValidItems : List QJsonValue → Prop
  | [] => True
  | v :: rest => Valid v ∧ ValidItems rest

def ValidMembers : List (QString × QJsonValue) → Prop
  | [] => True
  | (k, v) :: rest => text k ∧ Valid v ∧ ValidMembers rest
end

variable {text num}

section Decide
variable [DecidablePred text] [DecidablePred num]

mutual
def decideValid : ∀ v : QJsonValue, Decidable (Valid text num v)
  | .undefined => isFalse id
  | .null => isTrue trivial
  | .bool _ => isTrue trivial
  | .double x => inferInstanceAs (Decidable (num x))
  | .string s => inferInstanceAs (Decidable (text s))
  | .array items => decideItems items
  | .object entries =>
    @instDecidableAnd _ _ (inferInstanceAs (Decidable (QJsonObject.Sorted entries))) (decideMembers entries)

def decideItems : ∀ items : List QJsonValue, Decidable (ValidItems text num items)
  | [] => isTrue trivial
  | v :: rest => @instDecidableAnd _ _ (decideValid v) (decideItems rest)

def decideMembers : ∀ entries : List (QString × QJsonValue), Decidable (ValidMembers text num entries)
  | [] => isTrue trivial
  | (k, v) :: rest => @instDecidableAnd _ _ (inferInstanceAs (Decidable (text k)))
      (@instDecidableAnd _ _ (decideValid v) (decideMembers rest))
end

instance (v : QJsonValue) : Decidable (Valid text num v) := decideValid v

end Decide

theorem Valid.ne_undefined {v : QJsonValue} (h : Valid text num v) : v ≠ .undefined := by
  rintro rfl
  exact h

variable {text' : QString → Prop} {num' : Double → Prop}

mutual
theorem Valid.mono (htext : ∀ s, text s → text' s) (hnum : ∀ x, num x → num' x) :
    ∀ {v : QJsonValue}, Valid text num v → Valid text' num' v
  | .undefined, h => h
  | .null, _ => trivial
  | .bool _, _ => trivial
  | .double x, h => hnum x h
  | .string s, h => htext s h
  | .array items, h => ValidItems.mono htext hnum (v := items) h
  | .object entries, h => ⟨h.1, ValidMembers.mono htext hnum (v := entries) h.2⟩

theorem ValidItems.mono (htext : ∀ s, text s → text' s) (hnum : ∀ x, num x → num' x) :
    ∀ {v : List QJsonValue}, ValidItems text num v → ValidItems text' num' v
  | [], _ => trivial
  | v :: rest, h => ⟨Valid.mono htext hnum (v := v) h.1, ValidItems.mono htext hnum (v := rest) h.2⟩

theorem ValidMembers.mono (htext : ∀ s, text s → text' s) (hnum : ∀ x, num x → num' x) :
    ∀ {v : List (QString × QJsonValue)}, ValidMembers text num v → ValidMembers text' num' v
  | [], _ => trivial
  | (_, v) :: rest, h => ⟨htext _ h.1, Valid.mono htext hnum (v := v) h.2.1,
      ValidMembers.mono htext hnum (v := rest) h.2.2⟩
end

theorem validItems_iff {items : List QJsonValue} :
    ValidItems text num items ↔ ∀ v ∈ items, Valid text num v := by
  induction items with
  | nil => simp [ValidItems]
  | cons v items ih => simp only [ValidItems, ih, List.forall_mem_cons]

theorem validMembers_iff {entries : List (QString × QJsonValue)} :
    ValidMembers text num entries ↔ ∀ e ∈ entries, text e.1 ∧ Valid text num e.2 := by
  induction entries with
  | nil => simp [ValidMembers]
  | cons e entries ih =>
    obtain ⟨k, v⟩ := e
    simp only [ValidMembers, ih, List.forall_mem_cons, and_assoc]

theorem validMembers_put {o : QJsonObject} {k : QString} {v : QJsonValue} (ho : ValidMembers text num o)
    (hk : text k) (hv : Valid text num v) : ValidMembers text num (QJsonObject.put k v o) := by
  rw [validMembers_iff] at ho ⊢
  intro e he
  rcases QJsonObject.mem_put he with rfl | he
  · exact ⟨hk, hv⟩
  · exact ho e he

/-- An object built from good members is good. -/
theorem valid_ofList {members : List (QString × QJsonValue)}
    (h : ∀ m ∈ members, text m.1 ∧ Valid text num m.2) : Valid text num (.object (QJsonObject.ofList members)) := by
  refine ⟨QJsonObject.sorted_ofList members, ?_⟩
  have hfold (o : QJsonObject) (ho : ValidMembers text num o) :
      ValidMembers text num (members.foldl (fun o m => QJsonObject.insert o m.1 m.2) o) := by
    induction members generalizing o with
    | nil => exact ho
    | cons m members ih =>
      have hm := h m List.mem_cons_self
      apply ih fun n hn => h n (List.mem_cons_of_mem _ hn)
      simp only [QJsonObject.insert, if_neg hm.2.ne_undefined]
      exact validMembers_put ho hm.1 hm.2
  exact hfold [] trivial

end Valid

mutual
/-- Values counted against a limit, the value itself included. -/
def valueCount : QJsonValue → Nat
  | .array items => 1 + itemsCount items
  | .object entries => 1 + membersCount entries
  | _ => 1

def itemsCount : List QJsonValue → Nat
  | [] => 0
  | v :: rest => valueCount v + itemsCount rest

def membersCount : List (QString × QJsonValue) → Nat
  | [] => 0
  | (_, v) :: rest => valueCount v + membersCount rest
end

mutual
/-- Nesting of arrays and objects. -/
def nesting : QJsonValue → Nat
  | .array items => 1 + itemsNesting items
  | .object entries => 1 + membersNesting entries
  | _ => 0

def itemsNesting : List QJsonValue → Nat
  | [] => 0
  | v :: rest => max (nesting v) (itemsNesting rest)

def membersNesting : List (QString × QJsonValue) → Nat
  | [] => 0
  | (_, v) :: rest => max (nesting v) (membersNesting rest)
end

private theorem put_fresh {o : QJsonObject} {k : QString} {v : QJsonValue} (h : QJsonObject.contains o k = false) :
    (QJsonObject.put k v o).Perm ((k, v) :: o) := by
  induction o with
  | nil => rfl
  | cons e o ih =>
    obtain ⟨l, w⟩ := e
    rw [QJsonObject.contains, QJsonObject.lookup_cons_ite] at h
    split_ifs at h with hl
    · simp at h
    have ho : QJsonObject.contains o k = false := h
    rw [QJsonObject.put, if_neg hl]
    split_ifs
    · rfl
    · exact ((ih ho).cons _).trans (List.Perm.swap _ _ _)

private theorem membersCount_perm {a b : List (QString × QJsonValue)} (h : a.Perm b) :
    membersCount a = membersCount b := by
  induction h with
  | nil => rfl
  | cons e _ ih => rw [membersCount, membersCount, ih]
  | swap e f _ => simp only [membersCount]; omega
  | trans _ _ ih₁ ih₂ => exact ih₁.trans ih₂

private theorem membersNesting_perm {a b : List (QString × QJsonValue)} (h : a.Perm b) :
    membersNesting a = membersNesting b := by
  induction h with
  | nil => rfl
  | cons e _ ih => rw [membersNesting, membersNesting, ih]
  | swap e f _ => simp only [membersNesting]; omega
  | trans _ _ ih₁ ih₂ => exact ih₁.trans ih₂

theorem membersCount_put {o : QJsonObject} {k : QString} {v : QJsonValue}
    (h : QJsonObject.contains o k = false) :
    membersCount (QJsonObject.put k v o) = valueCount v + membersCount o := by
  rw [membersCount_perm (put_fresh h), membersCount]

theorem membersNesting_put {o : QJsonObject} {k : QString} {v : QJsonValue}
    (h : QJsonObject.contains o k = false) :
    membersNesting (QJsonObject.put k v o) = max (nesting v) (membersNesting o) := by
  rw [membersNesting_perm (put_fresh h), membersNesting]

theorem membersNesting_put_le (o : QJsonObject) (key : QString) (v : QJsonValue) :
    membersNesting (QJsonObject.put key v o) ≤ max (nesting v) (membersNesting o) := by
  induction o with
  | nil => simp [QJsonObject.put, membersNesting]
  | cons e o ih =>
    obtain ⟨k, w⟩ := e
    rw [QJsonObject.put]
    split_ifs <;> simp only [membersNesting] <;> omega

private theorem membersNesting_filter (o : QJsonObject) (keep : QString × QJsonValue → Bool) :
    membersNesting (o.filter keep) ≤ membersNesting o := by
  induction o with
  | nil => simp
  | cons e o ih =>
    obtain ⟨k, v⟩ := e
    rw [List.filter_cons]
    split_ifs <;> simp only [membersNesting] <;> omega

theorem membersNesting_le {o : QJsonObject} {n : Nat} (h : ∀ e ∈ o, nesting e.2 ≤ n) : membersNesting o ≤ n := by
  induction o with
  | nil => simp [membersNesting]
  | cons e o ih =>
    obtain ⟨k, v⟩ := e
    rw [membersNesting]
    exact max_le (h _ List.mem_cons_self) (ih fun f hf => h f (List.mem_cons_of_mem _ hf))

theorem itemsNesting_le {items : List QJsonValue} {n : Nat} (h : ∀ v ∈ items, nesting v ≤ n) :
    itemsNesting items ≤ n := by
  induction items with
  | nil => simp [itemsNesting]
  | cons v items ih =>
    rw [itemsNesting]
    exact max_le (h _ List.mem_cons_self) (ih fun w hw => h w (List.mem_cons_of_mem _ hw))

/-- An object built from shallow members is one level deeper than they are. -/
theorem nesting_ofList_le {members : List (QString × QJsonValue)} {n : Nat} (h : ∀ m ∈ members, nesting m.2 ≤ n) :
    nesting (.object (QJsonObject.ofList members)) ≤ n + 1 := by
  have hfold (o : QJsonObject) (ho : membersNesting o ≤ n) :
      membersNesting (members.foldl (fun o m => QJsonObject.insert o m.1 m.2) o) ≤ n := by
    induction members generalizing o with
    | nil => exact ho
    | cons m members ih =>
      apply ih fun m hm => h m (List.mem_cons_of_mem _ hm)
      simp only [QJsonObject.insert]
      split_ifs
      · exact (membersNesting_filter o _).trans ho
      · exact (membersNesting_put_le o m.1 m.2).trans (max_le (h m List.mem_cons_self) ho)
  have := hfold [] (by simp [membersNesting])
  simp only [nesting]
  exact (Nat.add_comm 1 _).trans_le (Nat.add_le_add_right this 1)

end HyprShelld.Json
