import HyprShelld.Json.Value
import Mathlib.Data.List.Nodup

/-! Objects as finite maps: lookup determines an object whose keys are sorted. -/
namespace HyprShelld
namespace QJsonObject

theorem lookup_cons_ite (l k : QString) (w : QJsonValue) (o : QJsonObject) :
    List.lookup k ((l, w) :: o) = if k = l then some w else List.lookup k o := by
  rw [List.lookup_cons]
  by_cases h : k = l
  · simp [h]
  · rw [beq_eq_false_iff_ne.mpr h, if_neg h]

@[simp] theorem lookup_put (o : QJsonObject) (key k : QString) (v : QJsonValue) :
    (put key v o).lookup k = if k = key then some v else o.lookup k := by
  induction o with
  | nil => rw [put, lookup_cons_ite]
  | cons e o ih =>
    obtain ⟨l, w⟩ := e
    rw [put]
    split_ifs with h1 h2 h3 <;> simp only [lookup_cons_ite, ih] <;> grind

theorem lookup_remove (o : QJsonObject) (key k : QString) :
    (remove o key).lookup k = if k = key then none else o.lookup k := by
  induction o with
  | nil => simp [remove]
  | cons e o ih =>
    obtain ⟨l, w⟩ := e
    simp only [remove] at ih ⊢
    by_cases hl : l = key
    · subst hl
      rw [List.filter_cons_of_neg (by simp), ih, lookup_cons_ite]
      split_ifs <;> rfl
    · rw [List.filter_cons_of_pos (by simpa using hl), lookup_cons_ite, ih, lookup_cons_ite]
      grind

theorem lookup_insert (o : QJsonObject) (key k : QString) {v : QJsonValue} (hv : v ≠ .undefined) :
    (insert o key v).lookup k = if k = key then some v else o.lookup k := by
  simp [insert, hv]

theorem mem_put {o : QJsonObject} {key : QString} {v : QJsonValue} {e : QString × QJsonValue}
    (h : e ∈ put key v o) : e = (key, v) ∨ e ∈ o := by
  induction o with
  | nil => simpa [put] using h
  | cons f o ih =>
    rw [put] at h
    split_ifs at h <;> grind

theorem sorted_put {o : QJsonObject} (ho : Sorted o) (key : QString) (v : QJsonValue) :
    Sorted (put key v o) := by
  induction o with
  | nil => simp [put, Sorted]
  | cons e o ih =>
    obtain ⟨l, w⟩ := e
    have hl := List.pairwise_cons.mp ho
    rw [put]
    split_ifs with h1 h2
    · subst h1
      exact List.pairwise_cons.mpr ⟨hl.1, hl.2⟩
    · refine List.pairwise_cons.mpr ⟨?_, ho⟩
      intro f hf
      rcases List.mem_cons.mp hf with rfl | hf
      · exact h2
      · exact utf16Less_trans h2 (hl.1 f hf)
    · refine List.pairwise_cons.mpr ⟨?_, ih hl.2⟩
      intro f hf
      rcases mem_put hf with rfl | hf
      · exact (utf16Less_total h1).resolve_left (by simpa using h2)
      · exact hl.1 f hf

theorem sorted_remove {o : QJsonObject} (ho : Sorted o) (key : QString) : Sorted (remove o key) :=
  ho.filter _

theorem sorted_insert {o : QJsonObject} (ho : Sorted o) (key : QString) (v : QJsonValue) :
    Sorted (insert o key v) := by
  unfold insert
  split_ifs
  · exact sorted_remove ho key
  · exact sorted_put ho key v

theorem sorted_nil : Sorted [] := List.Pairwise.nil

theorem sorted_ofList (members : List (QString × QJsonValue)) : Sorted (ofList members) := by
  have h (o : QJsonObject) (ho : Sorted o) :
      Sorted (members.foldl (fun o m => insert o m.1 m.2) o) := by
    induction members generalizing o with
    | nil => exact ho
    | cons m members ih => exact ih _ (sorted_insert ho m.1 m.2)
  exact h [] sorted_nil

theorem lookup_of_nodup {o : QJsonObject} (ho : (o.map (·.1)).Nodup) {k : QString} {v : QJsonValue}
    (h : (k, v) ∈ o) : o.lookup k = some v := by
  induction o with
  | nil => simp at h
  | cons e o ih =>
    obtain ⟨l, w⟩ := e
    obtain ⟨hl, ho⟩ := List.nodup_cons.mp ho
    rcases List.mem_cons.mp h with he | hm
    · cases he
      simp
    · have hne : k ≠ l := by
        rintro rfl
        exact hl (List.mem_map.mpr ⟨(k, v), hm, rfl⟩)
      rw [lookup_cons_ite, if_neg hne]
      exact ih ho hm

theorem keys_nodup {o : QJsonObject} (ho : Sorted o) : o.keys.Nodup := by
  rw [keys, List.Nodup, List.pairwise_map]
  exact List.Pairwise.imp (fun h => utf16Less_ne h) ho

theorem lookup_eq_some_of_mem {o : QJsonObject} (ho : Sorted o) {k : QString} {v : QJsonValue}
    (h : (k, v) ∈ o) : o.lookup k = some v := lookup_of_nodup (keys_nodup ho) h

theorem mem_of_lookup_eq_some {o : QJsonObject} {k : QString} {v : QJsonValue}
    (h : o.lookup k = some v) : (k, v) ∈ o := by
  induction o with
  | nil => simp at h
  | cons e o ih =>
    obtain ⟨l, w⟩ := e
    rw [lookup_cons_ite] at h
    split_ifs at h with hk
    · cases h
      rw [hk]
      exact List.mem_cons_self
    · exact List.mem_cons_of_mem _ (ih h)

theorem nodup_of_sorted {o : QJsonObject} (ho : Sorted o) : o.Nodup :=
  List.Pairwise.imp (fun h e => utf16Less_ne h (congrArg Prod.fst e)) (show List.Pairwise _ o from ho)

/-- Sorted objects with the same value at every key are equal. -/
theorem ext_lookup {a b : QJsonObject} (ha : Sorted a) (hb : Sorted b)
    (h : ∀ k, a.lookup k = b.lookup k) : a = b := by
  have hp : List.Perm a b := by
    apply (List.perm_ext_iff_of_nodup (nodup_of_sorted ha) (nodup_of_sorted hb)).mpr
    rintro ⟨k, v⟩
    constructor
    · intro hm
      exact mem_of_lookup_eq_some ((h k).symm.trans (lookup_eq_some_of_mem ha hm))
    · intro hm
      exact mem_of_lookup_eq_some ((h k).trans (lookup_eq_some_of_mem hb hm))
  refine List.Perm.eq_of_pairwise ?_
    (show List.Pairwise (fun x y => utf16Less x.1 y.1 = true) a from ha) hb hp
  intro x y _ _ hxy hyx
  exact absurd (utf16Less_trans hxy hyx) (by simp [utf16Less_irrefl])

private theorem lookup_foldl_insert {members : List (QString × QJsonValue)} {o : QJsonObject}
    (hn : (members.map (·.1)).Nodup) (hd : ∀ m ∈ members, m.2 ≠ .undefined) (k : QString) :
    (members.foldl (fun o m => insert o m.1 m.2) o).lookup k = (members.lookup k).or (o.lookup k) := by
  induction members generalizing o with
  | nil => rfl
  | cons m members ih =>
    obtain ⟨key, v⟩ := m
    obtain ⟨hkey, hn⟩ := List.nodup_cons.mp hn
    rw [List.foldl_cons, ih hn fun n hm => hd n (List.mem_cons_of_mem _ hm),
      lookup_insert _ _ _ (hd (key, v) List.mem_cons_self), lookup_cons_ite]
    split_ifs with he
    · have hnone : members.lookup k = none := by
        rw [List.lookup_eq_none_iff]
        intro n hm
        rw [bne_iff_ne]
        intro hkn
        exact hkey (List.mem_map.mpr ⟨n, hm, hkn.symm.trans he⟩)
      rw [hnone]
      rfl
    · rfl

/-- An object built from members with distinct keys has their values. -/
theorem lookup_ofList {members : List (QString × QJsonValue)} (hn : (members.map (·.1)).Nodup)
    (hd : ∀ m ∈ members, m.2 ≠ .undefined) (k : QString) : (ofList members).lookup k = members.lookup k := by
  rw [ofList, lookup_foldl_insert hn hd]
  simp

theorem lookup_of_value {o : QJsonObject} {k : QString} {v : QJsonValue} (h : o.value k = v)
    (hv : v ≠ .undefined) : o.lookup k = some v := by
  unfold value at h
  cases hl : List.lookup k o with
  | none =>
    rw [hl] at h
    exact absurd h.symm hv
  | some w =>
    rw [hl] at h
    rw [← h]
    rfl

theorem value_of_lookup {o : QJsonObject} {k : QString} {v : QJsonValue} (h : o.lookup k = some v) :
    o.value k = v := by
  simp [value, h]

/-- The members hold in the object. -/
def Holds (o : QJsonObject) (members : List (QString × QJsonValue)) : Prop :=
  ∀ m ∈ members, o.value m.1 = m.2 ∧ m.2 ≠ .undefined

@[simp] theorem holds_nil (o : QJsonObject) : Holds o [] := by simp [Holds]

@[simp] theorem holds_cons {o : QJsonObject} {k : QString} {v : QJsonValue} {rest : List (QString × QJsonValue)} :
    Holds o ((k, v) :: rest) ↔ (o.value k = v ∧ v ≠ .undefined) ∧ Holds o rest := by
  simp [Holds]

@[simp] theorem holds_append {o : QJsonObject} {a b : List (QString × QJsonValue)} :
    Holds o (a ++ b) ↔ Holds o a ∧ Holds o b := by
  exact List.forall_mem_append

private theorem lookup_foldl {o acc : QJsonObject} {members : List (QString × QJsonValue)}
    (hm : Holds o members) (k : QString) :
    (members.foldl (fun o m => insert o m.1 m.2) acc).lookup k =
      if k ∈ members.map (·.1) then o.lookup k else acc.lookup k := by
  induction members generalizing acc with
  | nil => simp
  | cons m members ih =>
    obtain ⟨key, v⟩ := m
    obtain ⟨⟨hv, hd⟩, hm⟩ := holds_cons.mp hm
    rw [List.foldl_cons, ih hm, lookup_insert _ _ _ hd]
    by_cases hk : k ∈ members.map (·.1)
    · simp [hk]
    · by_cases he : k = key
      · subst he
        simp [hk, lookup_of_value hv hd]
      · simp [hk, he]

/-- An object is the one built from members that hold in it and cover its keys. -/
theorem ofList_eq {o : QJsonObject} {members : List (QString × QJsonValue)} (ho : Sorted o)
    (hm : Holds o members) (hk : ∀ k ∈ o.keys, k ∈ members.map (·.1)) : ofList members = o := by
  apply ext_lookup (sorted_ofList members) ho
  intro k
  rw [ofList, lookup_foldl hm]
  by_cases h : k ∈ members.map (·.1)
  · rw [if_pos h]
  · rw [if_neg h, List.lookup_nil]
    cases hl : List.lookup k o with
    | none => rfl
    | some v =>
      exact absurd (hk k (List.mem_map_of_mem (mem_of_lookup_eq_some hl))) h

theorem ofList_self {o : QJsonObject} (ho : Sorted o) (hd : ∀ m ∈ o, m.2 ≠ .undefined) : ofList o = o := by
  refine ofList_eq ho (fun m hm => ⟨value_of_lookup (lookup_eq_some_of_mem ho hm), hd m hm⟩) ?_
  intro k hk
  exact hk

theorem value_ofList {members : List (QString × QJsonValue)} (hn : (members.map (·.1)).Nodup)
    (hd : ∀ m ∈ members, m.2 ≠ .undefined) (k : QString) :
    (ofList members).value k = (members.lookup k).getD .undefined := by
  rw [value, lookup_ofList hn hd]

/-- Members with the same distinct keys make the same object only when they are the same. -/
theorem ofList_inj {a b : List (QString × QJsonValue)} (hn : (a.map (·.1)).Nodup) (hk : a.map (·.1) = b.map (·.1))
    (ha : ∀ m ∈ a, m.2 ≠ .undefined) (hb : ∀ m ∈ b, m.2 ≠ .undefined) (h : ofList a = ofList b) : a = b := by
  have hlookup : ∀ k, a.lookup k = b.lookup k := by
    intro k
    rw [← lookup_ofList hn ha, h, lookup_ofList (hk ▸ hn) hb]
  have hlength : a.length = b.length := by simpa using congrArg List.length hk
  apply List.ext_getElem hlength
  intro i hi hi'
  have hkey : a[i].1 = b[i].1 := by
    have := congrArg (·[i]?) hk
    simpa [hi, hi'] using this
  have hva : a.lookup a[i].1 = some a[i].2 := lookup_of_nodup hn (List.getElem_mem hi)
  have hvb : b.lookup b[i].1 = some b[i].2 := lookup_of_nodup (hk ▸ hn) (List.getElem_mem hi')
  rw [hlookup, hkey, hvb] at hva
  exact Prod.ext hkey (Option.some.inj hva).symm

theorem mem_keys {o : QJsonObject} {k : QString} : k ∈ o.keys ↔ o.lookup k ≠ none := by
  rw [ne_eq, List.lookup_eq_none_iff]
  simp only [keys, List.mem_map, not_forall, bne_iff_ne, ne_eq, not_not]
  constructor
  · intro h
    obtain ⟨e, he, hk⟩ := h
    exact ⟨e, he, hk.symm⟩
  · intro h
    obtain ⟨e, he, hk⟩ := h
    exact ⟨e, he, hk.symm⟩

theorem keys_ofList {members : List (QString × QJsonValue)} (hn : (members.map (·.1)).Nodup)
    (hd : ∀ m ∈ members, m.2 ≠ .undefined) : (ofList members).keys.Perm (members.map (·.1)) := by
  apply (List.perm_ext_iff_of_nodup (keys_nodup (sorted_ofList members)) hn).mpr
  intro k
  rw [mem_keys, lookup_ofList hn hd, ← mem_keys]
  rfl

/-- An object built from members with distinct keys holds these members. -/
theorem ofList_perm {members : List (QString × QJsonValue)} (hn : (members.map (·.1)).Nodup)
    (hd : ∀ m ∈ members, m.2 ≠ .undefined) : (ofList members).Perm members := by
  apply (List.perm_ext_iff_of_nodup (nodup_of_sorted (sorted_ofList members)) (List.Nodup.of_map _ hn)).mpr
  intro m
  obtain ⟨k, v⟩ := m
  constructor
  · intro h
    have hl := lookup_eq_some_of_mem (sorted_ofList members) h
    rw [lookup_ofList hn hd] at hl
    exact mem_of_lookup_eq_some hl
  · intro h
    apply mem_of_lookup_eq_some
    rw [lookup_ofList hn hd]
    exact lookup_of_nodup hn h

end QJsonObject
end HyprShelld
