import HyprShelld.Json.Value
import Mathlib.Data.List.Nodup

/-! Maps from strings kept in key order, as QMap iterates over them. -/
namespace HyprShelld

abbrev QMap (α : Type) := List (QString × α)

namespace QMap
variable {α : Type}

def insert (key : QString) (a : α) : QMap α → QMap α
  | [] => [(key, a)]
  | (k, b) :: rest =>
    if key = k then (key, a) :: rest
    else if utf16Less key k then (key, a) :: (k, b) :: rest
    else (k, b) :: insert key a rest

def contains (m : QMap α) (key : QString) : Bool := (m.lookup key).isSome
def value [Inhabited α] (m : QMap α) (key : QString) : α := (m.lookup key).getD default

def ofList (entries : List (QString × α)) : QMap α := entries.foldl (fun m e => insert e.1 e.2 m) []

theorem mem_insert {m : QMap α} {key : QString} {a : α} {e : QString × α} (h : e ∈ insert key a m) :
    e = (key, a) ∨ e ∈ m := by
  induction m with
  | nil => simpa [insert] using h
  | cons f m ih =>
    rw [insert] at h
    split_ifs at h <;> grind

private theorem mem_foldl_insert {entries : List (QString × α)} {m : QMap α} {e : QString × α}
    (h : e ∈ entries.foldl (fun m e => insert e.1 e.2 m) m) : e ∈ m ∨ e ∈ entries := by
  induction entries generalizing m with
  | nil => exact .inl h
  | cons f entries ih =>
    rcases ih h with h | h
    · rcases mem_insert h with rfl | h
      · exact .inr List.mem_cons_self
      · exact .inl h
    · exact .inr (List.mem_cons_of_mem _ h)

theorem mem_ofList {entries : List (QString × α)} {e : QString × α} (h : e ∈ ofList entries) : e ∈ entries :=
  (mem_foldl_insert h).resolve_left (by simp)

theorem mem_of_lookup {m : QMap α} {key : QString} {a : α} (h : m.lookup key = some a) : (key, a) ∈ m := by
  induction m with
  | nil => simp at h
  | cons e m ih =>
    obtain ⟨k, b⟩ := e
    rw [List.lookup_cons] at h
    split at h
    · rename_i hk
      cases h
      rw [show key = k by simpa using hk]
      exact List.mem_cons_self
    · exact List.mem_cons_of_mem _ (ih h)

/-- Keys strictly ascending, hence without duplicates. -/
def Sorted (m : QMap α) : Prop := m.Pairwise fun a b => utf16Less a.1 b.1 = true

def keys (m : QMap α) : List QString := m.map (·.1)

theorem lookup_cons_ite (l k : QString) (a : α) (m : QMap α) :
    List.lookup k ((l, a) :: m) = if k = l then some a else List.lookup k m := by
  rw [List.lookup_cons]
  by_cases h : k = l
  · simp [h]
  · rw [beq_eq_false_iff_ne.mpr h, if_neg h]

@[simp] theorem lookup_insert (m : QMap α) (key k : QString) (a : α) :
    (insert key a m).lookup k = if k = key then some a else m.lookup k := by
  induction m with
  | nil => rw [insert, lookup_cons_ite]
  | cons e m ih =>
    obtain ⟨l, b⟩ := e
    rw [insert]
    split_ifs with h1 h2 h3 <;> simp only [lookup_cons_ite, ih] <;> grind

theorem sorted_nil : Sorted ([] : QMap α) := List.Pairwise.nil

theorem sorted_insert {m : QMap α} (hm : Sorted m) (key : QString) (a : α) : Sorted (insert key a m) := by
  induction m with
  | nil => simp [insert, Sorted]
  | cons e m ih =>
    obtain ⟨l, b⟩ := e
    have hl := List.pairwise_cons.mp hm
    rw [insert]
    split_ifs with h1 h2
    · subst h1
      exact List.pairwise_cons.mpr ⟨hl.1, hl.2⟩
    · apply List.pairwise_cons.mpr
      refine ⟨?_, hm⟩
      intro f hf
      rcases List.mem_cons.mp hf with rfl | hf
      · exact h2
      · exact utf16Less_trans h2 (hl.1 f hf)
    · apply List.pairwise_cons.mpr
      refine ⟨?_, ih hl.2⟩
      intro f hf
      rcases mem_insert hf with rfl | hf
      · exact (utf16Less_total h1).resolve_left (by simpa using h2)
      · exact hl.1 f hf

theorem sorted_filter {m : QMap α} (hm : Sorted m) (keep : QString × α → Bool) :
    Sorted (List.filter keep m) := List.Pairwise.filter _ hm

theorem lookup_of_mem {m : QMap α} (hm : Sorted m) {k : QString} {a : α} (h : (k, a) ∈ m) : m.lookup k = some a := by
  induction m with
  | nil => simp at h
  | cons e m ih =>
    obtain ⟨l, b⟩ := e
    have hl := List.pairwise_cons.mp hm
    rcases List.mem_cons.mp h with h | h
    · cases h
      simp
    · have hne := utf16Less_ne (hl.1 _ h)
      rw [lookup_cons_ite, if_neg (Ne.symm hne)]
      exact ih hl.2 h

theorem lookup_eq_some_iff {m : QMap α} (hm : Sorted m) {k : QString} {a : α} :
    m.lookup k = some a ↔ (k, a) ∈ m := ⟨mem_of_lookup, lookup_of_mem hm⟩

theorem lookup_eq_none_iff {m : QMap α} {k : QString} : m.lookup k = none ↔ k ∉ m.keys := by
  rw [List.lookup_eq_none_iff]
  simp only [keys, List.mem_map, not_exists, not_and, bne_iff_ne, ne_eq]
  constructor
  · intro h e he hk
    exact h e he hk.symm
  · intro h e he hk
    exact h e he hk.symm

theorem contains_iff {m : QMap α} {k : QString} : m.contains k = true ↔ k ∈ m.keys := by
  rw [contains, Option.isSome_iff_ne_none, ne_eq, lookup_eq_none_iff, not_not]

theorem nodup_of_sorted {m : QMap α} (hm : Sorted m) : m.keys.Nodup := by
  rw [keys, List.Nodup, List.pairwise_map]
  exact List.Pairwise.imp (fun h => utf16Less_ne h) hm

theorem insert_append {m : QMap α} {key : QString} {a : α} (h : ∀ e ∈ m, utf16Less e.1 key = true) :
    insert key a m = m ++ [(key, a)] := by
  induction m with
  | nil => rfl
  | cons e m ih =>
    obtain ⟨l, b⟩ := e
    have hl := h _ List.mem_cons_self
    have hne : key ≠ l := Ne.symm (utf16Less_ne hl)
    have hlt : utf16Less key l ≠ true := by
      intro hk
      exact absurd (utf16Less_trans hk hl) (by simp [utf16Less_irrefl])
    rw [insert, if_neg hne, if_neg hlt, ih fun f hf => h f (List.mem_cons_of_mem _ hf), List.cons_append]

/-- Reading a sorted map entry by entry gives the map back. -/
theorem ofList_sorted {m : QMap α} (hm : Sorted m) : ofList m = m := by
  have h (done rest : QMap α) (hs : Sorted (done ++ rest)) :
      rest.foldl (fun m e => insert e.1 e.2 m) done = done ++ rest := by
    induction rest generalizing done with
    | nil => simp
    | cons e rest ih =>
      have hlast : ∀ f ∈ done, utf16Less f.1 e.1 = true :=
        fun f hf => (List.pairwise_append.mp hs).2.2 f hf e List.mem_cons_self
      rw [List.foldl_cons, insert_append hlast, ih _ (by simpa using hs)]
      simp
  exact h [] m hm

theorem sorted_ofList (entries : List (QString × α)) : Sorted (ofList entries) := by
  have h (m : QMap α) (hm : Sorted m) : Sorted (entries.foldl (fun m e => insert e.1 e.2 m) m) := by
    induction entries generalizing m with
    | nil => exact hm
    | cons e entries ih => exact ih _ (sorted_insert hm e.1 e.2)
  exact h [] sorted_nil

private theorem lookup_foldl_of_notMem {entries : List (QString × α)} {m : QMap α} {k : QString}
    (h : k ∉ entries.map (·.1)) : (entries.foldl (fun m e => insert e.1 e.2 m) m).lookup k = m.lookup k := by
  induction entries generalizing m with
  | nil => rfl
  | cons e rest ih =>
    rw [List.map_cons, List.mem_cons, not_or] at h
    rw [List.foldl_cons, ih h.2, lookup_insert, if_neg h.1]

private theorem lookup_foldl_of_mem {entries : List (QString × α)} {m : QMap α} {k : QString} {a : α}
    (hn : (entries.map (·.1)).Nodup) (h : (k, a) ∈ entries) :
    (entries.foldl (fun m e => insert e.1 e.2 m) m).lookup k = some a := by
  induction entries generalizing m with
  | nil => cases h
  | cons e rest ih =>
    rw [List.map_cons, List.nodup_cons] at hn
    rw [List.foldl_cons]
    rcases List.mem_cons.mp h with rfl | h
    · rw [lookup_foldl_of_notMem hn.1, lookup_insert, if_pos rfl]
    · exact ih hn.2 h

/-- A map built from entries with distinct keys holds these entries. -/
theorem lookup_ofList_of_mem {entries : List (QString × α)} {k : QString} {a : α} (hn : (entries.map (·.1)).Nodup)
    (h : (k, a) ∈ entries) : (ofList entries).lookup k = some a := lookup_foldl_of_mem hn h

theorem lookup_ofList_iff {entries : List (QString × α)} (hn : (entries.map (·.1)).Nodup) {k : QString} {a : α} :
    (ofList entries).lookup k = some a ↔ (k, a) ∈ entries :=
  ⟨fun h => mem_ofList (mem_of_lookup h), lookup_ofList_of_mem hn⟩

theorem lookup_filter_key {m : QMap α} (keep : QString → Bool) (k : QString) :
    (List.filter (fun e => keep e.1) m).lookup k = if keep k then m.lookup k else none := by
  induction m with
  | nil => simp
  | cons e m ih =>
    obtain ⟨l, a⟩ := e
    by_cases hl : keep l = true
    · rw [List.filter_cons_of_pos (by simpa using hl), lookup_cons_ite, ih, lookup_cons_ite]
      grind
    · rw [List.filter_cons_of_neg (by simpa using hl), ih, lookup_cons_ite]
      grind

/-- QMap::remove. -/
def remove (key : QString) (m : QMap α) : QMap α := m.filter (·.1 ≠ key)

theorem lookup_remove (m : QMap α) (key k : QString) :
    (remove key m).lookup k = if k = key then none else m.lookup k := by
  rw [remove, lookup_filter_key (fun l => decide (l ≠ key))]
  grind

theorem sorted_remove {m : QMap α} (hm : Sorted m) (key : QString) : Sorted (remove key m) := sorted_filter hm _

end QMap
end HyprShelld
