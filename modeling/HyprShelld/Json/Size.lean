import HyprShelld.Json.RenderText
import HyprShelld.Text.Utf8
import Mathlib.Algebra.BigOperators.Group.List.Basic
import Mathlib.Algebra.Order.BigOperators.Group.List

/-! The bytes a rendered value takes are those of its parts and of what stands between them,
so a value with parts removed never takes more. -/
namespace HyprShelld.Json

variable (number : Double → QString)

def writtenSize (v : QJsonValue) : Nat := (toUtf8 (render number v)).length

def memberSize (e : QString × QJsonValue) : Nat :=
  (toUtf8 (renderString e.1)).length + 1 + writtenSize number e.2

variable {number} {text : QString → Prop} {num : Double → Prop}

private theorem utf8_ascii {c : Char} (hc : c.toNat < 0x80) (s : QString) :
    (toUtf8 (unit c :: s)).length = 1 + (toUtf8 s).length := by
  have hu : unit c :: s = utf16 [c] ++ s := by
    simp [utf16, utf16Unit, unit, show c.toNat < 0x10000 by omega]
  rw [hu, toUtf8_append ⟨[c], rfl⟩, List.length_append]
  congr 1
  rw [show utf16 [c] = utf16 [c] ++ [] from (List.append_nil _).symm, toUtf8_text (scalars_utf16 [c])]
  simp [utf8, String.utf8EncodeChar, toUtf8, show c.toNat ≤ 127 by omega]

private theorem utf8_separated {α : Type} {part : α → QString} {items : List α}
    (h : ∀ a ∈ items, IsText (part a)) (rest : QString) :
    (toUtf8 ((items.flatMap fun a => unit ',' :: part a) ++ rest)).length =
      (items.map fun a => 1 + (toUtf8 (part a)).length).sum + (toUtf8 rest).length := by
  induction items with
  | nil => simp
  | cons a items ih =>
    have ha := h a List.mem_cons_self
    have hrest := ih fun b hb => h b (List.mem_cons_of_mem _ hb)
    rw [List.flatMap_cons, List.append_assoc, List.cons_append, utf8_ascii (by decide), toUtf8_append ha,
      List.length_append, hrest, List.map_cons, List.sum_cons]
    omega

private theorem sum_separated {α : Type} (size : α → Nat) (items : List α) :
    (items.map fun a => 1 + size a).sum = items.length + (items.map size).sum := by
  induction items with
  | nil => rfl
  | cons a items ih =>
    simp only [List.map_cons, List.sum_cons, List.length_cons, ih]
    omega

theorem writtenSize_array (hn : ∀ x, num x → IsText (number x))
    {items : List QJsonValue} (h : ValidItems text num items) :
    writtenSize number (.array items) = 2 + (items.map (writtenSize number)).sum + (items.length - 1) := by
  have hitems : ∀ v ∈ items, IsText (render number v) := fun v hv => isText_render hn (validItems_iff.mp h v hv)
  rw [writtenSize, render, utf8_ascii (by decide)]
  cases items with
  | nil => rfl
  | cons v items =>
    rw [renderItems_cons_eq, List.append_assoc, toUtf8_append (hitems v List.mem_cons_self), List.length_append,
      utf8_separated (fun w hw => hitems w (List.mem_cons_of_mem _ hw)), sum_separated]
    have hclose : (toUtf8 [unit ']']).length = 1 := rfl
    have hsize : (items.map fun w => (toUtf8 (render number w)).length) = items.map (writtenSize number) := rfl
    rw [hclose, hsize, List.map_cons, List.sum_cons, List.length_cons, writtenSize]
    omega

theorem writtenSize_object (hn : ∀ x, num x → IsText (number x))
    {entries : QJsonObject} (h : ValidMembers text num entries) :
    writtenSize number (.object entries) = 2 + (entries.map (memberSize number)).sum + (entries.length - 1) := by
  have hmembers : ∀ e ∈ entries, IsText (renderMember number e) ∧
      (toUtf8 (renderMember number e)).length = memberSize number e := by
    intro e he
    obtain ⟨-, hv⟩ := validMembers_iff.mp h e he
    have hkey := isText_renderString e.1
    have hvalue := isText_render hn hv
    refine ⟨hkey.append ((isText_cons_single (by decide) (by decide)).mpr hvalue), ?_⟩
    rw [renderMember, toUtf8_append hkey, List.length_append, utf8_ascii (by decide), memberSize, writtenSize]
    omega
  rw [writtenSize, render, utf8_ascii (by decide)]
  cases entries with
  | nil => rfl
  | cons e entries =>
    rw [renderMembers_cons_eq, List.append_assoc, toUtf8_append (hmembers e List.mem_cons_self).1, List.length_append,
      utf8_separated (fun f hf => (hmembers f (List.mem_cons_of_mem _ hf)).1), sum_separated,
      (hmembers e List.mem_cons_self).2]
    have hsum : (entries.map fun f => (toUtf8 (renderMember number f)).length) = entries.map (memberSize number) :=
      List.map_congr_left fun f hf => (hmembers f (List.mem_cons_of_mem _ hf)).2
    simp only [hsum, List.map_cons, List.sum_cons, List.length_cons]
    have hclose : (toUtf8 [unit '\x7d']).length = 1 := rfl
    rw [hclose]
    omega

theorem writtenSize_ofList (hn : ∀ x, num x → IsText (number x))
    {members : List (QString × QJsonValue)} (hv : ∀ m ∈ members, text m.1 ∧ Valid text num m.2)
    (hk : (members.map (·.1)).Nodup) :
    writtenSize number (.object (QJsonObject.ofList members)) =
      2 + (members.map (memberSize number)).sum + (members.length - 1) := by
  have hp := QJsonObject.ofList_perm hk fun m hm => (hv m hm).2.ne_undefined
  rw [writtenSize_object hn (valid_ofList hv).2, (hp.map (memberSize number)).sum_eq, hp.length_eq]

/-- Leaving out parts and shrinking others shrinks the whole. -/
theorem sum_shrinks {α β : Type} {small : α → Nat} {large : β → Nat} {as : List α} {bs cs : List β}
    (h : List.Forall₂ (fun a b => small a ≤ large b) as bs) (hs : List.Sublist bs cs) :
    (as.map small).sum + (as.length - 1) ≤ (cs.map large).sum + (cs.length - 1) := by
  have hsum : (as.map small).sum ≤ (bs.map large).sum := by
    induction h with
    | nil => simp
    | cons hab _ ih =>
      simp only [List.map_cons, List.sum_cons]
      have := ih (List.sublist_of_cons_sublist hs)
      omega
  have hlength := h.length_eq
  have hbound := hs.length_le
  have hlarge : (bs.map large).sum ≤ (cs.map large).sum := List.Sublist.sum_le_sum (hs.map large) (by simp)
  omega

end HyprShelld.Json
