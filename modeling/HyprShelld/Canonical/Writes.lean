import HyprShelld.Canonical.Serializer
import HyprShelld.Json.RenderText

/-! What a writer appends: a text and a number of counted values, when its input is good
and the output stays within the limits. -/
namespace HyprShelld.CanonicalJson
open Json

/-- The output after some text and some counted values. -/
def Output.grow (o : Output) (text : QString) (n : Nat) : Output :=
  ⟨o.output ++ toUtf8 text, o.valueCount + n⟩

def Within (limits : Limits) (o : Output) : Prop :=
  (o.output.length : Int) ≤ limits.maximumBytes ∧ (o.valueCount : Int) ≤ limits.maximumValues

theorem Output.grow_grow {o : Output} {t u : QString} {n m : Nat} (ht : IsText t) :
    (o.grow t n).grow u m = o.grow (t ++ u) (n + m) := by
  simp only [Output.grow, toUtf8_append ht, List.append_assoc, Nat.add_assoc]

@[simp] theorem Output.grow_nil (o : Output) : o.grow [] 0 = o := by
  simp [Output.grow, toUtf8]

theorem Within.of_grow {limits : Limits} {o : Output} {t : QString} {n : Nat}
    (h : Within limits (o.grow t n)) : Within limits o := by
  obtain ⟨hb, hv⟩ := h
  simp only [Output.grow, List.length_append] at hb hv
  push_cast at hb hv
  exact ⟨by omega, by omega⟩

variable (limits : Limits)

/-- From an output within the limits, f succeeds exactly on good input whose text and
values still fit, and then it has written just these. -/
def Writes (f : Output → Except Error Output) (good : Prop) (text : QString) (n : Nat) : Prop :=
  ∀ o o', Within limits o → (f o = .ok o' ↔ good ∧ Within limits (o.grow text n) ∧ o' = o.grow text n)

variable {limits}

theorem Writes.bind {f g : Output → Except Error Output} {p q : Prop} {t u : QString} {n m : Nat}
    (hf : Writes limits f p t n) (ht : p → IsText t) (hg : p → Writes limits g q u m) :
    Writes limits (fun o => f o >>= g) (p ∧ q) (t ++ u) (n + m) := by
  intro o o' ho
  rw [bind_ok_iff]
  constructor
  · rintro ⟨o₁, h₁, h₂⟩
    obtain ⟨hp, hw, rfl⟩ := (hf o o₁ ho).mp h₁
    obtain ⟨hq, hw', rfl⟩ := (hg hp _ _ hw).mp h₂
    rw [Output.grow_grow (ht hp)] at hw' ⊢
    exact ⟨⟨hp, hq⟩, hw', rfl⟩
  · rintro ⟨⟨hp, hq⟩, hw, rfl⟩
    rw [← Output.grow_grow (ht hp)] at hw ⊢
    exact ⟨_, (hf o _ ho).mpr ⟨hp, hw.of_grow, rfl⟩, (hg hp _ _ hw.of_grow).mpr ⟨hq, hw, rfl⟩⟩

theorem Writes.congr {f : Output → Except Error Output} {p q : Prop} {t u : QString} {n m : Nat}
    (h : Writes limits f p t n) (hp : p ↔ q) (ht : p → t = u) (hn : n = m) : Writes limits f q u m := by
  subst hn
  intro o o' ho
  rw [h o o' ho]
  constructor
  · rintro ⟨hg, hw⟩
    rw [ht hg] at hw
    exact ⟨hp.mp hg, hw⟩
  · rintro ⟨hg, hw⟩
    rw [← ht (hp.mpr hg)] at hw
    exact ⟨hp.mpr hg, hw⟩

theorem Writes.pure : Writes limits (fun o => .ok o) True [] 0 := by
  intro o o' ho
  simp only [Output.grow_nil, ho, true_and, Except.ok.injEq]
  exact eq_comm

theorem Writes.error (e : Error) (t : QString) (n : Nat) : Writes limits (fun _ => .error e) False t n := by
  intro o o' _
  simp

/-- A check that does not touch the output. -/
theorem Writes.check {x : Except Error Unit} {p q : Prop} (hx : x = .ok () ↔ p)
    {g : Output → Except Error Output} {u : QString} {m : Nat} (hg : p → Writes limits g q u m) :
    Writes limits (fun o => x >>= fun _ => g o) (p ∧ q) u m := by
  intro o o' ho
  rw [bind_ok_iff]
  constructor
  · rintro ⟨⟨⟩, h₁, h₂⟩
    have hp := hx.mp h₁
    obtain ⟨hq, hw⟩ := (hg hp _ _ ho).mp h₂
    exact ⟨⟨hp, hq⟩, hw⟩
  · rintro ⟨⟨hp, hq⟩, hw⟩
    exact ⟨(), hx.mpr hp, (hg hp _ _ ho).mpr ⟨hq, hw⟩⟩

variable (limits)

theorem append_writes (t path : QString) : Writes limits (append limits (toUtf8 t) path) True t 0 := by
  intro o o' ho
  obtain ⟨hb, hv⟩ := ho
  unfold append
  simp only [true_and, Within, Output.grow, List.length_append]
  split_ifs with h
  · constructor
    · intro he
      cases he
    · rintro ⟨⟨hw, _⟩, _⟩
      push_cast at hw
      omega
  · constructor
    · intro he
      cases he
      exact ⟨⟨by push_cast; omega, hv⟩, rfl⟩
    · rintro ⟨_, rfl⟩
      rfl

theorem countValue_writes (path : QString) : Writes limits (countValue limits path) True [] 1 := by
  intro o o' ho
  obtain ⟨hb, hv⟩ := ho
  unfold countValue
  simp only [true_and, Within, Output.grow, toUtf8, List.append_nil]
  split_ifs with h
  · constructor
    · intro he
      cases he
    · rintro ⟨⟨_, hw⟩, _⟩
      push_cast at hw
      omega
  · constructor
    · intro he
      cases he
      exact ⟨⟨hb, by push_cast; omega⟩, rfl⟩
    · rintro ⟨_, rfl⟩
      rfl

end HyprShelld.CanonicalJson
