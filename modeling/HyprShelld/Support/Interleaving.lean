import HyprShelld.Support.Program

/-! A program beside an environment: the world moves on between any two of its calls, and the
calls are answered by the world as it is then. -/
namespace HyprShelld

/-- The world now and the worlds before it, the latest first. -/
structure History (W : Type) where
  now : W
  before : List W := []

namespace History
variable {W : Type}

def worlds (h : History W) : List W := h.now :: h.before

def extend (h : History W) (w : W) : History W := ⟨w, h.worlds⟩

/-- A world follows where the value stays, or its tag is one that was never seen before. -/
def Guarded {τ β : Type} (tag : W → τ) (value : W → β) (h : History W) (w : W) : Prop :=
  (tag w = tag h.now ∧ value w = value h.now) ∨ ∀ past ∈ h.worlds, tag w ≠ tag past

end History

section Evolution
variable {W : Type} (step : History W → W → Prop)

/-- Any number of steps of the environment. -/
inductive Evolves : History W → History W → Prop
  | refl (h : History W) : Evolves h h
  | step {h m : History W} {w : W} : Evolves h m → step m w → Evolves h (m.extend w)

variable {step}

theorem Evolves.trans {h m h' : History W} (h1 : Evolves step h m) (h2 : Evolves step m h') : Evolves step h h' := by
  induction h2 with
  | refl => exact h1
  | step _ hs ih => exact .step ih hs

theorem Evolves.mem {h m : History W} (he : Evolves step h m) : h.now ∈ m.worlds := by
  induction he with
  | refl => exact List.mem_cons_self
  | step _ _ ih => exact List.mem_cons_of_mem _ ih

variable {τ β : Type} {tag : W → τ} {value : W → β}

private theorem Evolves.left (hguard : ∀ h w, step h w → History.Guarded tag value h w) {h m h' : History W}
    (h1 : Evolves step h m) (h2 : Evolves step m h') (hm : tag m.now ≠ tag h.now) : tag h'.now ≠ tag h.now := by
  induction h2 with
  | refl => exact hm
  | @step l w h2 hs ih =>
    rcases hguard l w hs with ⟨htag, -⟩ | hfresh
    · show tag w ≠ tag h.now
      rw [htag]
      exact ih
    · exact hfresh _ (h1.trans h2).mem

private theorem Evolves.keeps (hguard : ∀ h w, step h w → History.Guarded tag value h w) {h m : History W}
    (he : Evolves step h m) : (tag m.now = tag h.now ∧ value m.now = value h.now) ∨ tag m.now ≠ tag h.now := by
  induction he with
  | refl => exact .inl ⟨rfl, rfl⟩
  | @step l w h1 hs ih =>
    rcases hguard l w hs with ⟨htag, hvalue⟩ | hfresh
    · show (tag w = _ ∧ value w = _) ∨ tag w ≠ _
      rw [htag, hvalue]
      exact ih
    · exact .inr (hfresh _ h1.mem)

/-- A guarded value is the same at every moment between two at which the tag is. -/
theorem Evolves.guarded (hguard : ∀ h w, step h w → History.Guarded tag value h w) {h m h' : History W}
    (h1 : Evolves step h m) (h2 : Evolves step m h') (htag : tag h'.now = tag h.now) :
    tag m.now = tag h.now ∧ value m.now = value h.now := by
  rcases h1.keeps hguard with hsame | hm
  · exact hsame
  · exact absurd htag (h1.left hguard h2 hm)

end Evolution

section Runs
variable {W Call : Type} {Answer : Call → Type} {α β : Type} (step : History W → W → Prop)
  (answers : W → (c : Call) → Answer c → Prop)

/-- The program runs from one history to another and returns the value. -/
inductive Runs : History W → Program Call Answer α → History W → α → Prop
  | done {h h' : History W} {a : α} : Evolves step h h' → Runs h (.done a) h' a
  | call {h m h' : History W} {c : Call} {next : Answer c → Program Call Answer α} {answer : Answer c} {a : α} :
    Evolves step h m → answers m.now c answer → Runs m (next answer) h' a → Runs h (.call c next) h' a

variable {step answers}

theorem Runs.evolves {h h' : History W} {x : Program Call Answer α} {a : α} (hr : Runs step answers h x h' a) :
    Evolves step h h' := by
  induction hr with
  | done he => exact he
  | call he _ _ ih => exact he.trans ih

theorem Runs.after {h m h' : History W} {x : Program Call Answer α} {a : α} (he : Evolves step h m)
    (hr : Runs step answers m x h' a) : Runs step answers h x h' a := by
  cases hr with
  | done h' => exact .done (he.trans h')
  | call h' ha hn => exact .call (he.trans h') ha hn

@[simp] theorem runs_bind {h h' : History W} {x : Program Call Answer α} {f : α → Program Call Answer β} {b : β} :
    Runs step answers h (x >>= f) h' b ↔ ∃ a m, Runs step answers h x m a ∧ Runs step answers m (f a) h' b := by
  constructor
  · intro hr
    induction x generalizing h with
    | done a => exact ⟨a, h, .done (.refl h), hr⟩
    | call c next ih =>
      cases hr with
      | call he ha hn =>
        obtain ⟨a, m, hx, hf⟩ := ih _ hn
        exact ⟨a, m, .call he ha hx, hf⟩
  · rintro ⟨a, m, hx, hf⟩
    induction hx with
    | done he => exact hf.after he
    | call he ha _ ih => exact .call he ha (ih hf)

@[simp] theorem runs_done {h h' : History W} {a b : α} :
    Runs step answers h (.done a : Program Call Answer α) h' b ↔ a = b ∧ Evolves step h h' := by
  constructor
  · rintro ⟨he⟩
    exact ⟨rfl, he⟩
  · rintro ⟨rfl, he⟩
    exact .done he

theorem runs_ask {h h' : History W} {c : Call} {answer : Answer c}
    (hr : Runs step answers h (Program.ask c) h' answer) :
    ∃ m, Evolves step h m ∧ answers m.now c answer ∧ Evolves step m h' := by
  cases hr with
  | call he ha hn =>
    obtain ⟨rfl, hlast⟩ := runs_done.mp hn
    exact ⟨_, he, ha, hlast⟩

/-- Where nothing happens beside it, a program returns what the standing answers make of it. -/
theorem runs_settled {answer : (c : Call) → Answer c} {h : History W}
    (ha : ∀ c, answers h.now c (answer c)) (x : Program Call Answer α) :
    Runs step answers h x h (x.settled answer) := by
  induction x with
  | done a => exact .done (.refl h)
  | call c next ih => exact .call (.refl h) (ha c) (ih (answer c))

end Runs

section Stateful
variable {W Call σ : Type} {Answer : Call → Type} {α β : Type} (step : History W → W → Prop)
  (answers : W → (c : Call) → Answer c → Prop)

/-- The same for a program with a state of its own. -/
abbrev Does (h : History W) (s : σ) (x : StateT σ (Program Call Answer) α) (h' : History W) (s' : σ) (a : α) : Prop :=
  Runs step answers h (x.run s) h' (a, s')

/-- Every run of the program takes its state along the relation. -/
def Along (r : σ → σ → Prop) (x : StateT σ (Program Call Answer) α) : Prop :=
  ∀ {h h' : History W} {s s' : σ} {a : α}, Does step answers h s x h' s' a → r s s'

variable {step answers} {h h' : History W} {s s' : σ}

theorem does_bind {x : StateT σ (Program Call Answer) α} {f : α → StateT σ (Program Call Answer) β} {b : β} :
    Does step answers h s (x >>= f) h' s' b ↔
      ∃ a m t, Does step answers h s x m t a ∧ Does step answers m t (f a) h' s' b := by
  simp only [Does, StateT.run_bind, runs_bind, Prod.exists]
  constructor
  · rintro ⟨a, t, m, hx, hf⟩
    exact ⟨a, m, t, hx, hf⟩
  · rintro ⟨a, m, t, hx, hf⟩
    exact ⟨a, t, m, hx, hf⟩

theorem does_pure {a b : α} :
    Does step answers h s (pure a : StateT σ (Program Call Answer) α) h' s' b ↔ (b = a ∧ s' = s) ∧ Evolves step h h' := by
  simp only [Does, StateT.run_pure, Program.pure_eq, runs_done, Prod.mk.injEq]
  constructor
  · rintro ⟨⟨rfl, rfl⟩, he⟩
    exact ⟨⟨rfl, rfl⟩, he⟩
  · rintro ⟨⟨rfl, rfl⟩, he⟩
    exact ⟨⟨rfl, rfl⟩, he⟩

theorem does_get {t : σ} :
    Does step answers h s (get : StateT σ (Program Call Answer) σ) h' s' t ↔ (t = s ∧ s' = s) ∧ Evolves step h h' :=
  does_pure (a := s)

theorem does_set {t : σ} {u : PUnit} :
    Does step answers h s (set t : StateT σ (Program Call Answer) PUnit) h' s' u ↔ s' = t ∧ Evolves step h h' := by
  simp [Does, StateT.run_set, runs_done, eq_comm]

theorem does_modify {f : σ → σ} {u : PUnit} :
    Does step answers h s (modify f : StateT σ (Program Call Answer) PUnit) h' s' u ↔ s' = f s ∧ Evolves step h h' := by
  simp [Does, modify, modifyGet, MonadStateOf.modifyGet, StateT.modifyGet, StateT.run, runs_done, eq_comm]

theorem does_ask {c : Call} {answer : Answer c}
    (hd : Does step answers h s (StateT.lift (Program.ask c) : StateT σ (Program Call Answer) _) h' s' answer) :
    s' = s ∧ ∃ m, Evolves step h m ∧ answers m.now c answer ∧ Evolves step m h' := by
  simp only [Does, StateT.run_lift, runs_bind] at hd
  obtain ⟨a, m, hask, hdone⟩ := hd
  obtain ⟨hpair, hlast⟩ := runs_done.mp hdone
  cases hpair
  obtain ⟨l, hl, ha, hm⟩ := runs_ask hask
  exact ⟨rfl, l, hl, ha, hm.trans hlast⟩

variable {r : σ → σ → Prop}

theorem Along.pure [Std.Refl r] (a : α) : Along step answers r (Pure.pure a : StateT σ (Program Call Answer) α) := by
  intro h h' s s' b hd
  obtain ⟨⟨-, rfl⟩, -⟩ := does_pure.mp hd
  exact Std.Refl.refl _

theorem Along.get [Std.Refl r] : Along step answers r (MonadState.get : StateT σ (Program Call Answer) σ) := by
  intro h h' s s' b hd
  obtain ⟨⟨-, rfl⟩, -⟩ := does_get.mp hd
  exact Std.Refl.refl _

theorem Along.modify {f : σ → σ} (hf : ∀ s, r s (f s)) :
    Along step answers r (modify f : StateT σ (Program Call Answer) PUnit) := by
  intro h h' s s' b hd
  obtain ⟨rfl, -⟩ := does_modify.mp hd
  exact hf s

theorem Along.ask [Std.Refl r] (c : Call) :
    Along step answers r (StateT.lift (Program.ask c) : StateT σ (Program Call Answer) _) := by
  intro h h' s s' b hd
  obtain ⟨rfl, -⟩ := does_ask hd
  exact Std.Refl.refl _

theorem Along.bind [IsTrans σ r] {x : StateT σ (Program Call Answer) α} {f : α → StateT σ (Program Call Answer) β}
    (hx : Along step answers r x) (hf : ∀ a, Along step answers r (f a)) : Along step answers r (x >>= f) := by
  intro h h' s s' b hd
  obtain ⟨a, m, t, h1, h2⟩ := does_bind.mp hd
  exact IsTrans.trans _ _ _ (hx h1) (hf a h2)

end Stateful
end HyprShelld
