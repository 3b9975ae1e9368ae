import HyprShelld.Support.Program

/-! Programs whose calls change the world, run to their end or cut short, and a weakest precondition
with a crash condition. -/
namespace HyprShelld

section Execution
variable {W Call : Type} {Answer : Call → Type} {α β : Type} (effect : W → (c : Call) → Answer c → W → Prop)

/-- The program takes one world to another and returns a value, or it is cut short and returns none. -/
inductive Executes : W → Program Call Answer α → W → Option α → Prop
  | done (w : W) (a : α) : Executes w (.done a) w (some a)
  | cut (w : W) (x : Program Call Answer α) : Executes w x w none
  | call {w m w' : W} {c : Call} {next : Answer c → Program Call Answer α} {answer : Answer c} {r : Option α} :
    effect w c answer m → Executes m (next answer) w' r → Executes w (.call c next) w' r

variable {effect} in
theorem Executes.bind {w m w' : W} {x : Program Call Answer α} {f : α → Program Call Answer β} {a : α} {r : Option β}
    (h : Executes effect w x m (some a)) (hf : Executes effect m (f a) w' r) : Executes effect w (x >>= f) w' r := by
  generalize hr : some a = r' at h
  induction h with
  | done w b => exact Option.some_inj.mp hr ▸ hf
  | cut => cases hr
  | call he _ ih => exact .call he (ih hf hr)

namespace Program

theorem map_id (x : Program Call Answer α) : id <$> x = x := by
  induction x with
  | done a => rfl
  | call c next ih => exact congrArg (call c) (funext ih)

theorem bind_assoc {γ : Type} (x : Program Call Answer α) (f : α → Program Call Answer β) (g : β → Program Call Answer γ) :
    x >>= f >>= g = x >>= fun a => f a >>= g := by
  induction x with
  | done a => rfl
  | call c next ih => exact congrArg (call c) (funext ih)

instance : LawfulMonad (Program Call Answer) := LawfulMonad.mk' _ map_id (fun _ _ => rfl) bind_assoc

/-- Every execution from the world keeps to the crash condition at every cut and returns to the postcondition. -/
def wp (crash : W → Prop) (post : α → W → Prop) : Program Call Answer α → W → Prop
  | done a, w => crash w ∧ post a w
  | call c next, w => crash w ∧ ∀ answer m, effect w c answer m → (next answer).wp crash post m

variable {effect} {crash : W → Prop} {post post' : α → W → Prop} {w w' : W}

theorem wp.crashed {x : Program Call Answer α} (h : x.wp effect crash post w) : crash w := by
  cases x with
  | done a => exact h.1
  | call c next => exact h.1

theorem wp.mono {x : Program Call Answer α} (h : x.wp effect crash post w) (hpost : ∀ a m, post a m → post' a m) :
    x.wp effect crash post' w := by
  induction x generalizing w with
  | done a => exact ⟨h.1, hpost a w h.2⟩
  | call c next ih => exact ⟨h.1, fun answer m he => ih answer (h.2 answer m he)⟩

/-- A program returns where it may be cut. -/
theorem wp.strengthen {x : Program Call Answer α} (h : x.wp effect crash post w) :
    x.wp effect crash (fun a m => crash m ∧ post a m) w := by
  induction x generalizing w with
  | done a => exact ⟨h.1, h⟩
  | call c next ih => exact ⟨h.1, fun answer m he => ih answer (h.2 answer m he)⟩

@[simp] theorem wp_bind {x : Program Call Answer α} {f : α → Program Call Answer β} {post : β → W → Prop} :
    (x >>= f).wp effect crash post w ↔ x.wp effect crash (fun a m => (f a).wp effect crash post m) w := by
  induction x generalizing w with
  | done a => exact ⟨fun h => ⟨h.crashed, h⟩, fun h => h.2⟩
  | call c next ih =>
    constructor
    · exact fun h => ⟨h.1, fun answer m he => (ih answer).mp (h.2 answer m he)⟩
    · exact fun h => ⟨h.1, fun answer m he => (ih answer).mpr (h.2 answer m he)⟩

theorem wp_ask {c : Call} {post : Answer c → W → Prop} :
    (ask c : Program Call Answer (Answer c)).wp effect crash post w ↔
      crash w ∧ ∀ answer m, effect w c answer m → crash m ∧ post answer m := Iff.rfl

/-- A program of which nothing is asked. -/
theorem wp_trivial {x : Program Call Answer α} (hcrash : ∀ m, crash m) (h : ∀ a m, post a m) : x.wp effect crash post w := by
  induction x generalizing w with
  | done a => exact ⟨hcrash w, h a w⟩
  | call c next ih => exact ⟨hcrash w, fun answer m _ => ih answer⟩

/-- What a program returns and where it is cut. -/
def Outcome (crash : W → Prop) (post : α → W → Prop) (w : W) : Option α → Prop
  | some a => crash w ∧ post a w
  | none => crash w

theorem wp.executes {x : Program Call Answer α} (h : x.wp effect crash post w) {r : Option α}
    (hx : Executes effect w x w' r) : Outcome crash post w' r := by
  induction hx with
  | done w a => exact h
  | cut w x => exact h.crashed
  | call he _ ih => exact ih (h.2 _ _ he)

/-- The run where one handler answers every call. -/
def runWith (handler : W → (c : Call) → Answer c × W) : Program Call Answer α → W → α × W
  | done a, w => (a, w)
  | call c next, w => (next (handler w c).1).runWith handler (handler w c).2

section Handler
variable {handler : W → (c : Call) → Answer c × W}

@[simp] theorem runWith_done (a : α) : (done a : Program Call Answer α).runWith handler w = (a, w) := rfl

@[simp] theorem runWith_bind (x : Program Call Answer α) (f : α → Program Call Answer β) :
    (x >>= f).runWith handler w = (f (x.runWith handler w).1).runWith handler (x.runWith handler w).2 := by
  induction x generalizing w with
  | done a => rfl
  | call c next ih => exact ih _

theorem executes_runWith (h : ∀ w c, effect w c (handler w c).1 (handler w c).2) (x : Program Call Answer α) :
    Executes effect w x (x.runWith handler w).2 (some (x.runWith handler w).1) := by
  induction x generalizing w with
  | done a => exact .done w a
  | call c next ih => exact .call (h w c) (ih _)

end Handler

section Except
variable {ε : Type} {stopped stopped' : ε → W → Prop}

/-- The same for a program that may stop with an error. -/
def wpExcept (effect : W → (c : Call) → Answer c → W → Prop) (crash : W → Prop) (stopped : ε → W → Prop)
    (post : α → W → Prop) (x : ExceptT ε (Program Call Answer) α) (w : W) : Prop :=
  x.run.wp effect crash (fun r m => match r with
    | .ok a => post a m
    | .error e => stopped e m) w

theorem wpExcept.mono {x : ExceptT ε (Program Call Answer) α} (h : wpExcept effect crash stopped post x w)
    (hstopped : ∀ e m, stopped e m → stopped' e m) (hpost : ∀ a m, post a m → post' a m) :
    wpExcept effect crash stopped' post' x w :=
  wp.mono h fun r m hr => match r, hr with
    | .ok a, hr => hpost a m hr
    | .error e, hr => hstopped e m hr

theorem wpExcept_bind {x : ExceptT ε (Program Call Answer) α} {f : α → ExceptT ε (Program Call Answer) β}
    {post : β → W → Prop} :
    wpExcept effect crash stopped post (x >>= f) w ↔
      wpExcept effect crash stopped (fun a m => wpExcept effect crash stopped post (f a) m) x w := by
  unfold wpExcept
  rw [ExceptT.run_bind, wp_bind]
  constructor
  · intro h
    exact h.mono fun r _ hr => match r, hr with
      | .ok _, hr => hr
      | .error _, hr => hr.2
  · intro h
    exact h.strengthen.mono fun r _ hr => match r, hr with
      | .ok _, hr => hr.2
      | .error _, hr => hr

theorem wpExcept_lift {x : Program Call Answer α} :
    wpExcept effect crash stopped post (ExceptT.lift x : ExceptT ε (Program Call Answer) α) w ↔
      x.wp effect crash post w := by
  unfold wpExcept
  rw [ExceptT.run_lift, map_eq_pure_bind, wp_bind]
  exact ⟨fun h => h.mono fun _ _ ha => ha.2, fun h => h.strengthen⟩

/-- What a program that may stop comes to, for the program that runs it. -/
theorem wpExcept.run {x : ExceptT ε (Program Call Answer) α} {post : Except ε α → W → Prop}
    (h : wpExcept effect crash (fun e m => post (.error e) m) (fun a m => post (.ok a) m) x w) :
    x.run.wp effect crash post w :=
  wp.mono h fun r _ hr => match r, hr with
    | .ok _, hr => hr
    | .error _, hr => hr

end Except
end Program
end Execution
end HyprShelld
