import HyprShelld.FixedRecords.Capture

/-! What a successful step of the capture has seen, whatever other processes did meanwhile. -/
namespace HyprShelld.FixedRecords
variable {α : Type} {h h' m : History World} {s s' : Session}

abbrev Observes (h : History World) (s : Session) (x : CaptureM α) (h' : History World) (s' : Session) (a : α) : Prop :=
  Does OtherProcesses Answers h s x h' s' a

/-- A moment of an interval of the run. -/
structure Within (h h' m : History World) : Prop where
  started : Evolves OtherProcesses h m
  ended : Evolves OtherProcesses m h'

theorem Within.widen {k k' : History World} (hm : Within h h' m) (h1 : Evolves OtherProcesses k h)
    (h2 : Evolves OtherProcesses h' k') : Within k k' m := ⟨h1.trans hm.started, hm.ended.trans h2⟩

/-- What only spends budgets keeps the failure and the records. -/
structure Kept (s s' : Session) : Prop where
  failure : s'.failure = s.failure
  first : s'.first = s.first

theorem Kept.trans {t : Session} (h1 : Kept s s') (h2 : Kept s' t) : Kept s t :=
  ⟨h2.failure.trans h1.failure, h2.first.trans h1.first⟩

instance : Std.Refl Kept := ⟨fun _ => ⟨rfl, rfl⟩⟩
instance : IsTrans Session Kept := ⟨fun _ _ _ => Kept.trans⟩

abbrev Keeps (x : CaptureM α) : Prop := Along OtherProcesses Answers Kept x

theorem keeps_system (c : Call) : Keeps (system c) := Along.ask c

theorem keeps_proofSyscall (c : Call) : Keeps (proofSyscall c) := by
  refine Along.bind Along.get fun s => ?_
  split
  · exact Along.bind (Along.modify fun _ => ⟨rfl, rfl⟩) fun _ => Along.pure _
  · exact Along.bind (Along.modify fun _ => ⟨rfl, rfl⟩) fun _ => keeps_system c

/-- A call that counts is answered by the world at some moment, or refused with an error of its own. -/
theorem proofSyscall_answer {c : Call} {answer : Answer c} (hd : Observes h s (proofSyscall c) h' s' answer) :
    answer = .error Errno.EIO ∨ ∃ m, Within h h' m ∧ Answers m.now c answer := by
  unfold proofSyscall at hd
  obtain ⟨t, m, t', hget, hd⟩ := does_bind.mp hd
  obtain ⟨-, h0⟩ := does_get.mp hget
  split at hd
  · obtain ⟨_, _, _, -, hd⟩ := does_bind.mp hd
    obtain ⟨⟨rfl, -⟩, -⟩ := does_pure.mp hd
    exact .inl rfl
  · obtain ⟨_, _, _, hmodify, hd⟩ := does_bind.mp hd
    obtain ⟨-, h1⟩ := does_modify.mp hmodify
    obtain ⟨-, l, hl, ha, hlast⟩ := does_ask hd
    exact .inr ⟨l, ⟨h0.trans (h1.trans hl), hlast⟩, ha⟩

theorem proofSyscall_ok {c : Call} {v : c.Value} (hd : Observes h s (proofSyscall c) h' s' (.ok v)) :
    ∃ m, Within h h' m ∧ Answers m.now c (.ok v) := by
  rcases proofSyscall_answer hd with h | h
  · cases h
  · exact h

theorem keeps_closeOnce (d : Descriptor) : Keeps (closeOnce d) :=
  Along.bind (Along.modify fun _ => ⟨rfl, rfl⟩) fun _ => Along.bind (keeps_system _) fun _ => Along.pure _

theorem keeps_rootGuard (baseline : Stat) : Keeps (rootGuard baseline) :=
  Along.bind (keeps_proofSyscall _) fun _ => Along.pure _

theorem keeps_consume (count : Nat) : Keeps (consume count) := by
  intro h h' s s' a hd
  obtain ⟨t, m, t', hget, hrest⟩ := does_bind.mp hd
  obtain ⟨⟨rfl, rfl⟩, -⟩ := does_get.mp hget
  split at hrest
  all_goals
    obtain ⟨_, _, _, hset, hlast⟩ := does_bind.mp hrest
    obtain ⟨rfl, -⟩ := does_set.mp hset
    obtain ⟨⟨-, rfl⟩, -⟩ := does_pure.mp hlast
    exact ⟨rfl, rfl⟩

theorem keeps_boundedPread (handle count offset : Nat) : Keeps (boundedPread handle count offset) := by
  refine Along.bind (keeps_proofSyscall _) fun answer => ?_
  cases answer with
  | error e => exact Along.pure _
  | ok bytes =>
    refine Along.bind (keeps_consume _) fun granted => ?_
    split <;> exact Along.pure _

theorem boundedPread_ok {handle count offset : Nat} {bytes : QByteArray}
    (hd : Observes h s (boundedPread handle count offset) h' s' (.ok bytes)) :
    ∃ m, Within h h' m ∧ bytes <+: ((m.now.files handle).bytes.drop offset).take count := by
  unfold boundedPread at hd
  obtain ⟨answer, m, t, hcall, hd⟩ := does_bind.mp hd
  have hrest := hd.evolves
  cases answer with
  | error e =>
    obtain ⟨⟨heq, -⟩, -⟩ := does_pure.mp hd
    cases heq
  | ok returned =>
    obtain ⟨granted, _, _, -, hd⟩ := does_bind.mp hd
    cases granted with
    | true =>
      obtain ⟨⟨heq, -⟩, -⟩ := does_pure.mp hd
      cases heq
      obtain ⟨l, hl, ha⟩ := proofSyscall_ok hcall
      exact ⟨l, hl.widen (.refl _) hrest, ha⟩
    | false =>
      obtain ⟨⟨heq, -⟩, -⟩ := does_pure.mp hd
      cases heq

theorem keeps_attemptsExceeded : Keeps attemptsExceeded := Along.modify fun _ => ⟨rfl, rfl⟩

section Reading
variable {handle size : Nat}

theorem keeps_readContent (attempts : Nat) (bytes : QByteArray) : Keeps (readContent handle size attempts bytes) := by
  induction attempts generalizing bytes with
  | zero =>
    unfold readContent
    split
    · exact Along.bind keeps_attemptsExceeded fun _ => Along.pure _
    · exact Along.pure _
  | succ attempts ih =>
    unfold readContent
    split
    · refine Along.bind (keeps_boundedPread _ _ _) fun answer => ?_
      split
      · exact ih bytes
      · exact Along.pure _
      · split
        · exact Along.pure _
        · exact ih _
    · exact Along.pure _

theorem keeps_growthProbe (attempts : Nat) : Keeps (growthProbe handle size attempts) := by
  induction attempts with
  | zero => exact Along.bind keeps_attemptsExceeded fun _ => Along.pure _
  | succ attempts ih =>
    refine Along.bind (keeps_boundedPread _ _ _) fun answer => ?_
    split
    · exact ih
    · exact Along.pure _
    · exact Along.pure _

/-- The file is the same all through an interval. -/
def Steady (handle : Nat) (f : File) (h h' : History World) : Prop :=
  ∀ m, Within h h' m → m.now.files handle = f

theorem Steady.narrow {f : File} {k k' : History World} (hs : Steady handle f h h') (h1 : Evolves OtherProcesses h k)
    (h2 : Evolves OtherProcesses k' h') : Steady handle f k k' := fun m hm => hs m (hm.widen h1 h2)

theorem prefix_append_piece {bytes piece whole : QByteArray} {count : Nat} (hb : bytes <+: whole)
    (hp : piece <+: (whole.drop bytes.length).take count) : bytes ++ piece <+: whole := by
  obtain ⟨rest, rfl⟩ := hb
  rw [List.drop_left] at hp
  exact List.prefix_append_right_inj bytes |>.mpr (hp.trans (List.take_prefix _ _))

/-- What is read of a file that stays the same is what it holds. -/
theorem readContent_steady {f : File} {attempts k : Nat} {bytes whole : QByteArray}
    (hd : Observes h s (readContent handle size attempts bytes) h' s' (some (whole, k)))
    (hs : Steady handle f h h') (hb : bytes <+: f.bytes) : whole <+: f.bytes ∧ size ≤ whole.length := by
  induction attempts generalizing bytes h s with
  | zero =>
    unfold readContent at hd
    split at hd
    · obtain ⟨_, _, _, -, hd⟩ := does_bind.mp hd
      obtain ⟨⟨heq, -⟩, -⟩ := does_pure.mp hd
      cases heq
    · obtain ⟨⟨heq, -⟩, -⟩ := does_pure.mp hd
      cases heq
      exact ⟨hb, by omega⟩
  | succ attempts ih =>
    unfold readContent at hd
    split at hd
    · obtain ⟨answer, m, t, hread, hd⟩ := does_bind.mp hd
      have hrest : Steady handle f m h' := hs.narrow hread.evolves (.refl _)
      split at hd
      · exact ih hd hrest hb
      · obtain ⟨⟨heq, -⟩, -⟩ := does_pure.mp hd
        cases heq
      · rename_i returned
        split at hd
        · obtain ⟨⟨heq, -⟩, -⟩ := does_pure.mp hd
          cases heq
        · obtain ⟨l, hl, hpiece⟩ := boundedPread_ok hread
          rw [hs l (hl.widen (.refl _) hd.evolves)] at hpiece
          exact ih hd hrest (prefix_append_piece hb hpiece)
    · obtain ⟨⟨heq, -⟩, -⟩ := does_pure.mp hd
      cases heq
      exact ⟨hb, by omega⟩

end Reading

theorem keeps_readWhole (r : Record) (handle size : Nat) : Keeps (readWhole r handle size) := by
  refine Along.bind (keeps_readContent _ _) fun answer => ?_
  split
  · exact Along.pure _
  · refine Along.bind (keeps_growthProbe _) fun more => ?_
    split <;> exact Along.pure _

theorem readWhole_steady {r : Record} {handle : Nat} {f : File} {whole : QByteArray}
    (hd : Observes h s (readWhole r handle f.stat.size.toNat) h' s' (some whole)) (hs : Steady handle f h h') :
    whole = f.bytes := by
  obtain ⟨answer, m, t, hread, hd⟩ := does_bind.mp hd
  have hrest := hd.evolves
  split at hd
  · obtain ⟨⟨heq, -⟩, -⟩ := does_pure.mp hd
    cases heq
  · obtain ⟨more, _, _, -, hd⟩ := does_bind.mp hd
    split at hd
    · obtain ⟨⟨heq, -⟩, -⟩ := does_pure.mp hd
      cases heq
      obtain ⟨hinitial, hlength⟩ := readContent_steady hread (hs.narrow (.refl _) hrest) (List.nil_prefix)
      exact hinitial.eq_of_length_le hlength
    · obtain ⟨⟨heq, -⟩, -⟩ := does_pure.mp hd
      cases heq

theorem chooseFailure_isSome {reason : CaptureReason} {subject : CaptureSubject} {u : Unit}
    (hd : Observes h s (chooseFailure reason subject) h' s' u) : s'.failure.isSome := by
  obtain ⟨rfl, -⟩ := does_modify.mp hd
  cases s.failure <;> simp

theorem chooseBudgetFailure_isSome {r : Record} {u : Unit} (hd : Observes h s (chooseBudgetFailure r) h' s' u) :
    s'.failure.isSome := by
  obtain ⟨t, m, t', -, hd⟩ := does_bind.mp hd
  split at hd
  · exact chooseFailure_isSome hd
  · split at hd <;> exact chooseFailure_isSome hd

end HyprShelld.FixedRecords
