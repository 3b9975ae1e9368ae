import HyprShelld.FixedRecords.Observation

/-! What the passes have seen, and that whatever stops them is a failure. -/
namespace HyprShelld.FixedRecords
variable {α : Type} {h h' m : History World} {s s' : Session} {baseline : Stat} {r : Record}

/-- Every run that returns the value ends with a failure chosen. -/
def Fails (x : CaptureM α) (a : α) : Prop :=
  ∀ {h h' : History World} {s s' : Session}, Observes h s x h' s' a → s'.failure.isSome

theorem Fails.bind_pure {β : Type} {x : CaptureM α} {b : β} (hx : ∀ a, Fails x a) :
    Fails (x >>= fun _ => pure b) b := by
  intro h h' s s' hd
  obtain ⟨a, m, t, hrun, hpure⟩ := does_bind.mp hd
  obtain ⟨⟨-, rfl⟩, -⟩ := does_pure.mp hpure
  exact hx a hrun

theorem returns_other {β : Type} {x : CaptureM α} {b c : β} (hne : b ≠ c) :
    ¬ Observes h s (x >>= fun _ => pure b) h' s' c := by
  intro hd
  obtain ⟨a, m, t, -, hpure⟩ := does_bind.mp hd
  obtain ⟨⟨heq, -⟩, -⟩ := does_pure.mp hpure
  exact hne heq.symm

private theorem fails_chooseFailure (reason : CaptureReason) (subject : CaptureSubject) (u : Unit) :
    Fails (chooseFailure reason subject) u := chooseFailure_isSome

private theorem fails_chooseBudgetFailure (r : Record) (u : Unit) : Fails (chooseBudgetFailure r) u :=
  chooseBudgetFailure_isSome

private theorem fails_reportCleanupFailure (r : Record) (u : Unit) : Fails (reportCleanupFailure r) u := by
  intro h h' s s' hd
  obtain ⟨_, m, t, hchoose, hreport⟩ := does_bind.mp hd
  obtain ⟨rfl, -⟩ := does_modify.mp hchoose
  obtain ⟨rfl, -⟩ := does_modify.mp hreport
  exact s.withCleanupFailure_isSome _

private theorem fails_abandon {handle : Nat} {choose : CaptureM Unit} (hchoose : ∀ u, Fails choose u) (u : Unit) :
    Fails (abandon r handle choose) u := by
  intro h h' s s' hd
  obtain ⟨closed, _, _, -, hd⟩ := does_bind.mp hd
  obtain ⟨_, _, _, hchosen, hd⟩ := does_bind.mp hd
  split at hd
  · obtain ⟨⟨-, rfl⟩, -⟩ := does_pure.mp hd
    exact hchoose _ hchosen
  · exact fails_reportCleanupFailure r _ hd

section Opened
variable {handle : Nat} {named opened : Stat}

theorem keeps_fstatOpened : Keeps (fstatOpened baseline r handle named) := by
  refine Along.bind (Along.bind (keeps_proofSyscall _) fun _ => Along.pure _) fun closing => ?_
  split
  · refine Along.bind (keeps_proofSyscall _) fun answer => ?_
    split <;> exact Along.pure _
  · exact Along.pure _

theorem fstatOpened_some (hd : Observes h s (fstatOpened baseline r handle named) h' s' (some opened)) :
    ∃ m, Within h h' m ∧ (m.now.files handle).stat = opened := by
  obtain ⟨closing, k, _, hclosing, hd⟩ := does_bind.mp hd
  split at hd
  · obtain ⟨answer, l, _, hcall, hd⟩ := does_bind.mp hd
    have hlast := hd.evolves
    split at hd
    · obtain ⟨⟨heq, -⟩, -⟩ := does_pure.mp hd
      split at heq
      · cases heq
        obtain ⟨m, hm, hanswer⟩ := proofSyscall_ok hcall
        exact ⟨m, hm.widen hclosing.evolves hlast, hanswer.symm⟩
      · cases heq
    · obtain ⟨⟨heq, -⟩, -⟩ := does_pure.mp hd
      cases heq
  · obtain ⟨⟨heq, -⟩, -⟩ := does_pure.mp hd
    cases heq

theorem keeps_unchangedAfter : Keeps (unchangedAfter r handle opened) := by
  refine Along.bind (keeps_proofSyscall _) fun answer => ?_
  split
  · exact Along.pure _
  · split
    · refine Along.bind (keeps_proofSyscall _) fun answer => ?_
      split <;> exact Along.pure _
    · exact Along.pure _

theorem fails_captureOpened (pass : Pass) : Fails (captureOpened baseline r pass handle named) none := by
  intro h h' s s' hd
  obtain ⟨answer, _, _, -, hd⟩ := does_bind.mp hd
  split at hd
  · obtain ⟨allocated, _, _, -, hd⟩ := does_bind.mp hd
    split at hd
    · obtain ⟨whole, _, _, -, hd⟩ := does_bind.mp hd
      split at hd
      · obtain ⟨stable, _, _, -, hd⟩ := does_bind.mp hd
        split at hd
        · cases pass with
          | first =>
            obtain ⟨⟨heq, -⟩, -⟩ := does_pure.mp hd
            cases heq
          | second =>
            obtain ⟨closed, _, _, -, hd⟩ := does_bind.mp hd
            split at hd
            · obtain ⟨⟨heq, -⟩, -⟩ := does_pure.mp hd
              cases heq
            · exact Fails.bind_pure (fails_reportCleanupFailure r) hd
        · exact Fails.bind_pure (fails_abandon (fails_chooseBudgetFailure r)) hd
      · exact Fails.bind_pure (fails_abandon (fails_chooseBudgetFailure r)) hd
    · exact Fails.bind_pure (fails_abandon (fails_chooseFailure _ _)) hd
  · exact Fails.bind_pure (fails_abandon (fails_chooseBudgetFailure r)) hd

/-- The handle a pass holds on to. -/
def Pass.holds (handle : Nat) : Pass → Option Nat
  | first => some handle
  | second => none

/-- What was read through a descriptor: the file as it was when opened, if it stayed so. -/
structure Read (handle : Nat) (h h' : History World) (p : PresentRecord) (m : History World) : Prop where
  within : Within h h' m
  metadata : (m.now.files handle).stat = p.metadata
  bytes : ∀ f, Steady handle f m h' → p.bytes = f.bytes

theorem Read.widen {handle : Nat} {p : PresentRecord} {k k' : History World} (hr : Read handle h h' p m)
    (h1 : Evolves OtherProcesses k h) (h2 : Evolves OtherProcesses h' k') : Read handle k k' p m where
  within := hr.within.widen h1 h2
  metadata := hr.metadata
  bytes f hs := hr.bytes f (hs.narrow (.refl _) h2)

theorem captureOpened_some {pass : Pass} {p : PresentRecord}
    (hd : Observes h s (captureOpened baseline r pass handle named) h' s' (some p)) :
    Kept s s' ∧ p.heldFirstPassFd = pass.holds handle ∧ ∃ m, Read handle h h' p m := by
  obtain ⟨answer, h1, s1, hopened, hd⟩ := does_bind.mp hd
  split at hd
  case h_2 => exact absurd hd (returns_other (by simp))
  obtain ⟨allocated, h2, s2, hallocate, hd⟩ := does_bind.mp hd
  split at hd
  case h_2 => exact absurd hd (returns_other (by simp))
  obtain ⟨whole, h3, s3, hread, hd⟩ := does_bind.mp hd
  split at hd
  case h_2 => exact absurd hd (returns_other (by simp))
  obtain ⟨stable, h4, s4, hafter, hd⟩ := does_bind.mp hd
  have hkept : Kept s s4 := (keeps_fstatOpened hopened).trans <|
    (keeps_system _ hallocate).trans <| (keeps_readWhole _ _ _ hread).trans (keeps_unchangedAfter hafter)
  obtain ⟨m, hm, hstat⟩ := fstatOpened_some hopened
  have hlast : Evolves OtherProcesses h1 h' := ((hallocate.evolves.trans hread.evolves).trans hafter.evolves).trans hd.evolves
  have hbytes : ∀ f, Steady handle f m h' → ‹QByteArray› = f.bytes := by
    intro f hf
    have hsize : f.stat = ‹Stat› := by rw [← hf m ⟨.refl _, hm.ended.trans hlast⟩, hstat]
    rw [← hsize] at hread
    exact readWhole_steady hread (hf.narrow (hm.ended.trans hallocate.evolves) (hafter.evolves.trans hd.evolves))
  split at hd
  · cases pass with
    | first =>
      obtain ⟨⟨heq, rfl⟩, -⟩ := does_pure.mp hd
      cases heq
      exact ⟨hkept, rfl, m, hm.widen (.refl _) hlast, hstat, hbytes⟩
    | second =>
      obtain ⟨closed, h5, s5, hclose, hd⟩ := does_bind.mp hd
      split at hd
      · obtain ⟨⟨heq, rfl⟩, -⟩ := does_pure.mp hd
        cases heq
        exact ⟨hkept.trans (keeps_closeOnce _ hclose), rfl, m, hm.widen (.refl _) hlast, hstat, hbytes⟩
      · exact absurd hd (returns_other (by simp))
  · exact absurd hd (returns_other (by simp))

end Opened

/-- What a pass has seen of a record: that it was missing, or the file it named. -/
def Seen (r : Record) (h h' : History World) : InternalRecord → Prop
  | none => ∃ m, Within h h' m ∧ m.now.entries r = none
  | some p => ∃ handle, p.heldFirstPassFd = some handle ∧
      (∃ m, Within h h' m ∧ m.now.entries r = some handle) ∧ ∃ m, Read handle h h' p m

theorem Seen.widen {record : InternalRecord} {k k' : History World} (hs : Seen r h h' record)
    (h1 : Evolves OtherProcesses k h) (h2 : Evolves OtherProcesses h' k') : Seen r k k' record := by
  cases record with
  | none =>
    obtain ⟨m, hm, hmissing⟩ := hs
    exact ⟨m, hm.widen h1 h2, hmissing⟩
  | some p =>
    obtain ⟨handle, hheld, ⟨l, hl, hname⟩, m, hread⟩ := hs
    exact ⟨handle, hheld, ⟨l, hl.widen h1 h2, hname⟩, m, hread.widen h1 h2⟩

theorem fails_captureOne (pass : Pass) : Fails (captureOne baseline r pass) none := by
  intro h h' s s' hd
  obtain ⟨answer, _, _, -, hd⟩ := does_bind.mp hd
  split at hd
  · obtain ⟨t, _, _, -, hd⟩ := does_bind.mp hd
    split at hd
    · exact Fails.bind_pure (fails_chooseBudgetFailure r) hd
    · split at hd
      · exact Fails.bind_pure (fails_chooseFailure _ _) hd
      · obtain ⟨again, _, _, -, hd⟩ := does_bind.mp hd
        split at hd
        · obtain ⟨⟨heq, -⟩, -⟩ := does_pure.mp hd
          cases heq
        · exact Fails.bind_pure (fails_chooseBudgetFailure r) hd
  · split at hd
    · obtain ⟨opening, _, _, -, hd⟩ := does_bind.mp hd
      split at hd
      · exact Fails.bind_pure (fails_chooseBudgetFailure r) hd
      · obtain ⟨found, _, _, hopened, hd⟩ := does_bind.mp hd
        obtain ⟨⟨heq, rfl⟩, -⟩ := does_pure.mp hd
        cases found with
        | none => exact fails_captureOpened pass hopened
        | some p => cases heq
    · exact Fails.bind_pure (fails_chooseFailure _ _) hd

private theorem captureOne_missing {pass : Pass} (hd : Observes h s (captureOne baseline r pass) h' s' (some none)) :
    Kept s s' ∧ ∃ m, Within h h' m ∧ m.now.entries r = none := by
  obtain ⟨answer, h1, s1, hlookup, hd⟩ := does_bind.mp hd
  split at hd
  · obtain ⟨t, h2, s2, hget, hrest⟩ := does_bind.mp hd
    obtain ⟨⟨rfl, rfl⟩, h12⟩ := does_get.mp hget
    split at hrest
    · exact absurd hrest (returns_other (by simp))
    · split at hrest
      · exact absurd hrest (returns_other (by simp))
      · obtain ⟨again, h3, s3, hconfirm, hfound⟩ := does_bind.mp hrest
        have hlast := hfound.evolves
        split at hfound
        · obtain ⟨⟨-, rfl⟩, -⟩ := does_pure.mp hfound
          refine ⟨(keeps_proofSyscall _ hlookup).trans (keeps_proofSyscall _ hconfirm), ?_⟩
          rcases proofSyscall_answer hconfirm with heq | ⟨m, hm, hanswer⟩
          · cases heq
          · exact ⟨m, hm.widen (hlookup.evolves.trans h12) hlast, hanswer rfl⟩
        · exact absurd hfound (returns_other (by simp))
  · split at hd
    · obtain ⟨opening, _, _, -, hd⟩ := does_bind.mp hd
      split at hd
      · exact absurd hd (returns_other (by simp))
      · obtain ⟨found, _, _, -, hd⟩ := does_bind.mp hd
        obtain ⟨⟨heq, -⟩, -⟩ := does_pure.mp hd
        cases found <;> cases heq
    · exact absurd hd (returns_other (by simp))

private theorem captureOne_present {pass : Pass} {p : PresentRecord}
    (hd : Observes h s (captureOne baseline r pass) h' s' (some (some p))) :
    Kept s s' ∧ ∃ handle, p.heldFirstPassFd = pass.holds handle ∧
      (∃ m, Within h h' m ∧ m.now.entries r = some handle) ∧ ∃ m, Read handle h h' p m := by
  obtain ⟨answer, h1, s1, hlookup, hd⟩ := does_bind.mp hd
  split at hd
  · obtain ⟨t, _, _, -, hd⟩ := does_bind.mp hd
    split at hd
    · exact absurd hd (returns_other (by simp))
    · split at hd
      · exact absurd hd (returns_other (by simp))
      · obtain ⟨again, _, _, -, hd⟩ := does_bind.mp hd
        split at hd
        · obtain ⟨⟨heq, -⟩, -⟩ := does_pure.mp hd
          cases heq
        · exact absurd hd (returns_other (by simp))
  · split at hd
    · obtain ⟨opening, h2, s2, hopen, hd⟩ := does_bind.mp hd
      split at hd
      · exact absurd hd (returns_other (by simp))
      · obtain ⟨found, h3, s3, hopened, hd⟩ := does_bind.mp hd
        obtain ⟨⟨heq, rfl⟩, hlast⟩ := does_pure.mp hd
        cases found with
        | none => cases heq
        | some q =>
          cases heq
          obtain ⟨hkept, hheld, m, hread⟩ := captureOpened_some hopened
          obtain ⟨l, hl, hname⟩ := proofSyscall_ok hopen
          refine ⟨(keeps_proofSyscall _ hlookup).trans ((keeps_proofSyscall _ hopen).trans hkept), _, hheld, ⟨l, ?_, hname⟩,
            m, ?_⟩
          · exact hl.widen hlookup.evolves (hopened.evolves.trans hlast)
          · exact hread.widen (hlookup.evolves.trans hopen.evolves) hlast
    · exact absurd hd (returns_other (by simp))

/-- A record the first pass took was seen as it is kept. -/
theorem captureOne_first {record : InternalRecord} (hd : Observes h s (captureOne baseline r .first) h' s' (some record)) :
    Kept s s' ∧ Seen r h h' record := by
  cases record with
  | none => exact captureOne_missing hd
  | some p => exact captureOne_present hd

theorem keeps_captureOne_some {pass : Pass} {record : InternalRecord}
    (hd : Observes h s (captureOne baseline r pass) h' s' (some record)) : Kept s s' := by
  cases record with
  | none => exact (captureOne_missing hd).1
  | some p => exact (captureOne_present hd).1

end HyprShelld.FixedRecords
