import HyprShelld.FixedRecords.Passes

/-! A capture that succeeds is a snapshot: all five records were so at one moment of it. -/
namespace HyprShelld.FixedRecords
variable {h h' m : History World} {s s' : Session} {baseline : Stat} {r : Record}

section Guards

theorem rootGuard_true (hd : Observes h s (rootGuard baseline) h' s' true) :
    ∃ m, Within h h' m ∧ m.now.directory = baseline := by
  obtain ⟨answer, _, _, hcall, hd⟩ := does_bind.mp hd
  have hlast := hd.evolves
  split at hd
  · obtain ⟨⟨heq, -⟩, -⟩ := does_pure.mp hd
    obtain ⟨m, hm, hanswer⟩ := proofSyscall_ok hcall
    refine ⟨m, hm.widen (.refl _) hlast, ?_⟩
    rw [← of_decide_eq_true heq.symm, hanswer]
    rfl
  · obtain ⟨⟨heq, -⟩, -⟩ := does_pure.mp hd
    cases heq

theorem fails_guardRoot : Fails (guardRoot baseline) false := by
  intro h h' s s' hd
  obtain ⟨stable, _, _, -, hd⟩ := does_bind.mp hd
  split at hd
  · obtain ⟨⟨heq, -⟩, -⟩ := does_pure.mp hd
    cases heq
  · obtain ⟨t, _, _, -, hd⟩ := does_bind.mp hd
    exact Fails.bind_pure (fun _ => chooseFailure_isSome) hd

theorem keeps_guardRoot_true (hd : Observes h s (guardRoot baseline) h' s' true) : Kept s s' := by
  obtain ⟨stable, _, _, hguard, hd⟩ := does_bind.mp hd
  split at hd
  · obtain ⟨⟨-, rfl⟩, -⟩ := does_pure.mp hd
    exact keeps_rootGuard _ hguard
  · obtain ⟨t, _, _, -, hd⟩ := does_bind.mp hd
    exact absurd hd (returns_other (by simp))

end Guards

section Visits
variable {visit : Record → CaptureM Bool}

/-- All the records were visited, one after the other. -/
inductive Visited (visit : Record → CaptureM Bool) : List Record → History World → Session → History World → Session → Prop
  | nil {h h' : History World} {s : Session} : Evolves OtherProcesses h h' → Visited visit [] h s h' s
  | cons {r : Record} {rest : List Record} {h m h' : History World} {s t s' : Session} :
    Observes h s (visit r) m t true → Visited visit rest m t h' s' → Visited visit (r :: rest) h s h' s'

theorem Visited.evolves {records : List Record} (hv : Visited visit records h s h' s') : Evolves OtherProcesses h h' := by
  induction hv with
  | nil he => exact he
  | cons hd _ ih => exact hd.evolves.trans ih

/-- Where a visit cannot stop the loop without a failure, no failure means that nothing stopped it. -/
theorem untilFailure_visited (hfails : ∀ r, Fails (visit r) false) {records : List Record} {u : Unit}
    (hd : Observes h s (untilFailure visit records) h' s' u) (hs : s'.failure = none) : Visited visit records h s h' s' := by
  induction records generalizing h s with
  | nil =>
    obtain ⟨⟨-, rfl⟩, he⟩ := does_pure.mp hd
    exact .nil he
  | cons r rest ih =>
    obtain ⟨more, m, t, hvisit, hd⟩ := does_bind.mp hd
    cases more with
    | true => exact .cons hvisit (ih hd)
    | false =>
      obtain ⟨⟨-, rfl⟩, -⟩ := does_pure.mp hd
      have := hfails r hvisit
      simp [hs] at this

theorem unlessFailed_none {next : CaptureM Unit} {u : Unit} (hd : Observes h s (unlessFailed next) h' s' u)
    (hs : s'.failure = none) : s.failure = none ∧ ∃ m, Evolves OtherProcesses h m ∧ Observes m s next h' s' u := by
  obtain ⟨t, m, t', hget, hrest⟩ := does_bind.mp hd
  obtain ⟨⟨rfl, rfl⟩, he⟩ := does_get.mp hget
  split at hrest
  · rename_i hnone
    exact ⟨Option.isNone_iff_eq_none.mp hnone, m, he, hrest⟩
  · rename_i hsome
    obtain ⟨⟨-, rfl⟩, -⟩ := does_pure.mp hrest
    simp [hs] at hsome

end Visits

section FirstPass

theorem fails_firstPassRecord (r : Record) : Fails (firstPassRecord baseline r) false := by
  intro h h' s s' hd
  obtain ⟨before, _, _, hbefore, hd⟩ := does_bind.mp hd
  split at hd
  · obtain ⟨found, _, _, hone, hd⟩ := does_bind.mp hd
    split at hd
    · obtain ⟨⟨-, rfl⟩, -⟩ := does_pure.mp hd
      exact fails_captureOne .first hone
    · obtain ⟨_, _, _, -, hd⟩ := does_bind.mp hd
      obtain ⟨_, _, _, -, hd⟩ := does_bind.mp hd
      split at hd
      · exact Fails.bind_pure (fun _ => chooseFailure_isSome) hd
      · exact fails_guardRoot hd
  · rename_i hunstable
    obtain ⟨⟨-, rfl⟩, -⟩ := does_pure.mp hd
    rw [Bool.eq_false_iff.mpr hunstable] at hbefore
    exact fails_guardRoot hbefore

/-- One record of the first pass: it was seen, and nothing else is changed. -/
theorem firstPassRecord_true (hd : Observes h s (firstPassRecord baseline r) h' s' true) :
    ∃ record, s'.first = Function.update s.first r record ∧ Seen r h h' record := by
  obtain ⟨before, h1, s1, hbefore, hd⟩ := does_bind.mp hd
  split at hd
  · rename_i hstable
    rw [hstable] at hbefore
    obtain ⟨found, h2, s2, hone, hd⟩ := does_bind.mp hd
    split at hd
    · obtain ⟨⟨heq, -⟩, -⟩ := does_pure.mp hd
      cases heq
    · rename_i record
      obtain ⟨_, h3, s3, hkeep, hd⟩ := does_bind.mp hd
      obtain ⟨hkeep, h23⟩ := does_modify.mp hkeep
      obtain ⟨t, h4, s4, hget, hd⟩ := does_bind.mp hd
      obtain ⟨⟨-, hs4⟩, h34⟩ := does_get.mp hget
      split at hd
      · obtain ⟨_, _, _, -, hd⟩ := does_bind.mp hd
        obtain ⟨⟨heq, -⟩, -⟩ := does_pure.mp hd
        cases heq
      · obtain ⟨hkept, hseen⟩ := captureOne_first hone
        refine ⟨record, ?_, hseen.widen hbefore.evolves ((h23.trans h34).trans hd.evolves)⟩
        rw [(keeps_guardRoot_true hd).first, hs4, hkeep, hkept.first, (keeps_guardRoot_true hbefore).first]
  · obtain ⟨⟨heq, -⟩, -⟩ := does_pure.mp hd
    cases heq

/-- All records of the first pass were seen as they are kept. -/
theorem firstPass_seen {records : List Record} (hv : Visited (firstPassRecord baseline) records h s h' s')
    (hnodup : records.Nodup) :
    (∀ r ∈ records, Seen r h h' (s'.first r)) ∧ ∀ r ∉ records, s'.first r = s.first r := by
  induction hv with
  | nil => exact ⟨fun r hr => absurd hr List.not_mem_nil, fun _ _ => rfl⟩
  | @cons q rest h m h' s t s' hd hv ih =>
    obtain ⟨hq, hrest⟩ := List.nodup_cons.mp hnodup
    obtain ⟨hseen, hother⟩ := ih hrest
    obtain ⟨record, hfirst, hone⟩ := firstPassRecord_true hd
    constructor
    · intro r hr
      rcases List.mem_cons.mp hr with rfl | hr
      · rw [hother r hq, hfirst, Function.update_self]
        exact hone.widen (.refl _) hv.evolves
      · exact (hseen r hr).widen hd.evolves (.refl _)
    · intro r hr
      rw [hother r fun h => hr (List.mem_cons_of_mem _ h), hfirst]
      exact Function.update_of_ne (fun h => hr (by simp [h])) _ _

end FirstPass

section SecondPass

theorem fails_secondPassRecord (r : Record) : Fails (secondPassRecord baseline r) false := by
  intro h h' s s' hd
  obtain ⟨before, _, _, hbefore, hd⟩ := does_bind.mp hd
  split at hd
  · obtain ⟨found, _, _, hone, hd⟩ := does_bind.mp hd
    split at hd
    · obtain ⟨⟨-, rfl⟩, -⟩ := does_pure.mp hd
      exact fails_captureOne .second hone
    · split at hd
      · exact Fails.bind_pure (fun _ => chooseFailure_isSome) hd
      · obtain ⟨_, _, _, -, hd⟩ := does_bind.mp hd
        obtain ⟨_, _, _, -, hd⟩ := does_bind.mp hd
        split at hd
        · exact Fails.bind_pure (fun _ => chooseFailure_isSome) hd
        · obtain ⟨_, _, _, -, hd⟩ := does_bind.mp hd
          split at hd
          · exact fails_guardRoot hd
          · exact Fails.bind_pure (fun _ => chooseFailure_isSome) hd
  · rename_i hunstable
    obtain ⟨⟨-, rfl⟩, -⟩ := does_pure.mp hd
    rw [Bool.eq_false_iff.mpr hunstable] at hbefore
    exact fails_guardRoot hbefore

theorem secondPassRecord_true (hd : Observes h s (secondPassRecord baseline r) h' s' true) : s'.first = s.first := by
  obtain ⟨before, h1, s1, hbefore, hd⟩ := does_bind.mp hd
  split at hd
  · rename_i hstable
    rw [hstable] at hbefore
    obtain ⟨found, h2, s2, hone, hd⟩ := does_bind.mp hd
    split at hd
    · obtain ⟨⟨heq, -⟩, -⟩ := does_pure.mp hd
      cases heq
    · split at hd
      · exact absurd hd (returns_other (by simp))
      · obtain ⟨_, h3, s3, hkeep, hd⟩ := does_bind.mp hd
        obtain ⟨hkeep, -⟩ := does_modify.mp hkeep
        obtain ⟨t, h4, s4, hget, hd⟩ := does_bind.mp hd
        obtain ⟨⟨-, hs4⟩, -⟩ := does_get.mp hget
        split at hd
        · exact absurd hd (returns_other (by simp))
        · obtain ⟨t', h5, s5, hget', hd⟩ := does_bind.mp hd
          obtain ⟨⟨-, hs5⟩, -⟩ := does_get.mp hget'
          split at hd
          · rw [(keeps_guardRoot_true hd).first, hs5, hs4, hkeep]
            rw [(keeps_captureOne_some hone).first, (keeps_guardRoot_true hbefore).first]
          · exact absurd hd (returns_other (by simp))
  · obtain ⟨⟨heq, -⟩, -⟩ := does_pure.mp hd
    cases heq

theorem secondPass_first {records : List Record} (hv : Visited (secondPassRecord baseline) records h s h' s') :
    s'.first = s.first := by
  induction hv with
  | nil => rfl
  | cons hd _ ih => rw [ih, secondPassRecord_true hd]

end SecondPass

section Finalization

theorem fails_finalizeHeld (r : Record) : Fails (finalizeHeld baseline r) false := by
  intro h h' s s' hd
  obtain ⟨t, _, _, -, hd⟩ := does_bind.mp hd
  split at hd
  · obtain ⟨⟨heq, -⟩, -⟩ := does_pure.mp hd
    cases heq
  · obtain ⟨stable, _, _, -, hd⟩ := does_bind.mp hd
    split at hd
    · obtain ⟨⟨heq, -⟩, -⟩ := does_pure.mp hd
      cases heq
    · exact Fails.bind_pure (fun _ => chooseBudgetFailure_isSome) hd

theorem keeps_heldUnchanged (p : PresentRecord) : Keeps (heldUnchanged baseline r p) := by
  unfold heldUnchanged
  split
  · exact Along.pure _
  · refine Along.bind (keeps_proofSyscall _) fun answer => ?_
    split
    · exact Along.pure _
    · split
      · refine Along.bind (keeps_proofSyscall _) fun answer => ?_
        split <;> exact Along.pure _
      · exact Along.pure _

/-- The held file shows the metadata of the first pass at some moment. -/
theorem heldUnchanged_true {p : PresentRecord} {handle : Nat} (hheld : p.heldFirstPassFd = some handle)
    (hd : Observes h s (heldUnchanged baseline r p) h' s' true) :
    ∃ m, Within h h' m ∧ (m.now.files handle).stat = p.metadata := by
  unfold heldUnchanged at hd
  rw [hheld] at hd
  obtain ⟨answer, _, _, hcall, hd⟩ := does_bind.mp hd
  have hlast := hd.evolves
  split at hd
  · obtain ⟨⟨heq, -⟩, -⟩ := does_pure.mp hd
    cases heq
  · split at hd
    · rename_i hsame
      obtain ⟨m, hm, hanswer⟩ := proofSyscall_ok hcall
      exact ⟨m, hm.widen (.refl _) hlast, hanswer.symm.trans hsame⟩
    · obtain ⟨⟨heq, -⟩, -⟩ := does_pure.mp hd
      cases heq

/-- What the final check of a record says about it. -/
def Rechecked (h h' : History World) (p : PresentRecord) : Prop :=
  ∀ handle, p.heldFirstPassFd = some handle → ∃ m, Within h h' m ∧ (m.now.files handle).stat = p.metadata

theorem finalizeHeld_true (hd : Observes h s (finalizeHeld baseline r) h' s' true) :
    s'.first = s.first ∧ ∀ p, s.first r = some p → Rechecked h h' p := by
  obtain ⟨t, h1, s1, hget, hrest⟩ := does_bind.mp hd
  obtain ⟨⟨rfl, rfl⟩, h01⟩ := does_get.mp hget
  split at hrest
  · rename_i hmissing
    obtain ⟨⟨-, rfl⟩, -⟩ := does_pure.mp hrest
    exact ⟨rfl, fun p hp => by rw [hmissing] at hp; cases hp⟩
  · rename_i q hq
    obtain ⟨stable, h2, s2, hheld, hlast⟩ := does_bind.mp hrest
    have hend := hlast.evolves
    split at hlast
    · rename_i hstable
      obtain ⟨⟨-, rfl⟩, -⟩ := does_pure.mp hlast
      refine ⟨(keeps_heldUnchanged q hheld).first, fun p hp handle hhandle => ?_⟩
      rw [hq] at hp
      cases hp
      rw [hstable] at hheld
      obtain ⟨m, hm, hmetadata⟩ := heldUnchanged_true hhandle hheld
      exact ⟨m, hm.widen h01 hend, hmetadata⟩
    · exact absurd hlast (returns_other (by simp))

theorem finalization_rechecked {records : List Record} (hv : Visited (finalizeHeld baseline) records h s h' s') :
    s'.first = s.first ∧ ∀ r ∈ records, ∀ p, s.first r = some p → Rechecked h h' p := by
  induction hv with
  | nil => exact ⟨rfl, fun r hr => absurd hr List.not_mem_nil⟩
  | @cons q rest h m h' s t s' hd hv ih =>
    obtain ⟨hfirst, hone⟩ := finalizeHeld_true hd
    rw [hfirst] at ih
    refine ⟨ih.1, fun r hr p hp handle hhandle => ?_⟩
    rcases List.mem_cons.mp hr with rfl | hr
    · obtain ⟨k, hk, hmetadata⟩ := hone p hp handle hhandle
      exact ⟨k, hk.widen (.refl _) hv.evolves, hmetadata⟩
    · obtain ⟨k, hk, hmetadata⟩ := ih.2 r hr p hp handle hhandle
      exact ⟨k, hk.widen hd.evolves (.refl _), hmetadata⟩

end Finalization

section Moment

theorem recordSpecs_nodup : recordSpecs.Nodup := by decide

theorem mem_recordSpecs (r : Record) : r ∈ recordSpecs := by cases r <;> decide

private theorem between_none {u : Unit} (hd : Observes h s (do let _ ← guardRoot baseline) h' s' u)
    (hs : s'.failure = none) : Kept s s' := by
  obtain ⟨stable, m, t, hguard, hd⟩ := does_bind.mp hd
  obtain ⟨⟨-, rfl⟩, -⟩ := does_pure.mp hd
  cases stable with
  | true => exact keeps_guardRoot_true hguard
  | false =>
    have := fails_guardRoot hguard
    simp [hs] at this

/-- An observation without a failure: the records were seen up to one moment, the files were looked at
again after it, and the directory was still the same after it. -/
theorem observe_none {u : Unit} (hd : Observes h s (observe baseline) h' s' u) (hs : s'.failure = none) :
    ∃ m g, Evolves OtherProcesses h m ∧ Within m h' g ∧ g.now.directory = baseline ∧
      (∀ r, Seen r h m (s'.first r)) ∧ ∀ r p, s'.first r = some p → Rechecked m h' p := by
  obtain ⟨_, m, s1, hfirst, hd⟩ := does_bind.mp hd
  obtain ⟨_, h2, s2, hbetween, hd⟩ := does_bind.mp hd
  obtain ⟨_, h3, s3, hsecond, hd⟩ := does_bind.mp hd
  obtain ⟨_, h4, s4, hfinal, hd⟩ := does_bind.mp hd
  obtain ⟨stable, h5, s5, hguard, hd⟩ := does_bind.mp hd
  split at hd
  case isFalse =>
    obtain ⟨rfl, -⟩ := does_modify.mp hd
    cases hs
  rename_i hstable
  rw [hstable] at hguard
  obtain ⟨⟨-, rfl⟩, hlast⟩ := does_pure.mp hd
  have hkept := keeps_rootGuard _ hguard
  obtain ⟨hs3, k4, h34, hfinal⟩ := unlessFailed_none hfinal (hkept.failure.symm.trans hs)
  obtain ⟨hs2, k3, h23, hsecond⟩ := unlessFailed_none hsecond hs3
  obtain ⟨hs1, k2, h12, hbetween⟩ := unlessFailed_none hbetween hs2
  have hrechecked := finalization_rechecked (untilFailure_visited fails_finalizeHeld hfinal (hkept.failure.symm.trans hs))
  have hsame := secondPass_first (untilFailure_visited fails_secondPassRecord hsecond hs3)
  have hseen := firstPass_seen (untilFailure_visited fails_firstPassRecord hfirst hs1) recordSpecs_nodup
  have hrecords : s'.first = s1.first := by
    rw [hkept.first, hrechecked.1, hsame, (between_none hbetween hs2).first]
  have hm : Evolves OtherProcesses m k4 :=
    (((h12.trans hbetween.evolves).trans h23).trans hsecond.evolves).trans h34
  obtain ⟨g, hg, hdirectory⟩ := rootGuard_true hguard
  refine ⟨m, g, hfirst.evolves, hg.widen (hm.trans hfinal.evolves) hlast, hdirectory, fun r => ?_, fun r p hp handle hheld => ?_⟩
  · rw [hrecords]
    exact hseen.1 r (mem_recordSpecs r)
  · rw [hkept.first, hrechecked.1] at hp
    obtain ⟨q, hq, hmetadata⟩ := hrechecked.2 r (mem_recordSpecs r) p hp handle hheld
    exact ⟨q, hq.widen hm (hguard.evolves.trans hlast), hmetadata⟩

/-- Under an unchanged directory the records were, all at that moment, as they are kept. -/
theorem snapshot_at {b g : History World} {first : Record → InternalRecord} (hb : Evolves OtherProcesses b h)
    (hm : Evolves OtherProcesses h m) (hg : Within m h' g) (hdirectory : g.now.directory = b.now.directory)
    (hseen : ∀ r, Seen r h m (first r)) (hrechecked : ∀ r p, first r = some p → Rechecked m h' p) (r : Record) :
    m.now.content r = (first r).map PresentRecord.bytes := by
  have hentries : ∀ k, Evolves OtherProcesses b k → Evolves OtherProcesses k g → k.now.entries = b.now.entries :=
    fun k h1 h2 => (Evolves.guarded (fun _ _ => OtherProcesses.directory) h1 h2 hdirectory).2
  have hnames : ∀ k, Within h m k → k.now.entries = m.now.entries := by
    intro k hk
    rw [hentries k (hb.trans hk.started) (hk.ended.trans hg.started), hentries m (hb.trans hm) hg.started]
  have hr := hseen r
  cases hfirst : first r with
  | none =>
    rw [hfirst] at hr
    obtain ⟨k, hk, hmissing⟩ := hr
    rw [hnames k hk] at hmissing
    simp [World.content, World.file, hmissing]
  | some p =>
    rw [hfirst] at hr
    obtain ⟨handle, hheld, ⟨l, hl, hname⟩, k, hread⟩ := hr
    obtain ⟨q, hq, hmetadata⟩ := hrechecked r p hfirst handle hheld
    rw [hnames l hl] at hname
    -- the file showed the same metadata before and after that moment
    have hfile : ∀ x, Evolves OtherProcesses k x → Evolves OtherProcesses x m → x.now.files handle = k.now.files handle :=
      fun x h1 h2 => (Evolves.guarded (fun _ _ ho => ho.file handle) h1 (h2.trans hq.started)
        (hmetadata.trans hread.metadata.symm)).2
    have hbytes : p.bytes = (k.now.files handle).bytes := hread.bytes _ fun x hx => hfile x hx.started hx.ended
    simp [World.content, World.file, hname, hbytes, hfile m hread.within.ended (.refl _)]

theorem rootBaseline_some (hd : Observes h s rootBaseline h' s' (some baseline)) :
    ∃ m, Within h h' m ∧ m.now.directory = baseline := by
  obtain ⟨closing, _, _, hclosing, hd⟩ := does_bind.mp hd
  obtain ⟨status, _, _, hstatus, hd⟩ := does_bind.mp hd
  obtain ⟨owner, _, _, howner, hd⟩ := does_bind.mp hd
  obtain ⟨snapshot, _, _, hsnapshot, hd⟩ := does_bind.mp hd
  have hlast := hd.evolves
  split at hd
  · rename_i accepted haccepted
    obtain ⟨⟨heq, -⟩, -⟩ := does_pure.mp hd
    cases heq
    unfold acceptedBaseline at haccepted
    split at haccepted
    · split at haccepted
      · cases haccepted
        obtain ⟨m, hm, hanswer⟩ := proofSyscall_ok hsnapshot
        exact ⟨m, hm.widen ((hclosing.evolves.trans hstatus.evolves).trans howner.evolves) hlast, hanswer.symm⟩
      · cases haccepted
    · cases haccepted
  · obtain ⟨t, _, _, -, hd⟩ := does_bind.mp hd
    exact absurd hd (returns_other (by simp))

theorem fails_rootBaseline : Fails rootBaseline none := by
  intro h h' s s' hd
  obtain ⟨closing, _, _, -, hd⟩ := does_bind.mp hd
  obtain ⟨status, _, _, -, hd⟩ := does_bind.mp hd
  obtain ⟨owner, _, _, -, hd⟩ := does_bind.mp hd
  obtain ⟨snapshot, _, _, -, hd⟩ := does_bind.mp hd
  split at hd
  · obtain ⟨⟨heq, -⟩, -⟩ := does_pure.mp hd
    cases heq
  · obtain ⟨t, _, _, -, hd⟩ := does_bind.mp hd
    exact Fails.bind_pure (fun _ => chooseFailure_isSome) hd

end Moment

section Release

theorem keeps_closeHeld (r : Record) : Keeps (closeHeld r) := by
  refine Along.bind Along.get fun s => ?_
  split
  · exact Along.pure _
  · refine Along.bind (keeps_closeOnce _) fun closed => ?_
    split
    · exact Along.pure _
    · exact Along.modify fun _ => ⟨rfl, rfl⟩

theorem keeps_closeRoot (rootOpen : Bool) : Keeps (closeRoot rootOpen) := by
  unfold closeRoot
  split
  · refine Along.bind (keeps_closeOnce _) fun closed => ?_
    split
    · exact Along.pure _
    · exact Along.modify fun _ => ⟨rfl, rfl⟩
  · exact Along.pure _

theorem keeps_forM {visit : Record → CaptureM Unit} (hv : ∀ r, Keeps (visit r)) (records : List Record) :
    Keeps (records.forM visit) := by
  induction records with
  | nil => exact Along.pure _
  | cons r rest ih => exact Along.bind (hv r) fun _ => ih

/-- Giving the descriptors back cannot clear a failure. -/
theorem release_none {rootOpen : Bool} {u : Unit} (hd : Observes h s (release rootOpen) h' s' u) (hs : s'.failure = none) :
    s.failure = none ∧ s'.first = s.first := by
  obtain ⟨_, _, _, hheld, hd⟩ := does_bind.mp hd
  obtain ⟨_, _, _, hroot, hd⟩ := does_bind.mp hd
  obtain ⟨_, _, _, hcleanup, hd⟩ := does_bind.mp hd
  have hkept := (keeps_forM keeps_closeHeld _ hheld).trans ((keeps_closeRoot _ hroot).trans
    (Along.modify (fun s => by split <;> exact ⟨rfl, rfl⟩) hcleanup))
  obtain ⟨rfl, -⟩ := does_modify.mp hd
  obtain ⟨-, hfailure⟩ := Option.or_eq_none_iff.mp ((Option.orElse_eq_or ..).symm.trans hs)
  exact ⟨hkept.failure.symm.trans hfailure, hkept.first⟩

end Release

theorem result_captured {c : Capture} (hs : s.result = .captured c) :
    s.failure = none ∧ c = fun r => (s.first r).map PresentRecord.bytes := by
  unfold Session.result at hs
  split at hs
  · cases hs
  · cases hs
    exact ⟨‹_›, rfl⟩

theorem result_run {a : CaptureResult} (hd : Observes h s result h' s' a) : a = s.result := by
  obtain ⟨t, _, _, hget, hpure⟩ := does_bind.mp hd
  obtain ⟨⟨rfl, -⟩, -⟩ := does_get.mp hget
  exact (does_pure.mp hpure).1.1

/-- Whatever other processes do meanwhile, a successful capture shows one moment of the five records. -/
theorem captured_snapshot {c : Capture} (hd : Observes h {} captureDormantFixedRecords h' s' (.captured c)) :
    ∃ m, Within h h' m ∧ ∀ r, m.now.content r = c r := by
  obtain ⟨opened, h1, s1, hopen, hd⟩ := does_bind.mp hd
  split at hd
  · obtain ⟨t, _, _, -, hd⟩ := does_bind.mp hd
    obtain ⟨_, _, s2, hchoose, hd⟩ := does_bind.mp hd
    obtain ⟨_, _, s3, hrelease, hd⟩ := does_bind.mp hd
    obtain ⟨hnone, -⟩ := result_captured (result_run hd).symm
    have hsome := chooseFailure_isSome hchoose
    simp [(release_none hrelease hnone).1] at hsome
  · obtain ⟨found, h2, s2, hbaseline, hd⟩ := does_bind.mp hd
    split at hd
    · obtain ⟨_, _, s3, hrelease, hd⟩ := does_bind.mp hd
      obtain ⟨hnone, -⟩ := result_captured (result_run hd).symm
      have hsome := fails_rootBaseline hbaseline
      simp [(release_none hrelease hnone).1] at hsome
    · obtain ⟨_, h3, s3, hobserve, hd⟩ := does_bind.mp hd
      obtain ⟨_, h4, s4, hrelease, hd⟩ := does_bind.mp hd
      obtain ⟨hnone, rfl⟩ := result_captured (result_run hd).symm
      obtain ⟨hs3, hfirst⟩ := release_none hrelease hnone
      obtain ⟨m, g, hm, hg, hdirectory, hseen, hrechecked⟩ := observe_none hobserve hs3
      obtain ⟨b, hb, hbase⟩ := rootBaseline_some hbaseline
      rw [hfirst]
      refine ⟨m, ⟨((hopen.evolves.trans hbaseline.evolves).trans hm), hg.started.trans (hg.ended.trans ?_)⟩, ?_⟩
      · exact hrelease.evolves.trans hd.evolves
      · exact snapshot_at hb.ended hm hg (hdirectory.trans hbase.symm) hseen hrechecked

end HyprShelld.FixedRecords
