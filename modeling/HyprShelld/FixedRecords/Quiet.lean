import HyprShelld.FixedRecords.Snapshot

/-! Where nobody changes a private directory and reads are not interrupted, the capture succeeds. -/
namespace HyprShelld.FixedRecords
variable {α β : Type} {w : World} {s s' : Session} {p c b : Nat}

/-- A directory that is ours and private, with safe files within their limits. -/
structure World.Private (w : World) : Prop where
  readable : readableStatus w.statusFlags
  directory : safeRoot w.directory w.euid
  records : ∀ r f, w.file r = some f → safeRecord f.stat w.euid w.directory.device r.maximumBytes

def Session.exhausted (s : Session) : Bool :=
  s.operations.proofExceeded || s.operations.cleanupExceeded || s.reads.exceeded

/-- Nothing has failed, and so much of each budget is left. -/
structure Healthy (proof cleanup bytes : Nat) (s : Session) : Prop where
  proof : proof ≤ s.operations.proofRemaining
  cleanup : cleanup ≤ s.operations.cleanupRemaining
  bytes : bytes ≤ s.reads.remaining
  exhausted : s.exhausted = false
  failure : s.failure = none
  cleanupFailure : s.cleanupFailure = none

theorem Healthy.mono {p' c' b' : Nat} (hs : Healthy p c b s) (hp : p' ≤ p) (hc : c' ≤ c) (hb : b' ≤ b) :
    Healthy p' c' b' s :=
  { hs with proof := Nat.le_trans hp hs.proof, cleanup := Nat.le_trans hc hs.cleanup, bytes := Nat.le_trans hb hs.bytes }

theorem Healthy.proofExceeded (hs : Healthy p c b s) : s.operations.proofExceeded = false := by
  have := hs.exhausted
  simp only [Session.exhausted, Bool.or_eq_false_iff] at this
  exact this.1.1

/-- What the program does where nothing interferes. -/
def Yields (w : World) (s : Session) (x : CaptureM α) (s' : Session) (a : α) : Prop :=
  (x.run s).settled w.calm = (a, s')

theorem Yields.bind {x : CaptureM α} {f : α → CaptureM β} {a : α} {d : β} {t : Session} (hx : Yields w s x t a)
    (hf : Yields w t (f a) s' d) : Yields w s (x >>= f) s' d := by
  simp only [Yields, StateT.run_bind, Program.settled_bind] at hx hf ⊢
  rw [hx]
  exact hf

theorem yields_pure (a : α) : Yields w s (pure a) s a := rfl
theorem yields_get : Yields w s get s s := rfl
theorem yields_modify (f : Session → Session) : Yields w s (modify f) (f s) () := rfl
theorem yields_set (t : Session) : Yields w s (set t) t () := rfl
theorem yields_system (k : Call) : Yields w s (system k) s (w.calm k) := rfl

/-- The records of both passes are as they were. -/
structure Untouched (s s' : Session) : Prop where
  first : s'.first = s.first
  second : s'.secondMetadata = s.secondMetadata

theorem Untouched.trans {t : Session} (h1 : Untouched s s') (h2 : Untouched s' t) : Untouched s t :=
  ⟨h2.first.trans h1.first, h2.second.trans h1.second⟩

/-- The program returns the value and leaves so much of each budget. -/
def Settles (w : World) (s : Session) (x : CaptureM α) (p c b : Nat) (a : α) : Prop :=
  ∃ s', Yields w s x s' a ∧ Healthy p c b s' ∧ Untouched s s'

theorem Settles.bind {x : CaptureM α} {f : α → CaptureM β} {a : α} {d : β} {p' c' b' : Nat}
    (hx : Settles w s x p' c' b' a)
    (hf : ∀ t, Healthy p' c' b' t → Untouched s t → Settles w t (f a) p c b d) : Settles w s (x >>= f) p c b d := by
  obtain ⟨t, hyields, hhealthy, hsame⟩ := hx
  obtain ⟨s', hyields', hhealthy', hsame'⟩ := hf t hhealthy hsame
  exact ⟨s', hyields.bind hyields', hhealthy', hsame.trans hsame'⟩

theorem settles_pure (hs : Healthy p c b s) (a : α) : Settles w s (pure a) p c b a := ⟨s, yields_pure a, hs, rfl, rfl⟩

theorem settles_system (hs : Healthy p c b s) (k : Call) : Settles w s (system k) p c b (w.calm k) :=
  ⟨s, yields_system k, hs, rfl, rfl⟩

theorem settles_proofSyscall (hs : Healthy (p + 1) c b s) (k : Call) : Settles w s (proofSyscall k) p c b (w.calm k) := by
  obtain ⟨n, hn⟩ : ∃ n, s.operations.proofRemaining = n + 1 := ⟨_, (Nat.succ_pred (by have := hs.proof; omega)).symm⟩
  have hp : p ≤ n := by have := hs.proof; omega
  refine ⟨{ s with operations.proofRemaining := n }, ?_, { hs with proof := hp }, rfl, rfl⟩
  refine yields_get.bind ?_
  rw [hn]
  exact (yields_modify _).bind (yields_system k)

theorem settles_closeOnce (hs : Healthy p (c + 1) b s) (d : Descriptor) : Settles w s (closeOnce d) p c b true := by
  obtain ⟨n, hn⟩ : ∃ n, s.operations.cleanupRemaining = n + 1 := ⟨_, (Nat.succ_pred (by have := hs.cleanup; omega)).symm⟩
  have hc : c ≤ n := by have := hs.cleanup; omega
  have hattempt : s.operations.cleanupAttempt = { s.operations with cleanupRemaining := n } := by
    simp only [OperationBudget.cleanupAttempt, hn]
  refine ⟨{ s with operations.cleanupRemaining := n }, ?_, { hs with cleanup := hc }, rfl, rfl⟩
  refine (yields_modify _).bind ?_
  rw [hattempt]
  exact (yields_system _).bind (yields_pure _)

theorem settles_rootGuard (hs : Healthy (p + 1) c b s) : Settles w s (rootGuard w.directory) p c b true := by
  refine (settles_proofSyscall hs _).bind fun t ht _ => ?_
  simp only [World.calm, World.stat, sameSnapshot, decide_true]
  exact settles_pure ht true

theorem settles_guardRoot (hs : Healthy (p + 1) c b s) : Settles w s (guardRoot w.directory) p c b true :=
  (settles_rootGuard hs).bind fun _ ht _ => settles_pure ht true

theorem settles_consume {count : Nat} (hs : Healthy p c (b + count) s) : Settles w s (consume count) p c b true := by
  have hle : ¬ s.reads.remaining < count := by have := hs.bytes; omega
  have hb : b ≤ s.reads.remaining - count := by have := hs.bytes; omega
  refine ⟨{ s with reads.remaining := s.reads.remaining - count }, ?_, { hs with bytes := hb }, rfl, rfl⟩
  refine yields_get.bind ?_
  rw [if_neg hle]
  exact (yields_set _).bind (yields_pure _)

theorem settles_boundedPread {n count offset : Nat}
    (hs : Healthy (p + 1) c (b + (((w.files n).bytes.drop offset).take count).length) s) :
    Settles w s (boundedPread n count offset) p c b (.ok (((w.files n).bytes.drop offset).take count)) := by
  refine (settles_proofSyscall hs _).bind fun t ht _ => ?_
  exact (settles_consume ht).bind fun u hu _ => settles_pure hu _

section Reading
variable {n : Nat}

theorem readContent_finished {attempts : Nat} {bytes : QByteArray} (hall : bytes = (w.files n).bytes) :
    readContent n (w.files n).bytes.length attempts bytes = pure (some ((w.files n).bytes, attempts)) := by
  subst hall
  cases attempts <;> simp [readContent]

/-- As many reads as there are pieces left bring in the rest of the file. -/
theorem settles_readContent {pieces attempts : Nat} {bytes : QByteArray} (hbytes : bytes <+: (w.files n).bytes)
    (hpieces : (w.files n).bytes.length ≤ bytes.length + readBufferBytes * pieces) (hattempts : pieces ≤ attempts)
    (hs : Healthy (p + pieces) c (b + ((w.files n).bytes.length - bytes.length)) s) :
    ∃ left, attempts ≤ left + pieces ∧
      Settles w s (readContent n (w.files n).bytes.length attempts bytes) p c b (some ((w.files n).bytes, left)) := by
  induction pieces generalizing s attempts bytes with
  | zero =>
    have hall : bytes = (w.files n).bytes := hbytes.eq_of_length_le (by omega)
    refine ⟨attempts, Nat.le_add_right _ _, ?_⟩
    rw [readContent_finished hall]
    exact settles_pure (hs.mono (by omega) (Nat.le_refl _) (by omega)) _
  | succ pieces ih =>
    by_cases hshort : bytes.length < (w.files n).bytes.length
    · obtain ⟨k, rfl⟩ : ∃ k, attempts = k + 1 := ⟨_, (Nat.succ_pred (by omega)).symm⟩
      let piece := ((w.files n).bytes.drop bytes.length).take (min readBufferBytes ((w.files n).bytes.length - bytes.length))
      have hlength : piece.length = min readBufferBytes ((w.files n).bytes.length - bytes.length) := by
        simp [piece]
      have hbuffer : 0 < readBufferBytes := by decide
      have hnext : bytes ++ piece <+: (w.files n).bytes := prefix_append_piece hbytes (List.prefix_rfl)
      rw [Nat.mul_succ] at hpieces
      have hmore : (w.files n).bytes.length ≤ (bytes ++ piece).length + readBufferBytes * pieces := by
        rw [List.length_append, hlength]
        omega
      have hspent : b + ((w.files n).bytes.length - bytes.length) =
          b + ((w.files n).bytes.length - (bytes ++ piece).length) + piece.length := by
        rw [List.length_append, hlength]
        omega
      rw [hspent, ← Nat.add_assoc] at hs
      have hpread : Settles w s (boundedPread n (min readBufferBytes ((w.files n).bytes.length - bytes.length)) bytes.length)
          (p + pieces) c (b + ((w.files n).bytes.length - (bytes ++ piece).length)) (.ok piece) := settles_boundedPread hs
      obtain ⟨t, hread, ht, hsame⟩ := hpread
      obtain ⟨left, hleft, u, hrest, hu, hsame'⟩ := ih hnext hmore (show pieces ≤ k by omega) ht
      refine ⟨left, by omega, u, ?_, hu, hsame.trans hsame'⟩
      unfold readContent
      rw [if_pos hshort]
      refine hread.bind ?_
      have hnone : ¬ (piece.length = 0 ∨ min readBufferBytes ((w.files n).bytes.length - bytes.length) < piece.length) := by
        omega
      simp only
      rw [if_neg hnone]
      exact hrest
    · have hall : bytes = (w.files n).bytes := hbytes.eq_of_length_le (by omega)
      refine ⟨attempts, Nat.le_add_right _ _, ?_⟩
      rw [readContent_finished hall]
      exact settles_pure (hs.mono (by omega) (Nat.le_refl _) (by omega)) _

theorem settles_growthProbe {attempts : Nat} (hs : Healthy (p + 1) c b s) :
    Settles w s (growthProbe n (w.files n).bytes.length (attempts + 1)) p c b true := by
  have hend : (((w.files n).bytes.drop (w.files n).bytes.length).take 1).length = 0 := by simp
  have hs' : Healthy (p + 1) c (b + (((w.files n).bytes.drop (w.files n).bytes.length).take 1).length) s :=
    hs.mono (Nat.le_refl _) (Nat.le_refl _) (by omega)
  refine (settles_boundedPread hs').bind fun t ht _ => ?_
  simp only [List.drop_length, List.take_nil]
  exact settles_pure ht _

end Reading

/-- What a pass spends on reading a record, its growth probe included. -/
def Record.readCost (r : Record) : Nat := ceilingChunks r.maximumBytes + 1

theorem settles_readWhole {n : Nat} {r : Record} (hlimit : (w.files n).bytes.length ≤ r.maximumBytes)
    (hs : Healthy (p + r.readCost) c (b + r.maximumBytes) s) :
    Settles w s (readWhole r n (w.files n).bytes.length) p c b (some (w.files n).bytes) := by
  have hchunks : r.maximumBytes ≤ readBufferBytes * ceilingChunks r.maximumBytes := by
    simp only [ceilingChunks, readBufferBytes]
    omega
  have hpieces : (w.files n).bytes.length ≤ ([] : QByteArray).length + readBufferBytes * ceilingChunks r.maximumBytes := by
    simp only [List.length_nil]
    omega
  have hs' : Healthy (p + 1 + ceilingChunks r.maximumBytes) c
      (b + ((w.files n).bytes.length - ([] : QByteArray).length)) s :=
    hs.mono (by simp only [Record.readCost]; omega) (Nat.le_refl _) (by simp only [List.length_nil]; omega)
  obtain ⟨left, hleft, hread⟩ := settles_readContent List.nil_prefix hpieces
    (show ceilingChunks r.maximumBytes ≤ maximumPreadAttempts r.maximumBytes from Nat.le_add_right _ _) hs'
  obtain ⟨k, rfl⟩ : ∃ k, left = k + 1 :=
    ⟨_, (Nat.succ_pred (by simp only [maximumPreadAttempts, maximumExtraPreadAttempts] at hleft; omega)).symm⟩
  exact hread.bind fun t ht _ => (settles_growthProbe ht).bind fun u hu _ => settles_pure hu _

section Records
variable {r : Record} {pass : Pass}

/-- A record as a pass finds it. -/
def World.record (w : World) (pass : Pass) (r : Record) : InternalRecord :=
  (w.entries r).map fun n => ⟨(w.files n).bytes, (w.files n).stat, pass.holds n⟩

/-- What a pass spends on a record: six calls and its reads. -/
def Record.cost (r : Record) : Nat := 6 + r.readCost

theorem World.Private.safe (hw : w.Private) {n : Nat} (hn : w.entries r = some n) :
    FixedRecords.safe w.directory r (w.files n).stat := by
  have := hw.records r (w.files n) (by simp [World.file, hn])
  rwa [← hw.directory.2.2.1] at this

theorem World.Private.length_le (hw : w.Private) {n : Nat} (hn : w.entries r = some n) :
    (w.files n).bytes.length ≤ r.maximumBytes := by
  have hsize : (w.files n).stat.size ≤ r.maximumBytes := (hw.safe hn).2.2.2.2.2.2
  simpa [File.stat] using hsize

theorem settles_fstatatNamed {n : Nat} (hn : w.entries r = some n) (hs : Healthy (p + 1) c b s) :
    Settles w s (proofSyscall (.fstatat r)) p c b (.ok (w.files n).stat) := by
  have := settles_proofSyscall (w := w) hs (.fstatat r)
  simpa only [World.calm, World.file, hn, Option.map_some] using this

theorem settles_descriptorHasCloseOnExec (hs : Healthy (p + 1) c b s) (d : Descriptor) :
    Settles w s (descriptorHasCloseOnExec d) p c b true :=
  (settles_proofSyscall hs _).bind fun _ ht _ => settles_pure ht true

theorem settles_fstatOpened {n : Nat} (hw : w.Private) (hn : w.entries r = some n) (hs : Healthy (p + 2) c b s) :
    Settles w s (fstatOpened w.directory r n (w.files n).stat) p c b (some (w.files n).stat) := by
  refine (settles_descriptorHasCloseOnExec hs _).bind fun t ht _ => ?_
  refine (settles_proofSyscall ht _).bind fun u hu _ => ?_
  simp only [World.calm, World.stat, sameSnapshot, hw.safe hn, and_self, if_true]
  exact settles_pure hu _

theorem settles_unchangedAfter {n : Nat} (hn : w.entries r = some n) (hs : Healthy (p + 2) c b s) :
    Settles w s (unchangedAfter r n (w.files n).stat) p c b true := by
  refine (settles_proofSyscall hs _).bind fun t ht _ => ?_
  simp only [World.calm, World.stat, sameSnapshot, if_true]
  refine (settles_fstatatNamed hn ht).bind fun u hu _ => ?_
  simp only [decide_true]
  exact settles_pure hu _

theorem settles_captureOpened {n : Nat} (hw : w.Private) (hn : w.entries r = some n)
    (hs : Healthy (p + (4 + r.readCost)) (c + 1) (b + r.maximumBytes) s) :
    Settles w s (captureOpened w.directory r pass n (w.files n).stat) p c b
      (some ⟨(w.files n).bytes, (w.files n).stat, pass.holds n⟩) := by
  have hs' : Healthy (p + 2 + r.readCost + 2) (c + 1) (b + r.maximumBytes) s :=
    hs.mono (by omega) (Nat.le_refl _) (Nat.le_refl _)
  refine (settles_fstatOpened hw hn hs').bind fun t ht _ => ?_
  refine (settles_system ht _).bind fun u hu _ => ?_
  refine (settles_readWhole (hw.length_le hn) hu).bind fun v hv _ => ?_
  refine (settles_unchangedAfter hn hv).bind fun x hx _ => ?_
  cases pass with
  | first => exact settles_pure (hx.mono (Nat.le_refl _) (Nat.le_succ _) (Nat.le_refl _)) _
  | second => exact (settles_closeOnce hx _).bind fun y hy _ => settles_pure hy _

theorem settles_captureOne (hw : w.Private) (hs : Healthy (p + r.cost) (c + 1) (b + r.maximumBytes) s) :
    Settles w s (captureOne w.directory r pass) p c b (some (w.record pass r)) := by
  cases hn : w.entries r with
  | none =>
    have hmissing : w.calm (.fstatat r) = .error .ENOENT := by simp only [World.calm, World.file, hn, Option.map_none]
    have hs' : Healthy (p + 1 + 1) c b s :=
      hs.mono (by simp only [Record.cost]; omega) (Nat.le_succ _) (Nat.le_add_right _ _)
    refine (settles_proofSyscall hs' _).bind fun t ht _ => ?_
    rw [hmissing]
    refine Settles.bind ⟨t, yields_get, ht, rfl, rfl⟩ fun u hu _ => ?_
    rw [if_neg (by simp [ht.proofExceeded]), if_neg (by simp)]
    refine (settles_proofSyscall hu _).bind fun v hv _ => ?_
    rw [hmissing]
    simp only [World.record, hn, Option.map_none]
    exact settles_pure hv _
  | some n =>
    have hs' : Healthy (p + (4 + r.readCost) + 1 + 1) (c + 1) (b + r.maximumBytes) s :=
      hs.mono (by simp only [Record.cost]; omega) (Nat.le_refl _) (Nat.le_refl _)
    refine (settles_fstatatNamed hn hs').bind fun t ht _ => ?_
    simp only [if_pos (hw.safe hn)]
    refine (settles_proofSyscall ht _).bind fun u hu _ => ?_
    simp only [World.calm, hn]
    refine (settles_captureOpened hw hn hu).bind fun v hv _ => ?_
    simp only [World.record, hn, Option.map_some]
    exact settles_pure hv _

/-- No record is another one's file. -/
theorem World.Private.no_alias (hw : w.Private) {metadata : Record → Option Stat}
    (hm : ∀ q a, metadata q = some a → ∃ n, w.entries q = some n ∧ a = (w.files n).stat) (r : Record) :
    hasIdentityAlias metadata r = false := by
  unfold hasIdentityAlias
  cases hr : metadata r with
  | none => rfl
  | some candidate =>
    obtain ⟨n, hn, rfl⟩ := hm r candidate hr
    refine List.any_eq_false.mpr fun q hq => ?_
    have hne : q ≠ r := of_decide_eq_true (List.all_eq_true.mp List.all_takeWhile q hq)
    cases hmq : metadata q with
    | none => simp
    | some prior =>
      obtain ⟨k, hk, rfl⟩ := hm q prior hmq
      have hsingle : (w.files k).metadata.nlink = 1 := (hw.safe hk).2.2.2.2.1
      intro hsame
      have := w.links hne hk hn (of_decide_eq_true hsame)
      omega

theorem World.record_metadata {a : Stat} (ha : (w.record pass r).map PresentRecord.metadata = some a) :
    ∃ n, w.entries r = some n ∧ a = (w.files n).stat := by
  cases hn : w.entries r with
  | none => simp [record, hn] at ha
  | some n =>
    simp only [record, hn, Option.map_some, Option.some.injEq] at ha
    exact ⟨n, rfl, ha.symm⟩

theorem World.records_equal (w : World) (r : Record) : recordsEqual (w.record .first r) (w.record .second r) := by
  cases hn : w.entries r with
  | none => simp [record, hn, recordsEqual]
  | some n => simp [record, hn, recordsEqual]

end Records

section Loops

/-- A loop whose visits settle does, and spends what they spend. -/
theorem settles_untilFailure {visit : Record → CaptureM Bool} {Q : List Record → Session → Prop}
    {proof cleanup bytes : Record → Nat}
    (hvisit : ∀ {p c b : Nat} {s : Session} r rest, Healthy (p + proof r) (c + cleanup r) (b + bytes r) s → Q (r :: rest) s →
      ∃ s', Yields w s (visit r) s' true ∧ Healthy p c b s' ∧ Q rest s') {records : List Record} {s : Session}
    (hs : Healthy (p + (records.map proof).sum) (c + (records.map cleanup).sum) (b + (records.map bytes).sum) s)
    (hq : Q records s) : ∃ s', Yields w s (untilFailure visit records) s' () ∧ Healthy p c b s' ∧ Q [] s' := by
  induction records generalizing s with
  | nil => exact ⟨s, yields_pure _, hs, hq⟩
  | cons r rest ih =>
    simp only [List.map_cons, List.sum_cons] at hs
    rw [Nat.add_comm (proof r), Nat.add_comm (cleanup r), Nat.add_comm (bytes r), ← Nat.add_assoc, ← Nat.add_assoc,
      ← Nat.add_assoc] at hs
    obtain ⟨t, hone, ht, hrest⟩ := hvisit r rest hs hq
    obtain ⟨s', hyields, hhealthy, hnil⟩ := ih ht hrest
    exact ⟨s', hone.bind hyields, hhealthy, hnil⟩

/-- The first pass keeps the records it has seen as they are. -/
structure FirstSeen (w : World) (rest : List Record) (s : Session) : Prop where
  first : ∀ q, s.first q = w.record .first q ∨ (q ∈ rest ∧ s.first q = none)
  second : s.secondMetadata = fun _ => none

theorem yields_firstPassRecord (hw : w.Private) (r : Record) (rest : List Record)
    (hs : Healthy (p + (2 + r.cost)) (c + 1) (b + r.maximumBytes) s) (hq : FirstSeen w (r :: rest) s) :
    ∃ s', Yields w s (firstPassRecord w.directory r) s' true ∧ Healthy p c b s' ∧ FirstSeen w rest s' := by
  have hs' : Healthy (p + 1 + r.cost + 1) (c + 1) (b + r.maximumBytes) s := hs.mono (by omega) (Nat.le_refl _) (Nat.le_refl _)
  obtain ⟨t, hguard, ht, hsame⟩ := settles_guardRoot (w := w) hs'
  have hcapture : Settles w t (captureOne w.directory r .first) (p + 1) c b (some (w.record .first r)) :=
    settles_captureOne hw ht
  obtain ⟨u, hone, hu, hsame'⟩ := hcapture
  let kept : Session := { u with first := Function.update u.first r (w.record .first r) }
  have hkept : FirstSeen w rest kept := by
    refine ⟨fun q => ?_, (hsame'.second.trans hsame.second).trans hq.second⟩
    by_cases hqr : q = r
    · subst hqr
      exact .inl (Function.update_self ..)
    · have hfirst : kept.first q = s.first q := by
        rw [show kept.first q = u.first q from Function.update_of_ne hqr _ _, hsame'.first, hsame.first]
      rw [hfirst]
      refine (hq.first q).imp_right fun h => ⟨?_, h.2⟩
      exact (List.mem_cons.mp h.1).resolve_left hqr
  have hhealthy : Healthy (p + 1) c b kept := { hu with }
  obtain ⟨v, hguard', hv, hsame''⟩ := settles_guardRoot (w := w) hhealthy
  have halias : hasIdentityAlias kept.firstMetadata r = false := by
    refine hw.no_alias (fun q a ha => ?_) r
    rcases hkept.first q with hfound | ⟨-, hnone⟩
    · rw [Session.firstMetadata, hfound] at ha
      exact World.record_metadata ha
    · simp [Session.firstMetadata, hnone] at ha
  refine ⟨v, ?_, hv, fun q => by rw [hsame''.first]; exact hkept.first q, hsame''.second.trans hkept.second⟩
  refine hguard.bind (hone.bind ((yields_modify _).bind (yields_get.bind ?_)))
  rw [show hasIdentityAlias _ r = false from halias]
  exact hguard'

/-- The second pass finds what the first one kept. -/
structure SecondSeen (w : World) (s : Session) : Prop where
  first : s.first = w.record .first
  second : ∀ q a, s.secondMetadata q = some a → ∃ n, w.entries q = some n ∧ a = (w.files n).stat

theorem yields_secondPassRecord (hw : w.Private) (r : Record)
    (hs : Healthy (p + (2 + r.cost)) (c + 1) (b + r.maximumBytes) s) (hq : SecondSeen w s) :
    ∃ s', Yields w s (secondPassRecord w.directory r) s' true ∧ Healthy p c b s' ∧ SecondSeen w s' := by
  have hs' : Healthy (p + 1 + r.cost + 1) (c + 1) (b + r.maximumBytes) s := hs.mono (by omega) (Nat.le_refl _) (Nat.le_refl _)
  obtain ⟨t, hguard, ht, hsame⟩ := settles_guardRoot (w := w) hs'
  have hcapture : Settles w t (captureOne w.directory r .second) (p + 1) c b (some (w.record .second r)) :=
    settles_captureOne hw ht
  obtain ⟨u, hone, hu, hsame'⟩ := hcapture
  let kept : Session :=
    { u with secondMetadata := Function.update u.secondMetadata r ((w.record .second r).map PresentRecord.metadata) }
  have hkept : SecondSeen w kept := by
    refine ⟨(hsame'.first.trans hsame.first).trans hq.first, fun q a ha => ?_⟩
    by_cases hqr : q = r
    · subst hqr
      rw [show kept.secondMetadata q = _ from Function.update_self ..] at ha
      exact World.record_metadata ha
    · rw [show kept.secondMetadata q = u.secondMetadata q from Function.update_of_ne hqr _ _, hsame'.second,
        hsame.second] at ha
      exact hq.second q a ha
  have hhealthy : Healthy (p + 1) c b kept := { hu with }
  obtain ⟨v, hguard', hv, hsame''⟩ := settles_guardRoot (w := w) hhealthy
  have hheld : (w.record .second r).bind PresentRecord.heldFirstPassFd = none := by
    cases hn : w.entries r <;> simp [World.record, hn, Pass.holds]
  refine ⟨v, ?_, hv, hsame''.first.trans hkept.first, fun q a ha => hkept.second q a (by rwa [hsame''.second] at ha)⟩
  refine hguard.bind (hone.bind ?_)
  simp only [hheld, Option.isSome_none, Bool.false_eq_true, if_false]
  refine (yields_modify _).bind (yields_get.bind ?_)
  rw [show hasIdentityAlias _ r = false from hw.no_alias hkept.second r]
  refine yields_get.bind ?_
  have hequal : recordsEqual (kept.first r) (w.record .second r) := by
    rw [hkept.first]
    exact w.records_equal r
  rw [if_pos hequal]
  exact hguard'

theorem yields_finalizeHeld (hw : w.Private) (r : Record) (hs : Healthy (p + 2) c b s) (hq : s.first = w.record .first) :
    ∃ s', Yields w s (finalizeHeld w.directory r) s' true ∧ Healthy p c b s' ∧ s'.first = w.record .first := by
  cases hn : w.entries r with
  | none =>
    refine ⟨s, yields_get.bind ?_, hs.mono (Nat.le_add_right _ _) (Nat.le_refl _) (Nat.le_refl _), hq⟩
    rw [hq]
    simp only [World.record, hn, Option.map_none]
    exact yields_pure _
  | some n =>
    have hheld : Settles w s (heldUnchanged w.directory r ⟨(w.files n).bytes, (w.files n).stat, some n⟩) p c b true := by
      refine (settles_proofSyscall hs _).bind fun t ht _ => ?_
      simp only [World.calm, World.stat, sameSnapshot, if_true]
      refine (settles_fstatatNamed hn ht).bind fun u hu _ => ?_
      simp only [hw.safe hn, and_self, decide_true]
      exact settles_pure hu _
    obtain ⟨t, hyields, ht, hsame⟩ := hheld
    refine ⟨t, yields_get.bind ?_, ht, hsame.first.trans hq⟩
    rw [hq]
    simp only [World.record, hn, Option.map_some, Pass.holds]
    exact hyields.bind (yields_pure _)

end Loops

section Whole

theorem settles_rootBaseline (hw : w.Private) (hs : Healthy (p + 4) c b s) :
    Settles w s rootBaseline p c b (some w.directory) := by
  have haccepted : acceptedBaseline true (.ok w.statusFlags) (.ok w.euid) (.ok w.directory) = some w.directory := by
    simp [acceptedBaseline, hw.readable, hw.directory]
  refine (settles_descriptorHasCloseOnExec hs _).bind fun t ht _ => ?_
  refine (settles_proofSyscall ht _).bind fun u hu _ => ?_
  refine (settles_proofSyscall hu _).bind fun v hv _ => ?_
  refine (settles_proofSyscall hv _).bind fun x hx _ => ?_
  simp only [World.calm, World.stat, haccepted]
  exact settles_pure hx _

theorem yields_unlessFailed {next : CaptureM Unit} (hs : s.failure = none) (hnext : Yields w s next s' ()) :
    Yields w s (unlessFailed next) s' () := by
  refine yields_get.bind ?_
  rw [hs]
  exact hnext

def passProof : Nat := (recordSpecs.map fun r => 2 + r.cost).sum
def passBytes : Nat := (recordSpecs.map Record.maximumBytes).sum

/-- Both passes, the guard between them, the final checks and the final guard. -/
theorem yields_observe (hw : w.Private) (hs : Healthy (p + (passProof + (1 + (passProof + (10 + 1))))) (c + 10)
    (b + (passBytes + passBytes)) s) (hfirst : s.first = fun _ => none) (hsecond : s.secondMetadata = fun _ => none) :
    ∃ s', Yields w s (observe w.directory) s' () ∧ Healthy p c b s' ∧ s'.first = w.record .first := by
  have hs1 : Healthy (p + (1 + (passProof + (10 + 1))) + (recordSpecs.map fun r => 2 + r.cost).sum)
      (c + 5 + (recordSpecs.map fun _ => 1).sum) (b + passBytes + (recordSpecs.map Record.maximumBytes).sum) s :=
    hs.mono (by simp only [passProof]; omega) (by simp [recordSpecs]) (by simp only [passBytes]; omega)
  obtain ⟨t1, hpass1, ht1, hseen⟩ := settles_untilFailure (Q := FirstSeen w) (yields_firstPassRecord hw) hs1
    ⟨fun q => .inr ⟨mem_recordSpecs q, by rw [hfirst]⟩, hsecond⟩
  have ht1' : Healthy (p + (passProof + (10 + 1)) + 1) (c + 5) (b + passBytes) t1 :=
    ht1.mono (by omega) (Nat.le_refl _) (Nat.le_refl _)
  obtain ⟨t2, hguard, ht2, hsame⟩ := settles_guardRoot (w := w) ht1'
  have hseen2 : SecondSeen w t2 := by
    refine ⟨funext fun q => ?_, fun q a ha => ?_⟩
    · rw [hsame.first]
      exact (hseen.first q).resolve_right (by simp)
    · rw [hsame.second, hseen.second] at ha
      cases ha
  have hs2 : Healthy (p + (10 + 1) + (recordSpecs.map fun r => 2 + r.cost).sum) (c + (recordSpecs.map fun _ => 1).sum)
      (b + (recordSpecs.map Record.maximumBytes).sum) t2 :=
    ht2.mono (by simp only [passProof]; omega) (by simp [recordSpecs]) (Nat.le_refl _)
  obtain ⟨t3, hpass2, ht3, hseen3⟩ := settles_untilFailure (Q := fun _ => SecondSeen w)
    (fun r _ => yields_secondPassRecord hw r) hs2 hseen2
  have hs3 : Healthy (p + 1 + (recordSpecs.map fun _ => 2).sum) (c + (recordSpecs.map fun _ => 0).sum)
      (b + (recordSpecs.map fun _ => 0).sum) t3 :=
    ht3.mono (by simp [recordSpecs]) (by simp [recordSpecs]) (by simp [recordSpecs])
  obtain ⟨t4, hfinal, ht4, hfirst4⟩ := settles_untilFailure (Q := fun _ s => s.first = w.record .first)
    (fun r _ => yields_finalizeHeld hw r) hs3 hseen3.first
  obtain ⟨t5, hlast, ht5, hsame5⟩ := settles_rootGuard (w := w) ht4
  refine ⟨t5, ?_, ht5, hsame5.first.trans hfirst4⟩
  have hbetween : Yields w t1 (unlessFailed do let _ ← guardRoot w.directory) t2 () :=
    yields_unlessFailed ht1.failure (hguard.bind (yields_pure ()))
  refine hpass1.bind (hbetween.bind ?_)
  refine (yields_unlessFailed ht2.failure hpass2).bind ((yields_unlessFailed ht3.failure hfinal).bind ?_)
  exact hlast.bind (yields_pure _)

theorem yields_closeHeld (r : Record) (hs : Healthy p (c + 1) b s) :
    Settles w s (closeHeld r) p c b () := by
  refine Settles.bind ⟨s, yields_get, hs, rfl, rfl⟩ fun t ht _ => ?_
  split
  · exact settles_pure (ht.mono (Nat.le_refl _) (Nat.le_succ _) (Nat.le_refl _)) _
  · exact (settles_closeOnce ht _).bind fun u hu _ => settles_pure hu _

theorem settles_closeAll {records : List Record} (hs : Healthy p (c + records.length) b s) :
    Settles w s (records.forM closeHeld) p c b () := by
  induction records generalizing s with
  | nil => exact settles_pure hs _
  | cons r rest ih => exact (yields_closeHeld r hs).bind fun t ht _ => ih ht

theorem settles_release (hs : Healthy p (c + 6) b s) : Settles w s (release true) p c b () := by
  refine (settles_closeAll (show Healthy p (c + 1 + recordSpecs.length) b s from hs)).bind fun t ht _ => ?_
  refine Settles.bind ((settles_closeOnce ht _).bind fun u hu _ => settles_pure hu _) fun u hu _ => ?_
  have hcleanup : u.operations.cleanupExceeded = false := by
    have := hu.exhausted
    simp only [Session.exhausted, Bool.or_eq_false_iff] at this
    exact this.1.2
  have hwithin : Settles w u (modify fun s => if s.operations.cleanupExceeded then s.withCleanupFailure .stateDirectory else s)
      p c b () := by
    refine ⟨u, ?_, hu, rfl, rfl⟩
    have := yields_modify (w := w) (s := u) fun s => if s.operations.cleanupExceeded then s.withCleanupFailure .stateDirectory else s
    simpa [hcleanup] using this
  refine hwithin.bind fun v hv _ => ?_
  refine ⟨_, yields_modify _, { hv with failure := ?_ }, rfl, rfl⟩
  simp [hv.failure, hv.cleanupFailure]

/-- A private directory that nobody changes is captured as it is, and no budget runs out. -/
theorem capture_private (hw : w.Private) :
    ∃ s, (captureDormantFixedRecords.run {}).settled w.calm = (.captured w.content, s) ∧ s.exhausted = false := by
  have hs : Healthy (passProof + (1 + (passProof + (10 + 1))) + 4 + 1) (6 + 10) (passBytes + passBytes) {} :=
    { proof := by decide +kernel, cleanup := by decide, bytes := by decide +kernel, exhausted := rfl, failure := rfl,
      cleanupFailure := rfl }
  obtain ⟨t1, hopen, ht1, hsame1⟩ := settles_proofSyscall (w := w) hs .duplicateRoot
  obtain ⟨t2, hbaseline, ht2, hsame2⟩ := settles_rootBaseline hw ht1
  have hsame := hsame1.trans hsame2
  have ht2' : Healthy (0 + (passProof + (1 + (passProof + (10 + 1))))) (6 + 10) (0 + (passBytes + passBytes)) t2 :=
    ht2.mono (by omega) (Nat.le_refl _) (by omega)
  obtain ⟨t3, hobserve, ht3, hfirst⟩ := yields_observe hw ht2' hsame.first hsame.second
  obtain ⟨t4, hrelease, ht4, hsame4⟩ := settles_release (w := w) (c := 0) ht3
  refine ⟨t4, ?_, ht4.exhausted⟩
  have hresult : t4.result = .captured w.content := by
    simp only [Session.result, ht4.failure, hsame4.first, hfirst]
    congr 1
    funext r
    simp [World.record, World.content, World.file, Function.comp_def]
  rw [← hresult]
  refine hopen.bind (hbaseline.bind (hobserve.bind (hrelease.bind ?_)))
  exact yields_get.bind (yields_pure _)

end Whole

/-- A successful capture is the state of all five records at one moment of the call, and a private
directory that nobody changes is captured within the budgets. -/
theorem fixedRecordCapture_snapshot :
    (∀ (h h' : History World) (s : Session) (c : Capture),
      Observes h {} captureDormantFixedRecords h' s (.captured c) → ∃ m, Within h h' m ∧ ∀ r, m.now.content r = c r) ∧
    ∀ w : World, w.Private →
      ∃ s, (captureDormantFixedRecords.run {}).settled w.calm = (.captured w.content, s) ∧ s.exhausted = false :=
  ⟨fun _ _ _ _ => captured_snapshot, fun _ => capture_private⟩

def sampleMetadata (inode mode nlink : Nat) : Metadata where
  device := 1
  inode := inode
  mode := mode
  uid := 1000
  gid := 1000
  nlink := nlink
  mtim := ⟨0, 0⟩
  ctim := ⟨0, 0⟩

/-- A directory with an authority record and nothing else. -/
def sampleWorld : World where
  directory := { sampleMetadata 2 0o040700 2 with size := 4096 }
  entries r := if r = .authority then some 7 else none
  files _ := ⟨sampleMetadata 7 0o100600 1, [0x7b, 0x7d]⟩
  statusFlags := O_RDONLY
  euid := 1000
  links := by
    intro r s n m hne hr hs
    have hr' : r = .authority := by by_contra h; simp [h] at hr
    have hs' : s = .authority := by by_contra h; simp [h] at hs
    exact absurd (hr'.trans hs'.symm) hne

theorem sampleWorld_private : sampleWorld.Private where
  readable := by decide
  directory := by decide
  records r f hf := by
    cases r with
    | authority =>
      obtain rfl := Option.some.inj hf
      decide
    | _ => cases hf

theorem fixedRecordCapture_snapshot_sample :
    ∃ s m, (captureDormantFixedRecords.run {}).settled sampleWorld.calm = (.captured sampleWorld.content, s) ∧
      s.exhausted = false ∧ Within ⟨sampleWorld, []⟩ ⟨sampleWorld, []⟩ m ∧
      ∀ r, m.now.content r = if r = .authority then some [0x7b, 0x7d] else none := by
  obtain ⟨s, hresult, hbudgets⟩ := fixedRecordCapture_snapshot.2 sampleWorld sampleWorld_private
  have hrun : Observes ⟨sampleWorld, []⟩ {} captureDormantFixedRecords ⟨sampleWorld, []⟩ s (.captured sampleWorld.content) := by
    have hsettled : Runs OtherProcesses Answers ⟨sampleWorld, []⟩ (captureDormantFixedRecords.run {}) ⟨sampleWorld, []⟩
        ((captureDormantFixedRecords.run {}).settled sampleWorld.calm) := runs_settled sampleWorld.calm_answers _
    rwa [hresult] at hsettled
  obtain ⟨m, hm, hcontent⟩ := fixedRecordCapture_snapshot.1 _ _ _ _ hrun
  refine ⟨s, m, hresult, hbudgets, hm, fun r => ?_⟩
  rw [hcontent r]
  cases r <;> rfl

end HyprShelld.FixedRecords
