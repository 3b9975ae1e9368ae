import HyprShelld.Coordinator.Commits

/-! Package identities: the key of a record names one package, and no package is the host's own. -/
namespace HyprShelld
open Components HealthStore

namespace Components

/-- A digest has no separator in it, not even behind the line feed its expression allows. -/
theorem digest_no_slash {digest : QString} (h : isFullSha256Digest digest = true) : unit '/' ∉ digest := by
  obtain ⟨rest, hr, he⟩ := List.any_eq_true.mp (show Pattern.matchesWhole digestPattern (toUcs4 digest) = true from h)
  obtain ⟨t, ht, ⟨hall, _⟩⟩ := Pattern.mem_remainders.mp hr
  have hcodes : ∀ c ∈ toUcs4 digest, c < 0xd800 ∧ c ≠ 0x2f := by
    intro c hc
    rw [ht, List.mem_append] at hc
    rcases hc with hc | hc
    · have hhex := hall c hc
      simp only [Pattern.among, lowerHexDigits, List.any_cons, List.any_nil, Bool.or_false, Bool.or_eq_true,
        Bool.and_eq_true, decide_eq_true_eq] at hhex
      have h0 : '0'.toNat = 0x30 := rfl
      have h9 : '9'.toNat = 0x39 := rfl
      have ha : 'a'.toNat = 0x61 := rfl
      have hf : 'f'.toNat = 0x66 := rfl
      omega
    · rcases (by simpa using he : rest = [] ∨ rest = [0x0a]) with rfl | rfl
      · cases hc
      · rw [List.mem_singleton.mp hc]
        decide
  have hunits := toUcs4_basic fun c hc => (hcodes c hc).1
  intro hm
  have hslash : (unit '/').toNat ∈ toUcs4 digest := by
    rw [← hunits]
    exact List.mem_map_of_mem hm
  exact (hcodes _ hslash).2 rfl

end Components

/-- A package of a third party: never the protected built-in, and named by a full digest. -/
structure ThirdParty (componentId packageDigest : QString) : Prop where
  foreign : componentId ≠ workspaceSwitcherId
  digest : isFullSha256Digest packageDigest = true

private theorem append_separator_inj {a b c d : QString} {u : UInt16} (hb : u ∉ b) (hd : u ∉ d)
    (h : a ++ u :: b = c ++ u :: d) : a = c ∧ b = d := by
  rcases List.append_eq_append_iff.mp h with ⟨e, hc, he⟩ | ⟨e, ha, he⟩
  · cases e with
    | nil => exact ⟨by simpa using hc.symm, by simpa using he⟩
    | cons v e =>
      rw [List.cons_append, List.cons.injEq] at he
      exact absurd (he.2 ▸ List.mem_append_right e List.mem_cons_self) hb
  · cases e with
    | nil => exact ⟨by simpa using ha, by simpa using he.symm⟩
    | cons v e =>
      rw [List.cons_append, List.cons.injEq] at he
      exact absurd (he.2 ▸ List.mem_append_right e List.mem_cons_self) hd

theorem recordKey_inj {a b c d : QString} (hb : isFullSha256Digest b = true) (hd : isFullSha256Digest d = true)
    (h : recordKey a b = recordKey c d) : a = c ∧ b = d :=
  append_separator_inj (digest_no_slash hb) (digest_no_slash hd) h

namespace PlanController

/-- What holds of every health state the controller keeps or writes. -/
structure HealthOk (health : ComponentRuntimeHealthState) : Prop where
  records_sorted : health.records.Sorted
  pending_sorted : health.pending.Sorted
  keyed : ∀ e ∈ health.records, ThirdParty e.2.componentId e.2.packageDigest ∧
    e.1 = recordKey e.2.componentId e.2.packageDigest
  pending : ∀ e ∈ health.pending, ThirdParty e.2.componentId e.2.packageDigest
  disjoint : ∀ e ∈ health.pending, isQuarantined health e.2.componentId e.2.packageDigest = false

theorem healthOk_empty (revision : UInt64) (safeMode : Bool) : HealthOk { revision, safeMode } :=
  ⟨QMap.sorted_nil, QMap.sorted_nil, by simp, by simp, by simp⟩

/-- Neither the revision nor safe mode matters. -/
theorem HealthOk.congr {a b : ComponentRuntimeHealthState} (h : HealthOk a) (hr : b.records = a.records)
    (hp : b.pending = a.pending) : HealthOk b := by
  refine ⟨hr ▸ h.records_sorted, hp ▸ h.pending_sorted, hr ▸ h.keyed, hp ▸ h.pending, ?_⟩
  rw [hp]
  unfold isQuarantined
  rw [hr]
  exact h.disjoint

section Records
variable {health : ComponentRuntimeHealthState}

variable (health) in
theorem isQuarantined_quarantineRecord (componentId packageDigest reason : QString) (id digest : QString) :
    isQuarantined { health with records := quarantineRecord health.records componentId packageDigest reason } id digest =
      (decide (recordKey id digest = recordKey componentId packageDigest) || isQuarantined health id digest) := by
  unfold isQuarantined quarantineRecord
  rw [QMap.lookup_insert]
  by_cases h : recordKey id digest = recordKey componentId packageDigest
  · simp [h, quarantinedRecord]
  · simp [h]

variable (health) in
theorem keyed_quarantineRecord {componentId packageDigest reason : QString} (hp : ThirdParty componentId packageDigest)
    (h : ∀ e ∈ health.records, ThirdParty e.2.componentId e.2.packageDigest ∧
      e.1 = recordKey e.2.componentId e.2.packageDigest) :
    ∀ e ∈ quarantineRecord health.records componentId packageDigest reason,
      ThirdParty e.2.componentId e.2.packageDigest ∧ e.1 = recordKey e.2.componentId e.2.packageDigest := by
  intro e he
  rcases QMap.mem_insert he with rfl | he
  · exact ⟨hp, rfl⟩
  · exact h e he

/-- No state quarantines the built-in. -/
theorem HealthOk.builtin (h : HealthOk health) {digest : QString} (hd : isFullSha256Digest digest = true) :
    isQuarantined health workspaceSwitcherId digest = false := by
  unfold isQuarantined
  cases hl : health.records.lookup (recordKey workspaceSwitcherId digest) with
  | none => rfl
  | some record =>
    obtain ⟨hp, he⟩ := h.keyed _ (QMap.mem_of_lookup hl)
    exact absurd (recordKey_inj hd hp.digest he).1.symm hp.foreign

/-- The key of a quarantined package finds its record. -/
theorem HealthOk.isQuarantined_of_mem (h : HealthOk health) {e : QString × ComponentRuntimeHealthRecord}
    (he : e ∈ health.records) (hs : e.2.state = quarantined) :
    isQuarantined health e.2.componentId e.2.packageDigest = true := by
  unfold isQuarantined
  rw [← (h.keyed e he).2, QMap.lookup_of_mem h.records_sorted he]
  simpa using hs

/-- Dropping activations keeps a state good. -/
theorem HealthOk.filterPending (h : HealthOk health) {pending : QMap ComponentRuntimePendingActivation}
    (hs : pending.Sorted) (hsub : ∀ e ∈ pending, e ∈ health.pending) : HealthOk { health with pending } :=
  ⟨h.records_sorted, hs, h.keyed, fun e he => h.pending e (hsub e he), fun e he => h.disjoint e (hsub e he)⟩

/-- A package that failed is quarantined and no longer pending. -/
theorem HealthOk.quarantine (h : HealthOk health) {componentId packageDigest : QString}
    (hp : ThirdParty componentId packageDigest) (reason : QString) :
    HealthOk { health with
      records := quarantineRecord health.records componentId packageDigest reason
      pending := health.pending.filter fun e =>
        !(e.2.componentId = componentId && e.2.packageDigest = packageDigest) } := by
  refine ⟨QMap.sorted_insert h.records_sorted _ _, QMap.sorted_filter h.pending_sorted _,
    keyed_quarantineRecord health hp h.keyed, fun e he => h.pending e (List.mem_filter.mp he).1, ?_⟩
  intro e he
  obtain ⟨hm, hother⟩ := List.mem_filter.mp he
  have hkey : recordKey e.2.componentId e.2.packageDigest ≠ recordKey componentId packageDigest := by
    intro hk
    obtain ⟨h1, h2⟩ := recordKey_inj (h.pending e hm).digest hp.digest hk
    simp [h1, h2] at hother
  have := isQuarantined_quarantineRecord health componentId packageDigest reason e.2.componentId e.2.packageDigest
  unfold isQuarantined at this ⊢
  rw [this, decide_eq_false hkey, Bool.false_or]
  exact h.disjoint e hm

theorem HealthOk.retry (h : HealthOk health) (key : QString) :
    HealthOk { health with records := QMap.remove key health.records } := by
  refine ⟨QMap.sorted_remove h.records_sorted _, h.pending_sorted, ?_, h.pending, ?_⟩
  · exact fun e he => h.keyed e (List.mem_filter.mp he).1
  · intro e he
    have := h.disjoint e he
    unfold isQuarantined at this ⊢
    rw [QMap.lookup_remove]
    split_ifs
    · rfl
    · exact this

section All
variable {reason : QString}

private theorem fold_sorted {pending : List (QString × ComponentRuntimePendingActivation)}
    {records : QMap ComponentRuntimeHealthRecord} (h : records.Sorted) :
    (pending.foldl (fun records e => quarantineRecord records e.2.componentId e.2.packageDigest reason)
      records).Sorted := by
  induction pending generalizing records with
  | nil => exact h
  | cons e pending ih => exact ih (QMap.sorted_insert h _ _)

private theorem fold_keyed {pending : List (QString × ComponentRuntimePendingActivation)}
    {records : QMap ComponentRuntimeHealthRecord} (hp : ∀ e ∈ pending, ThirdParty e.2.componentId e.2.packageDigest)
    (h : ∀ e ∈ records, ThirdParty e.2.componentId e.2.packageDigest ∧
      e.1 = recordKey e.2.componentId e.2.packageDigest) :
    ∀ e ∈ pending.foldl (fun records e => quarantineRecord records e.2.componentId e.2.packageDigest reason) records,
      ThirdParty e.2.componentId e.2.packageDigest ∧ e.1 = recordKey e.2.componentId e.2.packageDigest := by
  induction pending generalizing records with
  | nil => exact h
  | cons e pending ih =>
    exact ih (fun f hf => hp f (List.mem_cons_of_mem _ hf))
      (keyed_quarantineRecord { records } (hp e List.mem_cons_self) h)

private theorem fold_quarantined {pending : List (QString × ComponentRuntimePendingActivation)}
    {records : QMap ComponentRuntimeHealthRecord} {id digest : QString}
    (h : isQuarantined { records } id digest = true ∨
      ∃ e ∈ pending, recordKey e.2.componentId e.2.packageDigest = recordKey id digest) :
    isQuarantined { records := (pending.foldl
      (fun records e => quarantineRecord records e.2.componentId e.2.packageDigest reason) records) } id digest = true := by
  induction pending generalizing records with
  | nil => simpa using h
  | cons e pending ih =>
    apply ih
    have hrecord := isQuarantined_quarantineRecord { records } e.2.componentId e.2.packageDigest reason id digest
    rcases h with h | ⟨f, hf, hk⟩
    · exact .inl (by simp [hrecord, h])
    · rcases List.mem_cons.mp hf with rfl | hf
      · exact .inl (by simp [hrecord, hk])
      · exact .inr ⟨f, hf, hk⟩

theorem HealthOk.quarantineAll (h : HealthOk health) (reason : QString) : HealthOk (quarantineAll health reason) :=
  ⟨fold_sorted h.records_sorted, QMap.sorted_nil, fold_keyed h.pending h.keyed, by simp [PlanController.quarantineAll],
    by simp [PlanController.quarantineAll]⟩

/-- Whoever was pending or quarantined is quarantined afterwards. -/
theorem isQuarantined_quarantineAll {id digest : QString}
    (h : isQuarantined health id digest = true ∨
      ∃ e ∈ health.pending, e.2.componentId = id ∧ e.2.packageDigest = digest) :
    isQuarantined (PlanController.quarantineAll health reason) id digest = true := by
  apply fold_quarantined
  rcases h with h | ⟨e, he, rfl, rfl⟩
  · exact .inl h
  · exact .inr ⟨e, he, rfl⟩

end All
end Records
end PlanController
end HyprShelld
