import HyprShelld.Desired.CrossChecks
import HyprShelld.Support.Chains

/-! The references between the records of a desired state: mirrors and submap resets form no cycle. -/
namespace HyprShelld.Hyprland

section Mirrors
variable {mirrors : QMap QString} {monitors : List MonitorConfiguration}

/-- One managed monitor mirrors another. -/
def Mirrors (monitors : List MonitorConfiguration) (a b : MonitorConfiguration) : Prop :=
  a ∈ monitors ∧ b ∈ monitors ∧ a.mirror ≠ [] ∧ a.mirror = b.selector

/-- No selector is given twice; monitors without a selector are not told apart. -/
def DistinctSelectors (monitors : List MonitorConfiguration) : Prop :=
  ((monitors.filter (!·.selector.isEmpty)).map (·.selector)).Nodup

/-- What a target goes on to. -/
def nextMirror (mirrors : QMap QString) (target : QString) : Option QString :=
  if mirrors.contains target && !(mirrors.value target).isEmpty then some (mirrors.value target) else none

theorem followMirrors_eq (rounds : Nat) (visited : List QString) (target : QString) :
    followMirrors mirrors rounds visited target = chase (nextMirror mirrors) rounds visited target := by
  induction rounds generalizing visited target with
  | zero => rfl
  | succ rounds ih =>
    unfold followMirrors
    split
    · rename_i hnext
      have hsome : Follows (nextMirror mirrors) target (mirrors.value target) := if_pos hnext
      rw [chase_of_some hsome, ih]
    · rename_i hnext
      have hnone : nextMirror mirrors target = none := if_neg hnext
      rw [chase_of_none hnone]

theorem follows_mirror_iff {s t : QString} :
    Follows (nextMirror mirrors) s t ↔ mirrors.lookup s = some t ∧ t ≠ [] := by
  unfold Follows nextMirror QMap.contains QMap.value
  cases mirrors.lookup s with
  | none => simp
  | some u =>
    cases u with
    | nil => simp +contextual
    | cons c u =>
      simp only [Option.isSome_some, Option.getD_some, List.isEmpty_cons, Bool.not_false, Bool.and_true, if_true,
        Option.some_inj, iff_self_and]
      rintro rfl
      exact List.cons_ne_nil c u

theorem nextMirror_key (s t : QString) (h : Follows (nextMirror mirrors) s t) : s ∈ mirrors.keys := by
  rw [← QMap.contains_iff, QMap.contains, (follows_mirror_iff.mp h).1]
  rfl

theorem unvisited_lt_length (m : QMap QString) (visited : List QString) :
    (m.keys.filter (· ∉ visited)).length < m.length + 1 := by
  have hkeys : m.keys.length = m.length := List.length_map _
  exact Nat.lt_succ_of_le (hkeys ▸ List.length_filter_le _ _)

theorem rejectMirrorCycles_errors (index : Nat) :
    (rejectMirrorCycles mirrors index [] monitors).errors = [] ↔ ∀ m ∈ monitors, m.mirror ≠ [] →
      (followMirrors mirrors (mirrors.length + 1) [m.selector] m.mirror).2.2 = false ∧
        (followMirrors mirrors (mirrors.length + 1) [m.selector] m.mirror).2.1 ≠ m.selector := by
  induction monitors generalizing index with
  | nil => simp [rejectMirrorCycles]
  | cons m rest ih =>
    rw [List.forall_mem_cons]
    unfold rejectMirrorCycles
    by_cases hm : m.mirror = []
    · simp [hm, ih]
    · rw [if_neg (by simpa using hm)]
      generalize followMirrors mirrors (mirrors.length + 1) [m.selector] m.mirror = result
      obtain ⟨visited, target, closed⟩ := result
      cases closed with
      | true => simp [hm]
      | false => simp [hm, ih]

theorem monitor_unique (h : DistinctSelectors monitors) {a b : MonitorConfiguration} (ha : a ∈ monitors)
    (hb : b ∈ monitors) (hs : a.selector ≠ []) (he : a.selector = b.selector) : a = b := by
  have hmem {m : MonitorConfiguration} (hm : m ∈ monitors) (hs : m.selector ≠ []) :
      m ∈ monitors.filter (!·.selector.isEmpty) := List.mem_filter.mpr ⟨hm, by simpa using hs⟩
  exact List.inj_on_of_nodup_map h (hmem ha hs) (hmem hb (he ▸ hs)) he

theorem follows_mirror (h : DistinctSelectors monitors) {s t : QString} :
    Follows (nextMirror (monitorMirrors monitors)) s t ↔
      ∃ m ∈ monitors, m.selector = s ∧ m.mirror = t ∧ s ≠ [] ∧ t ≠ [] := by
  have hkeys : (((monitors.filter (!·.selector.isEmpty)).map fun m => (m.selector, m.mirror)).map (·.1)).Nodup := by
    rw [List.map_map]
    exact h
  rw [follows_mirror_iff, monitorMirrors, QMap.lookup_ofList_iff hkeys, List.mem_map]
  constructor
  · rintro ⟨⟨m, hm, he⟩, ht⟩
    cases he
    obtain ⟨hm, hs⟩ := List.mem_filter.mp hm
    exact ⟨m, hm, rfl, rfl, by simpa using hs, ht⟩
  · rintro ⟨m, hm, rfl, rfl, hs, ht⟩
    exact ⟨⟨m, List.mem_filter.mpr ⟨hm, by simpa using hs⟩, rfl⟩, ht⟩

theorem Mirrors.follows (h : DistinctSelectors monitors) {a b : MonitorConfiguration} (hab : Mirrors monitors a b)
    (hb : b.mirror ≠ []) : Follows (nextMirror (monitorMirrors monitors)) a.mirror b.mirror :=
  (follows_mirror h).mpr ⟨b, hab.2.1, hab.2.2.2.symm, rfl, hab.2.2.1, hb⟩

/-- The walk from one record closes or comes back to it exactly when its mirror is on or before a cycle. -/
theorem followMirrors_open (h : DistinctSelectors monitors) {m : MonitorConfiguration} (hm : m ∈ monitors)
    (hmirror : m.mirror ≠ []) :
    (followMirrors (monitorMirrors monitors) ((monitorMirrors monitors).length + 1) [m.selector] m.mirror).2.2 = false ∧
      (followMirrors (monitorMirrors monitors) ((monitorMirrors monitors).length + 1) [m.selector] m.mirror).2.1 ≠
        m.selector ↔ ¬ Cyclic (nextMirror (monitorMirrors monitors)) m.mirror := by
  rw [followMirrors_eq]
  have hself (hs : m.selector ≠ []) : Follows (nextMirror (monitorMirrors monitors)) m.selector m.mirror :=
    (follows_mirror h).mpr ⟨m, hm, rfl, rfl, hs, hmirror⟩
  have hvisited : ∀ v ∈ [m.selector], ∀ y, Follows (nextMirror (monitorMirrors monitors)) v y →
      Relation.TransGen (Follows (nextMirror (monitorMirrors monitors))) v m.mirror := by
    intro v hv y hy
    obtain rfl := List.mem_singleton.mp hv
    obtain ⟨-, -, -, -, hs, -⟩ := (follows_mirror h).mp hy
    exact .single (hself hs)
  rw [← chase_closed_iff nextMirror_key (unvisited_lt_length _ _) hvisited, Bool.not_eq_true, and_iff_left_iff_imp]
  intro hopen htarget
  have hreached := @chase_reaches _ (nextMirror (monitorMirrors monitors)) _ ((monitorMirrors monitors).length + 1)
    [m.selector] m.mirror
  have hends := chase_ends nextMirror_key (unvisited_lt_length _ _) hopen
  rw [htarget] at hreached hends
  have hs : m.selector ≠ [] := by
    rcases hreached.cases_tail with he | ⟨u, -, hu⟩
    · exact he ▸ hmirror
    · exact (follows_mirror_iff.mp hu).2
  cases hends.symm.trans (hself hs)

/-- Two records with one selector cannot be told apart, so with distinct selectors a cycle of
targets is a cycle of records. -/
theorem mirrors_cycle (h : DistinctSelectors monitors) {t : QString}
    (ht : Relation.TransGen (Follows (nextMirror (monitorMirrors monitors))) t t) :
    ReachesTwice (Mirrors monitors) := by
  obtain ⟨u, hu, -⟩ := Relation.TransGen.head'_iff.mp ht
  obtain ⟨m₀, -, -⟩ := (follows_mirror h).mp hu
  have hfind {m : MonitorConfiguration} (hm : m ∈ monitors) (hs : m.selector ≠ []) :
      (monitors.find? (·.selector = m.selector)).getD m₀ = m := by
    obtain ⟨a, ha⟩ : ∃ a, monitors.find? (·.selector = m.selector) = some a :=
      Option.isSome_iff_exists.mp (List.find?_isSome.mpr ⟨m, hm, by simp⟩)
    have hsel : a.selector = m.selector := by simpa using List.find?_some ha
    rw [ha, Option.getD_some, monitor_unique h (List.mem_of_find?_eq_some ha) hm (hsel ▸ hs) hsel]
  refine reachesTwice_iff.mpr ⟨_, transGen_lift_cycle
    (f := fun s => (monitors.find? (·.selector = s)).getD m₀) ?_ ht⟩
  intro a b c hab hbc
  obtain ⟨m, hm, rfl, rfl, hs, ht⟩ := (follows_mirror h).mp hab
  obtain ⟨n, hn, hsel, -, hs', -⟩ := (follows_mirror h).mp hbc
  rw [hfind hm hs, ← hsel, hfind hn (hsel ▸ hs')]
  exact ⟨hm, hn, ht, hsel.symm⟩

/-- With distinct selectors the mirror check reports exactly the lists with a cycle. -/
theorem rejectMirrorCycles_iff (h : DistinctSelectors monitors) :
    (rejectMirrorCycles (monitorMirrors monitors) 0 [] monitors).errors ≠ [] ↔ ReachesTwice (Mirrors monitors) := by
  rw [Ne, rejectMirrorCycles_errors]
  constructor
  · intro herrors
    simp only [not_forall] at herrors
    obtain ⟨m, hm, hmirror, hcyclic⟩ := herrors
    rw [followMirrors_open h hm hmirror, not_not] at hcyclic
    obtain ⟨t, -, ht⟩ := hcyclic
    exact mirrors_cycle h ht
  · intro hcycle hall
    obtain ⟨m, hcycle⟩ := reachesTwice_iff.mp hcycle
    obtain ⟨n, hmn, -⟩ := Relation.TransGen.head'_iff.mp hcycle
    have hcyclic := transGen_lift_cycle (f := (·.mirror)) (q := Follows (nextMirror (monitorMirrors monitors)))
      (fun a b c hab hbc => hab.follows h hbc.2.2.1) hcycle
    exact (followMirrors_open h hmn.1 hmn.2.2.1).mp (hall m hmn.1 hmn.2.2.1) ⟨m.mirror, .refl, hcyclic⟩

end Mirrors

section Resets
variable {reset : QMap QString} {submaps : List SubmapConfiguration}

/-- Leaving one listed submap enters another. -/
def Resets (submaps : List SubmapConfiguration) (a b : SubmapConfiguration) : Prop :=
  a ∈ submaps ∧ b ∈ submaps ∧ isSubmapTarget a.reset = true ∧ a.reset = b.name

def DistinctNames (submaps : List SubmapConfiguration) : Prop := (submaps.map (·.name)).Nodup

/-- What a target goes on to. -/
def nextReset (reset : QMap QString) (target : QString) : Option QString :=
  if isSubmapTarget target && reset.contains target then some (reset.value target) else none

theorem submapCycle_eq (rounds : Nat) (visited : List QString) (target : QString) :
    submapCycle reset rounds visited target = (chase (nextReset reset) rounds visited target).2.2 := by
  induction rounds generalizing visited target with
  | zero => rfl
  | succ rounds ih =>
    unfold submapCycle
    split
    · rename_i hnext
      have hsome : Follows (nextReset reset) target (reset.value target) := if_pos hnext
      rw [chase_of_some hsome, ih]
      split
      · rfl
      · rfl
    · rename_i hnext
      have hnone : nextReset reset target = none := if_neg hnext
      rw [chase_of_none hnone]

theorem follows_reset_iff {s t : QString} :
    Follows (nextReset reset) s t ↔ isSubmapTarget s = true ∧ reset.lookup s = some t := by
  unfold Follows nextReset QMap.contains QMap.value
  cases reset.lookup s with
  | none => simp
  | some u => simp

theorem nextReset_key (s t : QString) (h : Follows (nextReset reset) s t) : s ∈ reset.keys := by
  rw [← QMap.contains_iff, QMap.contains, (follows_reset_iff.mp h).2]
  rfl

theorem submap_unique (h : DistinctNames submaps) {a b : SubmapConfiguration} (ha : a ∈ submaps) (hb : b ∈ submaps)
    (he : a.name = b.name) : a = b := List.inj_on_of_nodup_map h ha hb he

theorem submapReset_iff (h : DistinctNames submaps) {s t : QString} :
    (submapReset submaps).lookup s = some t ↔ ∃ a ∈ submaps, a.name = s ∧ a.reset = t := by
  have hkeys : ((submaps.map fun a => (a.name, a.reset)).map (·.1)).Nodup := by
    rw [List.map_map]
    exact h
  rw [submapReset, QMap.lookup_ofList_iff hkeys, List.mem_map]
  simp only [Prod.mk.injEq]

theorem submapReset_listed (h : DistinctNames submaps) {s : QString} :
    (submapReset submaps).contains s = true ↔ s ∈ submaps.map (·.name) := by
  rw [QMap.contains, Option.isSome_iff_exists, List.mem_map]
  simp only [submapReset_iff h]
  constructor
  · rintro ⟨_, a, ha, hs, -⟩
    exact ⟨a, ha, hs⟩
  · rintro ⟨a, ha, hs⟩
    exact ⟨_, a, ha, hs, rfl⟩

theorem submapEnabled_of_mem (h : DistinctNames submaps) {a : SubmapConfiguration} (ha : a ∈ submaps) :
    (submapEnabled submaps).value a.name = a.enabled := by
  have hkeys : ((submaps.map fun a => (a.name, a.enabled)).map (·.1)).Nodup := by
    rw [List.map_map]
    exact h
  have hlookup : (submapEnabled submaps).lookup a.name = some a.enabled :=
    QMap.lookup_ofList_of_mem hkeys (List.mem_map_of_mem ha)
  rw [QMap.value, hlookup]
  rfl

theorem Resets.follows (h : DistinctNames submaps) {a b : SubmapConfiguration} (hab : Resets submaps a b) :
    Follows (nextReset (submapReset submaps)) a.reset b.reset :=
  follows_reset_iff.mpr ⟨hab.2.2.1, (submapReset_iff h).mpr ⟨b, hab.2.1, hab.2.2.2.symm, rfl⟩⟩

/-- The walk from one submap closes exactly when its target is on or before a cycle. -/
theorem submapCycle_iff (h : DistinctNames submaps) {a : SubmapConfiguration} (ha : a ∈ submaps) :
    submapCycle (submapReset submaps) ((submapReset submaps).length + 1) [a.name] a.reset = true ↔
      Cyclic (nextReset (submapReset submaps)) a.reset := by
  rw [submapCycle_eq]
  refine chase_closed_iff nextReset_key (unvisited_lt_length _ _) fun v hv y hy => ?_
  obtain rfl := List.mem_singleton.mp hv
  obtain ⟨htarget, -⟩ := follows_reset_iff.mp hy
  exact .single (follows_reset_iff.mpr ⟨htarget, (submapReset_iff h).mpr ⟨a, ha, rfl, rfl⟩⟩)

theorem resets_cycle (h : DistinctNames submaps) {t : QString}
    (ht : Relation.TransGen (Follows (nextReset (submapReset submaps))) t t) : ReachesTwice (Resets submaps) := by
  have hrecord {s t : QString} (hst : Follows (nextReset (submapReset submaps)) s t) :
      ∃ a ∈ submaps, a.name = s ∧ a.reset = t := (submapReset_iff h).mp (follows_reset_iff.mp hst).2
  obtain ⟨u, hu, -⟩ := Relation.TransGen.head'_iff.mp ht
  obtain ⟨a₀, -, -⟩ := hrecord hu
  have hfind {a : SubmapConfiguration} (ha : a ∈ submaps) : (submaps.find? (·.name = a.name)).getD a₀ = a := by
    obtain ⟨b, hb⟩ : ∃ b, submaps.find? (·.name = a.name) = some b :=
      Option.isSome_iff_exists.mp (List.find?_isSome.mpr ⟨a, ha, by simp⟩)
    rw [hb, Option.getD_some, submap_unique h (List.mem_of_find?_eq_some hb) ha (by simpa using List.find?_some hb)]
  refine reachesTwice_iff.mpr ⟨_, transGen_lift_cycle (f := fun s => (submaps.find? (·.name = s)).getD a₀) ?_ ht⟩
  intro s t u hst htu
  obtain ⟨a, ha, rfl, rfl⟩ := hrecord hst
  obtain ⟨b, hb, hname, -⟩ := hrecord htu
  rw [hfind ha, ← hname, hfind hb]
  exact ⟨ha, hb, hname ▸ (follows_reset_iff.mp htu).1, hname.symm⟩

theorem reaches_of_cyclic (h : DistinctNames submaps) :
    (∃ a ∈ submaps, Cyclic (nextReset (submapReset submaps)) a.reset) ↔ ReachesTwice (Resets submaps) := by
  constructor
  · rintro ⟨a, -, t, -, ht⟩
    exact resets_cycle h ht
  · intro hcycle
    obtain ⟨a, hcycle⟩ := reachesTwice_iff.mp hcycle
    obtain ⟨b, hab, -⟩ := Relation.TransGen.head'_iff.mp hcycle
    have hcyclic := transGen_lift_cycle (f := (·.reset)) (q := Follows (nextReset (submapReset submaps)))
      (fun a b c hab _ => hab.follows h) hcycle
    exact ⟨a, hab.1, a.reset, .refl, hcyclic⟩

/-- With distinct names the reset check reports exactly the lists with a cycle, an unknown target
or a disabled one. -/
theorem checkSubmapResets_iff (h : DistinctNames submaps) :
    (checkSubmapResets (submapReset submaps) (submapEnabled submaps)).errors ≠ [] ↔
      ReachesTwice (Resets submaps) ∨
      (∃ a ∈ submaps, a.reset ≠ [] ∧ a.reset ≠ qstr "reset" ∧ a.reset ∉ submaps.map (·.name)) ∨
      ∃ a b, Resets submaps a b ∧ a.enabled = true ∧ b.enabled = false := by
  have hentry (s t : QString) : (s, t) ∈ submapReset submaps ↔ ∃ a ∈ submaps, a.name = s ∧ a.reset = t := by
    rw [← submapReset_iff h]
    exact (QMap.lookup_eq_some_iff (QMap.sorted_ofList _)).symm
  have hbad : (checkSubmapResets (submapReset submaps) (submapEnabled submaps)).errors = [] ↔ ∀ a ∈ submaps,
      (isSubmapTarget a.reset && !(submapReset submaps).contains a.reset) = false ∧
      (a.enabled && isSubmapTarget a.reset && (submapReset submaps).contains a.reset &&
        !(submapEnabled submaps).value a.reset) = false ∧
      submapCycle (submapReset submaps) ((submapReset submaps).length + 1) [a.name] a.reset = false := by
    rw [checkSubmapResets, Checked.forEach_errors_iff]
    simp only [Checked.bind_errors, List.append_eq_nil_iff, Checked.rejectIf_errors]
    constructor
    · intro hall a ha
      have he := hall _ ((hentry _ _).mpr ⟨a, ha, rfl, rfl⟩)
      rwa [submapEnabled_of_mem h ha] at he
    · rintro hall ⟨s, t⟩ he
      obtain ⟨a, ha, rfl, rfl⟩ := (hentry s t).mp he
      rw [submapEnabled_of_mem h ha]
      exact hall a ha
  rw [← reaches_of_cyclic h, Ne, hbad]
  constructor
  · intro herrors
    simp only [not_forall] at herrors
    obtain ⟨a, ha, herror⟩ := herrors
    by_cases hcycle : Cyclic (nextReset (submapReset submaps)) a.reset
    · exact .inl ⟨a, ha, hcycle⟩
    by_cases hlisted : a.reset ∈ submaps.map (·.name)
    · obtain ⟨b, hb, hname⟩ := List.mem_map.mp hlisted
      have henabled := submapEnabled_of_mem h hb
      rw [hname] at henabled
      rw [← submapCycle_iff h ha] at hcycle
      simp only [(submapReset_listed h).mpr hlisted, henabled, hcycle] at herror
      refine .inr (.inr ⟨a, b, ⟨ha, hb, ?_, hname.symm⟩, ?_⟩)
      · grind
      · grind
    · refine .inr (.inl ⟨a, ha, ?_⟩)
      have hunlisted : (submapReset submaps).contains a.reset = false :=
        Bool.eq_false_iff.mpr fun hc => hlisted ((submapReset_listed h).mp hc)
      rw [← submapCycle_iff h ha] at hcycle
      simp only [hunlisted, hcycle] at herror
      simp only [isSubmapTarget] at herror
      grind
  · rintro (⟨a, ha, hcycle⟩ | ⟨a, ha, hempty, hreset, hunlisted⟩ | ⟨a, b, hab, henabled, hdisabled⟩) hall
    · exact Bool.noConfusion ((hall a ha).2.2.symm.trans ((submapCycle_iff h ha).mpr hcycle))
    · have hcontains : (submapReset submaps).contains a.reset = false :=
        Bool.eq_false_iff.mpr fun hc => hunlisted ((submapReset_listed h).mp hc)
      have hunknown := (hall a ha).1
      simp [hcontains, isSubmapTarget, hempty, hreset] at hunknown
    · have hcontains : (submapReset submaps).contains a.reset = true :=
        (submapReset_listed h).mpr (List.mem_map.mpr ⟨b, hab.2.1, hab.2.2.2.symm⟩)
      have htarget := (hall a hab.1).2.1
      have hvalue := submapEnabled_of_mem h hab.2.1
      rw [← hab.2.2.2] at hvalue
      simp [hcontains, hvalue, henabled, hdisabled, hab.2.2.1] at htarget

theorem rejectSubmapNames_iff {index : Nat} {seen : List QString} :
    (rejectSubmapNames index seen submaps).errors = [] ↔ DistinctNames submaps ∧
      ∀ a ∈ submaps, a.name ≠ qstr "reset" ∧ a.name ≠ [] ∧ a.name ∉ seen := by
  induction submaps generalizing index seen with
  | nil => simp [rejectSubmapNames, DistinctNames]
  | cons a submaps ih =>
    simp only [rejectSubmapNames, Checked.bind_errors, List.append_eq_nil_iff, Checked.rejectIf_errors,
      Bool.or_eq_false_iff, ih, DistinctNames, List.map_cons, List.nodup_cons, List.forall_mem_cons]
    constructor
    · rintro ⟨⟨hreset, hempty⟩, hseen, hn, hall⟩
      refine ⟨⟨?_, hn⟩, ⟨by simpa using hreset, by simpa using hempty, by simpa using hseen⟩, ?_⟩
      · intro hm
        obtain ⟨b, hb, he⟩ := List.mem_map.mp hm
        exact (hall b hb).2.2 (he ▸ List.mem_cons_self)
      · exact fun b hb => ⟨(hall b hb).1, (hall b hb).2.1, fun hs => (hall b hb).2.2 (List.mem_cons_of_mem _ hs)⟩
    · rintro ⟨⟨hnew, hn⟩, ⟨hreset, hempty, hseen⟩, hall⟩
      refine ⟨⟨by simpa using hreset, by simpa using hempty⟩, by simpa using hseen, hn, fun b hb => ?_⟩
      refine ⟨(hall b hb).1, (hall b hb).2.1, fun hm => ?_⟩
      rcases List.mem_cons.mp hm with he | hm
      · exact hnew (List.mem_map.mpr ⟨b, hb, he⟩)
      · exact (hall b hb).2.2 hm

end Resets

section Verdict

theorem rejectDuplicateIdentities_iff {identities : List QString} {surface key : String} :
    (rejectDuplicateIdentities identities surface key).errors = [] ↔ (identities.filter (!·.isEmpty)).Nodup := by
  rw [rejectDuplicateIdentities, Checked.rejectRepeated_errors_iff, and_iff_left (by simp)]
  have hkeys : (identities.map fun identity => if identity.isEmpty then none else some identity).filterMap id =
      identities.filter (!·.isEmpty) := by
    induction identities with
    | nil => rfl
    | cons identity rest ih => cases identity <;> simp_all
  rw [hkeys]

/-- The checks between monitors: distinct selectors, then no cycle of mirrors. -/
def checkMonitorGraph (monitors : List MonitorConfiguration) : Reads Unit := do
  rejectDuplicateIdentities (monitors.map (·.selector)) "monitors" "selector"
  rejectMirrorCycles (monitorMirrors monitors) 0 [] monitors

/-- The checks between submaps: names, then resets. -/
def checkSubmapGraph (submaps : List SubmapConfiguration) : Reads Unit := do
  rejectSubmapNames 0 [] submaps
  checkSubmapResets (submapReset submaps) (submapEnabled submaps)

theorem checkMonitorGraph_iff {monitors : List MonitorConfiguration} :
    (checkMonitorGraph monitors).errors = [] ↔ DistinctSelectors monitors ∧ ¬ ReachesTwice (Mirrors monitors) := by
  have hdistinct : (rejectDuplicateIdentities (monitors.map (·.selector)) "monitors" "selector").errors = [] ↔
      DistinctSelectors monitors := by
    rw [rejectDuplicateIdentities_iff, DistinctSelectors, List.filter_map]
    rfl
  simp only [checkMonitorGraph, Checked.bind_errors, List.append_eq_nil_iff, hdistinct]
  refine and_congr_right fun h => ?_
  rw [← rejectMirrorCycles_iff h, not_not]

/-- What is reported of submaps with distinct names. -/
def SubmapFault (submaps : List SubmapConfiguration) : Prop :=
  ReachesTwice (Resets submaps) ∨
    (∃ a ∈ submaps, a.reset ≠ [] ∧ a.reset ≠ qstr "reset" ∧ a.reset ∉ submaps.map (·.name)) ∨
    ∃ a b, Resets submaps a b ∧ a.enabled = true ∧ b.enabled = false

theorem checkSubmapGraph_iff {submaps : List SubmapConfiguration} :
    (checkSubmapGraph submaps).errors = [] ↔ DistinctNames submaps ∧
      (∀ a ∈ submaps, a.name ≠ qstr "reset" ∧ a.name ≠ []) ∧ ¬ SubmapFault submaps := by
  simp only [checkSubmapGraph, Checked.bind_errors, List.append_eq_nil_iff, rejectSubmapNames_iff, and_assoc,
    List.not_mem_nil, not_false_iff, and_true]
  refine and_congr_right fun h => and_congr_right fun _ => ?_
  rw [SubmapFault, ← checkSubmapResets_iff h, not_not]

variable {monitors : List MonitorConfiguration} {submaps : List SubmapConfiguration}

/-- More rounds than there are keys change nothing: the walk has ended. -/
theorem followMirrors_rounds {mirrors : QMap QString} {rounds : Nat} (h : mirrors.length < rounds)
    (visited : List QString) (target : QString) :
    followMirrors mirrors rounds visited target = followMirrors mirrors (mirrors.length + 1) visited target := by
  obtain ⟨extra, rfl⟩ := Nat.exists_eq_add_of_le h
  simp only [followMirrors_eq]
  exact chase_rounds nextMirror_key (unvisited_lt_length _ _) extra

theorem submapCycle_rounds {reset : QMap QString} {rounds : Nat} (h : reset.length < rounds)
    (visited : List QString) (target : QString) :
    submapCycle reset rounds visited target = submapCycle reset (reset.length + 1) visited target := by
  obtain ⟨extra, rfl⟩ := Nat.exists_eq_add_of_le h
  simp only [submapCycle_eq]
  exact congrArg (·.2.2) (chase_rounds nextReset_key (unvisited_lt_length _ _) extra)

theorem checkMonitorGraph_perm {other : List MonitorConfiguration} (h : monitors.Perm other) :
    (checkMonitorGraph monitors).errors = [] ↔ (checkMonitorGraph other).errors = [] := by
  have hmirrors : Mirrors monitors = Mirrors other := by
    funext a b
    simp only [Mirrors, h.mem_iff]
  rw [checkMonitorGraph_iff, checkMonitorGraph_iff, hmirrors, DistinctSelectors, DistinctSelectors,
    ((h.filter _).map _).nodup_iff]

theorem checkSubmapGraph_perm {other : List SubmapConfiguration} (h : submaps.Perm other) :
    (checkSubmapGraph submaps).errors = [] ↔ (checkSubmapGraph other).errors = [] := by
  have hresets : Resets submaps = Resets other := by
    funext a b
    simp only [Resets, h.mem_iff]
  simp only [checkSubmapGraph_iff, SubmapFault, DistinctNames, hresets, (h.map _).nodup_iff, (h.map _).mem_iff, h.mem_iff]

/-- The walks end, the verdicts do not depend on the order of the records, and what is reported of
records with distinct names are the cycles and the submap resets that lead nowhere. -/
theorem referenceGraphs_acyclic (monitors : List MonitorConfiguration) (submaps : List SubmapConfiguration) :
    (∀ rounds > (monitorMirrors monitors).length, ∀ visited target,
      followMirrors (monitorMirrors monitors) rounds visited target =
        followMirrors (monitorMirrors monitors) ((monitorMirrors monitors).length + 1) visited target) ∧
    (∀ rounds > (submapReset submaps).length, ∀ visited target,
      submapCycle (submapReset submaps) rounds visited target =
        submapCycle (submapReset submaps) ((submapReset submaps).length + 1) visited target) ∧
    (∀ other, monitors.Perm other →
      ((checkMonitorGraph monitors).errors = [] ↔ (checkMonitorGraph other).errors = [])) ∧
    (∀ other, submaps.Perm other →
      ((checkSubmapGraph submaps).errors = [] ↔ (checkSubmapGraph other).errors = [])) ∧
    (DistinctSelectors monitors → ((rejectMirrorCycles (monitorMirrors monitors) 0 [] monitors).errors ≠ [] ↔
      ReachesTwice (Mirrors monitors))) ∧
    (DistinctNames submaps → ((checkSubmapResets (submapReset submaps) (submapEnabled submaps)).errors ≠ [] ↔
      ReachesTwice (Resets submaps) ∨
      (∃ a ∈ submaps, a.reset ≠ [] ∧ a.reset ≠ qstr "reset" ∧ a.reset ∉ submaps.map (·.name)) ∨
      ∃ a b, Resets submaps a b ∧ a.enabled = true ∧ b.enabled = false)) := by
  refine ⟨?_, ?_, ?_, ?_, rejectMirrorCycles_iff, checkSubmapResets_iff⟩
  · exact fun rounds hrounds => followMirrors_rounds hrounds
  · exact fun rounds hrounds => submapCycle_rounds hrounds
  · exact fun other => checkMonitorGraph_perm
  · exact fun other => checkSubmapGraph_perm

end Verdict

section Sample

/-- A monitor that leads into a cycle of two. -/
def leadMonitor : MonitorConfiguration := { selector := qstr "DP-1", mirror := qstr "DP-2" }
def firstMonitor : MonitorConfiguration := { selector := qstr "DP-2", mirror := qstr "DP-3" }
def secondMonitor : MonitorConfiguration := { selector := qstr "DP-3", mirror := qstr "DP-2" }

/-- A submap that resets to one that is not listed. -/
def strayedSubmap : SubmapConfiguration := { name := qstr "move", reset := qstr "gone" }

theorem referenceGraphs_acyclic_sample :
    (rejectMirrorCycles (monitorMirrors [leadMonitor, firstMonitor, secondMonitor]) 0 []
      [leadMonitor, firstMonitor, secondMonitor]).errors ≠ [] ∧
    (checkSubmapResets (submapReset [strayedSubmap]) (submapEnabled [strayedSubmap])).errors ≠ [] := by
  obtain ⟨-, -, -, -, hmirrors, hresets⟩ :=
    referenceGraphs_acyclic [leadMonitor, firstMonitor, secondMonitor] [strayedSubmap]
  refine ⟨(hmirrors ?_).mpr ⟨leadMonitor, firstMonitor, ?_, ?_⟩, (hresets ?_).mpr (.inr (.inl ?_))⟩
  · unfold DistinctSelectors
    decide
  · exact .single ⟨by simp, by simp, by decide, rfl⟩
  · exact .tail (.single (b := secondMonitor) ⟨by simp, by simp, by decide, rfl⟩) ⟨by simp, by simp, by decide, rfl⟩
  · exact List.nodup_singleton _
  · exact ⟨strayedSubmap, List.mem_cons_self, by decide⟩

end Sample
end HyprShelld.Hyprland
