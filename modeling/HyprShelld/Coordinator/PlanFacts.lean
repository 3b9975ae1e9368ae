import HyprShelld.Coordinator.EffectivePlan

/-! Every plan the builder builds can be written, whatever the snapshots hold. -/
namespace HyprShelld.Components
open Json

/-- The settings of the workspace switcher are scalars. -/
theorem nesting_workspaceSwitcherSettings {settings : QJsonObject}
    (h : isValidWorkspaceSwitcherSettings settings = true) : nesting (.object settings) ≤ 1 := by
  simp only [isValidWorkspaceSwitcherSettings, isExactInteger, Bool.and_eq_true] at h
  obtain ⟨⟨⟨⟨⟨⟨⟨hkeys, h1⟩, h2⟩, h3⟩, ⟨⟨⟨h4, _⟩, _⟩, _⟩⟩, h5⟩, h6⟩, _⟩ := h
  have hperm : settings.keys.Perm workspaceSwitcherKeys := List.isPerm_iff.mp hkeys
  have hnodup : (settings.map (·.1)).Nodup := hperm.nodup_iff.mpr (by simp [workspaceSwitcherKeys])
  have hscalar {v : QJsonValue} (hv : v.isBool = true ∨ v.isDouble = true ∨ v.isString = true) : nesting v = 0 := by
    cases v <;> simp_all [QJsonValue.isBool, QJsonValue.isDouble, QJsonValue.isString, nesting]
  have hall : membersNesting settings ≤ 0 := by
    apply membersNesting_le
    intro e he
    obtain ⟨k, v⟩ := e
    have hvalue : settings.value k = v := QJsonObject.value_of_lookup (QJsonObject.lookup_of_nodup hnodup he)
    have hk : k ∈ workspaceSwitcherKeys := hperm.mem_iff.mp (List.mem_map.mpr ⟨(k, v), he, rfl⟩)
    apply le_of_eq
    apply hscalar
    simp only [workspaceSwitcherKeys, List.mem_cons, List.not_mem_nil, or_false] at hk
    rw [← hvalue]
    rcases hk with rfl | rfl | rfl | rfl | rfl | rfl
    · exact .inl h1
    · exact .inl h2
    · exact .inl h3
    · exact .inr (.inl h4)
    · exact .inl h5
    · exact .inr (.inr h6)
  simp only [nesting]
  omega

section Snapshots
variable (number : NumberText)

/-- Text decoded from UTF-8 holds no lone surrogates: what hydration promises of the strings that reach a plan. -/
structure RuntimeCatalogEntry.Textual (entry : RuntimeCatalogEntry) : Prop where
  componentId : IsText entry.componentId
  componentType : IsText entry.componentType
  packageDigest : IsText entry.packageDigest
  runtimeKind : IsText entry.runtimeKind
  factory : IsText entry.factory
  text : ∀ document ∈ entry.declarativeDocument, IsText document.text.value
  tooltip : ∀ document ∈ entry.declarativeDocument, ∀ tooltip ∈ document.tooltip, IsText tooltip

structure RuntimeCatalogSnapshot.Textual (catalog : RuntimeCatalogSnapshot) : Prop where
  catalogDigest : IsText catalog.catalogDigest
  entries : ∀ e ∈ catalog.entries, e.2.Textual

structure RuntimeConfigurationSnapshot.Textual (configuration : RuntimeConfigurationSnapshot) : Prop where
  components : ∀ e ∈ configuration.components, Persistable number (.object e.2.settings)
  instances : ∀ e ∈ configuration.instances, IsText e.1 ∧ Persistable number (.object e.2.settings)
  layouts : ∀ e ∈ configuration.barLayouts, IsText e.1

end Snapshots

section Facts
variable {number : NumberText} {unicode : UnicodeTables}
variable {catalog : RuntimeCatalogSnapshot} {configuration : RuntimeConfigurationSnapshot}

theorem mem_effectiveEntries {layoutId : QString} {ids : List QString} {e : QString × SurfaceInstance} :
    e ∈ effectiveEntries number unicode catalog configuration layoutId ids ↔
      e.1 ∈ ids ∧ effective number unicode catalog configuration layoutId e.1 = some e.2 := by
  obtain ⟨id, i⟩ := e
  simp only [effectiveEntries, List.mem_filterMap, Option.map_eq_some_iff, Prod.mk.injEq]
  constructor
  · rintro ⟨id, hid, i, hi, rfl, rfl⟩
    exact ⟨hid, hi⟩
  · intro h
    exact ⟨id, h.1, i, h.2, rfl, rfl⟩

theorem mem_effectivePlan {e : QString × SurfaceInstance}
    (h : e ∈ (effectivePlan number unicode catalog configuration).instances) :
    ∃ l ∈ configuration.barLayouts, e.1 ∈ l.2.ids ∧
      effective number unicode catalog configuration l.1 e.1 = some e.2 := by
  obtain ⟨l, hl, he⟩ := List.mem_flatMap.mp (QMap.mem_ofList h)
  exact ⟨l, hl, mem_effectiveEntries.mp he⟩

theorem isBuiltinValid_kind {d : RuntimeDesiredVisualInstance} {c : RuntimeDesiredComponent} {entry : RuntimeCatalogEntry}
    (h : isBuiltinValid d c entry = true) :
    entry.runtimeKind = builtinKind ∧ isValidWorkspaceSwitcherSettings d.settings = true := by
  simp only [isBuiltinValid, isExactWorkspaceCatalogEntry, Bool.and_eq_true, decide_eq_true_eq] at h
  exact ⟨h.1.1.2.1.1.1.1.1.2, h.2⟩

theorem isDeclarativeValid_kind {layoutId : QString} {d : RuntimeDesiredVisualInstance} {c : RuntimeDesiredComponent}
    {entry : RuntimeCatalogEntry} (h : isDeclarativeValid number unicode layoutId d c entry = true) :
    entry.runtimeKind = declarativeKind ∧ entry.factory = [] := by
  simp only [isDeclarativeValid, isExactDeclarativeCatalogEntry, Bool.and_eq_true, decide_eq_true_eq] at h
  obtain ⟨⟨⟨⟨⟨⟨⟨⟨⟨⟨⟨⟨_, hkind⟩, hfactory⟩, _⟩, _⟩, _⟩, _⟩, _⟩, _⟩, _⟩, _⟩, _⟩, _⟩ := h
  exact ⟨hkind, hfactory⟩

/-- An instance of a built plan and what it was made of. -/
theorem effective_cases {layoutId instanceId : QString} {i : SurfaceInstance}
    (h : effective number unicode catalog configuration layoutId instanceId = some i) :
    ∃ d c entry, configuration.instances.lookup instanceId = some d ∧
      activePackage catalog configuration d = some (c, entry) ∧
      i = effectiveInstance number unicode layoutId d c entry := by
  simp only [effective, Option.bind_eq_bind, Option.bind_eq_some_iff, Prod.exists, Option.pure_def,
    Option.some.injEq] at h
  obtain ⟨d, hd, c, entry, hp, rfl⟩ := h
  exact ⟨d, c, entry, hd, hp, rfl⟩

theorem activePackage_some {d : RuntimeDesiredVisualInstance} {c : RuntimeDesiredComponent} {entry : RuntimeCatalogEntry}
    (h : activePackage catalog configuration d = some (c, entry)) :
    d.enabled = true ∧ configuration.components.lookup d.componentId = some c ∧
      catalog.entries.lookup d.componentId = some entry ∧ c.enabled = true ∧ c.packageDigest = entry.packageDigest := by
  simp only [activePackage, Option.bind_eq_bind, Option.bind_eq_some_iff, Option.guard_eq_some', exists_const,
    Option.pure_def, Option.some.injEq, Prod.mk.injEq, Bool.and_eq_true, decide_eq_true_eq] at h
  obtain ⟨he, c', hc, entry', hentry, ⟨hen, hdigest⟩, rfl, rfl⟩ := h
  exact ⟨he, hc, hentry, hen, hdigest⟩

theorem effectivePlan_sorted : (effectivePlan number unicode catalog configuration).instances.Sorted :=
  QMap.sorted_ofList _

theorem effectivePlan_layouts_sorted : (effectivePlan number unicode catalog configuration).barLayouts.Sorted :=
  QMap.sorted_ofList _

/-- An effective instance of buildable snapshots is a built-in or a declarative one. -/
theorem Buildable.valid (h : Buildable number unicode catalog configuration)
    {l : QString × RuntimeDesiredBarLayout} (hl : l ∈ configuration.barLayouts) {id : QString} (hid : id ∈ l.2.ids)
    {d : RuntimeDesiredVisualInstance} {c : RuntimeDesiredComponent} {entry : RuntimeCatalogEntry}
    (hd : configuration.instances.lookup id = some d)
    (hp : activePackage catalog configuration d = some (c, entry)) :
    isBuiltinValid d c entry = true ∨ isDeclarativeValid number unicode l.1 d c entry = true := by
  obtain ⟨d', hd', hvalid⟩ := h.placeable l hl id hid
  rw [hd] at hd'
  cases hd'
  simpa using hvalid c entry hp

theorem checkEntries_ok {listedIds : List QString} {entries : QMap RuntimeCatalogEntry}
    (h : checkEntries listedIds entries = .ok ()) : ∀ e ∈ entries, e.1 ∈ listedIds ∧ e.2.componentId = e.1 := by
  induction entries with
  | nil => simp
  | cons e entries ih =>
    obtain ⟨key, entry⟩ := e
    simp only [checkEntries, bind_ok_iff, require_ok_iff, exists_const, Bool.and_eq_true, decide_eq_true_eq,
      List.contains_iff_mem] at h
    intro f hf
    rcases List.mem_cons.mp hf with rfl | hf
    · exact h.1
    · exact ih h.2 f hf

/-- Only the workspace switcher has its identifier. -/
theorem Buildable.foreign (h : Buildable number unicode catalog configuration) :
    ∀ e ∈ (effectivePlan number unicode catalog configuration).instances,
      e.2.runtimeKind ≠ builtinKind → e.2.componentId ≠ workspaceSwitcherId := by
  intro e he hk hid
  obtain ⟨l, hl, hids, hi⟩ := mem_effectivePlan he
  obtain ⟨d, c, entry, hd, hp, heq⟩ := effective_cases hi
  have hentries := h.entries
  simp only [checkRuntimeCatalog, bind_ok_iff, require_ok_iff, exists_const, decide_eq_true_eq] at hentries
  obtain ⟨_, _, _, _, hcheck, hworkspace⟩ := hentries
  obtain ⟨_, _, hentry, _⟩ := activePackage_some hp
  rw [heq] at hid hk
  have hkey : entry.componentId = d.componentId := (checkEntries_ok hcheck _ (QMap.mem_of_lookup hentry)).2
  have hlookup : catalog.entries.lookup workspaceSwitcherId = some entry := by
    rw [← hid, show (effectiveInstance number unicode l.1 d c entry).componentId = entry.componentId from rfl, hkey]
    exact hentry
  rw [hlookup, Option.any_some, isExactWorkspaceCatalogEntry] at hworkspace
  simp only [Bool.and_eq_true, decide_eq_true_eq] at hworkspace
  exact hk hworkspace.1.1.1.1.1.2

theorem canonical_effectiveInstance {layoutId : QString} {d : RuntimeDesiredVisualInstance} {c : RuntimeDesiredComponent}
    {entry : RuntimeCatalogEntry}
    (h : isBuiltinValid d c entry = true ∨ isDeclarativeValid number unicode layoutId d c entry = true) :
    (effectiveInstance number unicode layoutId d c entry).Canonical := by
  constructor
  · intro hk
    have hnot : isDeclarativeValid number unicode layoutId d c entry = false := by
      by_contra hd
      have hd := isDeclarativeValid_kind (Bool.eq_true_of_not_eq_false hd)
      exact builtinKind_ne_declarativeKind (hk.symm.trans hd.1)
    simp [effectiveInstance, hnot]
  · intro hk
    rcases h with h | h
    · exact absurd (isBuiltinValid_kind h).1 hk
    · exact (isDeclarativeValid_kind h).2

theorem Buildable.canonical (h : Buildable number unicode catalog configuration) :
    ∀ e ∈ (effectivePlan number unicode catalog configuration).instances, e.2.Canonical := by
  intro e he
  obtain ⟨l, hl, hid, hi⟩ := mem_effectivePlan he
  obtain ⟨d, c, entry, hd, hp, heq⟩ := effective_cases hi
  rw [heq]
  exact canonical_effectiveInstance (h.valid hl hid hd hp)

theorem resolveDeclarativeText_text {c : RuntimeDesiredComponent} {entry : RuntimeCatalogEntry} {text : QString}
    (hentry : entry.Textual) (hc : Persistable number (.object c.settings))
    (h : resolveDeclarativeText unicode entry c = some text) : IsText text := by
  simp only [resolveDeclarativeText, Option.bind_eq_bind, Option.bind_eq_some_iff] at h
  obtain ⟨document, hdocument, h⟩ := h
  split at h
  · simp only [Option.bind_some] at h
    split_ifs at h
    cases h
    exact hentry.text document hdocument
  · split_ifs at h with hs
    · simp only [Option.bind_some] at h
      split_ifs at h
      cases h
      generalize hv : QJsonObject.value c.settings document.text.value = v at hs ⊢
      cases v <;> try cases hs
      have hl := QJsonObject.lookup_of_value hv (by simp)
      exact (validMembers_iff.mp hc.2 _ (QJsonObject.mem_of_lookup_eq_some hl)).2
    · cases h

private theorem isText_getD {o : Option QString} (h : ∀ s ∈ o, IsText s) : IsText (o.getD []) := by
  cases o with
  | none => exact isText_nil
  | some s => exact h s rfl

theorem persistable_empty : Persistable number (.object []) := ⟨List.Pairwise.nil, trivial⟩

theorem textual_effectiveInstance {layoutId : QString} {d : RuntimeDesiredVisualInstance} {c : RuntimeDesiredComponent}
    {entry : RuntimeCatalogEntry} (hentry : entry.Textual) (hc : Persistable number (.object c.settings))
    (hd : Persistable number (.object d.settings)) :
    (effectiveInstance number unicode layoutId d c entry).Textual number where
  componentId := hentry.componentId
  componentType := hentry.componentType
  packageDigest := hentry.packageDigest
  runtimeKind := hentry.runtimeKind
  factory := hentry.factory
  declarativeText := by
    simp only [effectiveInstance]
    split_ifs
    · exact isText_getD fun text ht => resolveDeclarativeText_text hentry hc ht
    · exact isText_nil
  declarativeTooltip := by
    simp only [effectiveInstance]
    split_ifs
    · apply isText_getD
      intro tooltip ht
      obtain ⟨document, hdocument, ht⟩ := Option.mem_bind_iff.mp ht
      exact hentry.tooltip document hdocument tooltip ht
    · exact isText_nil
  settings := by
    simp only [effectiveInstance]
    split_ifs
    · exact hd
    · exact persistable_empty
  flat := by
    simp only [effectiveInstance]
    split_ifs with hb
    · exact nesting_workspaceSwitcherSettings (isBuiltinValid_kind hb).2
    · decide

/-- Built plans are textual when the snapshots are. -/
theorem Buildable.textual (h : Buildable number unicode catalog configuration) (hcatalog : catalog.Textual)
    (hconfiguration : configuration.Textual number) :
    (effectivePlan number unicode catalog configuration).Textual number where
  catalogDigest := hcatalog.catalogDigest
  instances := by
    intro e he
    obtain ⟨l, hl, hid, hi⟩ := mem_effectivePlan he
    obtain ⟨d, c, entry, hd, hp, heq⟩ := effective_cases hi
    obtain ⟨_, hc, hentry, _⟩ := activePackage_some hp
    have hinstance := hconfiguration.instances _ (QMap.mem_of_lookup hd)
    refine ⟨hinstance.1, ?_⟩
    rw [heq]
    exact textual_effectiveInstance (hcatalog.entries _ (QMap.mem_of_lookup hentry))
      (hconfiguration.components _ (QMap.mem_of_lookup hc)) hinstance.2
  layouts := by
    intro e he
    obtain ⟨l, hl, rfl⟩ := List.mem_map.mp (QMap.mem_ofList he)
    have hids : ∀ id ∈ l.2.ids, IsText id := by
      intro id hid
      obtain ⟨d, hd, _⟩ := h.placeable l hl id hid
      exact (hconfiguration.instances _ (QMap.mem_of_lookup hd)).1
    have hkeep {ids : List QString} (hs : ∀ id ∈ ids, id ∈ l.2.ids) :
        ∀ id ∈ effectiveIds number unicode catalog configuration l.1 ids, IsText id :=
      fun id hid => hids id (hs id (List.mem_filter.mp hid).1)
    refine ⟨hconfiguration.layouts l hl, ?_, hkeep ?_, hkeep ?_, hkeep ?_⟩
    · show IsText l.2.outputMode
      rw [h.outputs l hl]
      exact isText_qstr _
    all_goals
      intro id hid
      simp [RuntimeDesiredBarLayout.ids, hid]

end Facts
end HyprShelld.Components
