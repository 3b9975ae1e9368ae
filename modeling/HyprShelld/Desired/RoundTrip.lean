import HyprShelld.Desired.RootTrip
import HyprShelld.Hyprland.DefaultChords
import HyprShelld.Json.ExactDecimal

/-! The desired-state codec is exact: what was accepted is written in a form that is accepted
again and gives the same state. -/
namespace HyprShelld.Hyprland
open Json

section Exact
variable {p : Platform} {catalog : Catalog} {actionCatalog : ActionCatalog}

theorem parseRoot_eq {root : QJsonObject} {state : DesiredState}
    (h : (parseRoot p catalog actionCatalog root).value = some state) :
    parseRoot p catalog actionCatalog root = ⟨some state, []⟩ := by
  obtain ⟨herrors, hvalue⟩ := Checked.result_value.mp h
  unfold parseRoot
  rw [Checked.result, if_pos herrors, hvalue, herrors]

/-- An accepted document, seen through the object it held. -/
theorem parsed_root {bytes : QByteArray} {state : DesiredState}
    (h : (parseDesiredStateForAuthorities p bytes catalog actionCatalog).value = some state) :
    ∃ root, Components.Persistable p.number (.object root) ∧
      (nesting (.object root) : Int) ≤ maximumDesiredStateDepth ∧ stateObject state = root ∧
      parseRoot p catalog actionCatalog root = ⟨some state, []⟩ := by
  unfold parseDesiredStateForAuthorities at h
  simp only [] at h
  split at h
  · rename_i root hroot
    obtain ⟨hv, hd⟩ := Components.parseStrictJsonObject_sound hroot
    exact ⟨root, hv, hd, stateObject_parseRoot hv h, parseRoot_eq h⟩
  · cases h

/-- A document that can be persisted is parsed from its durable form. -/
theorem parse_canonicalJson {root : QJsonObject} (hv : Components.Persistable p.number (.object root))
    (hd : nesting (.object root) ≤ maximumDesiredStateDepth)
    (hsize : (canonicalJson p (.object root) ++ [0x0a]).length ≤ maximumDesiredStateBytes) :
    parseDesiredStateForAuthorities p (canonicalJson p (.object root) ++ [0x0a]) catalog actionCatalog =
      parseRoot p catalog actionCatalog root := by
  have hparsed : parseStrictObject p (canonicalJson p (.object root) ++ [0x0a]) maximumDesiredStateBytes
      maximumDesiredStateDepth = ⟨some root, []⟩ :=
    Components.parseStrictJsonObject_compactJson _ hv (Int.ofNat_le.mpr hd) (Int.ofNat_le.mpr hsize)
  unfold parseDesiredStateForAuthorities
  rw [hparsed]

/-- The durable form of an accepted state is read back as that state. -/
theorem parse_serialize {bytes : QByteArray} {state : DesiredState}
    (h : (parseDesiredStateForAuthorities p bytes catalog actionCatalog).value = some state)
    (hsize : (serializeDesiredState p state).length ≤ maximumDesiredStateBytes) :
    parseDesiredStateForAuthorities p (serializeDesiredState p state) catalog actionCatalog =
      ⟨some state, []⟩ := by
  obtain ⟨root, hv, hd, hobject, hroot⟩ := parsed_root h
  unfold serializeDesiredState at hsize ⊢
  rw [hobject] at hsize ⊢
  rw [parse_canonicalJson hv (by exact_mod_cast hd) hsize, hroot]

theorem authorities_of_parse {bytes : QByteArray} {state : DesiredState}
    (h : (parseDesiredState p bytes catalog actionCatalog).value = some state) :
    (validateActiveV1Authorities catalog actionCatalog).errors = [] ∧
      (parseDesiredStateForAuthorities p bytes catalog actionCatalog).value = some state := by
  unfold parseDesiredState at h
  simp only [] at h
  split_ifs at h with he
  exact ⟨he, h⟩

theorem parseDesiredState_of_authorities {bytes : QByteArray}
    (h : (validateActiveV1Authorities catalog actionCatalog).errors = []) :
    parseDesiredState p bytes catalog actionCatalog =
      parseDesiredStateForAuthorities p bytes catalog actionCatalog := by
  simp [parseDesiredState, h]

/-- A state is refused with an error. -/
theorem parseDesiredState_errors {bytes : QByteArray}
    (h : (parseDesiredState p bytes catalog actionCatalog).value = none) :
    (parseDesiredState p bytes catalog actionCatalog).errors ≠ [] := by
  revert h
  unfold parseDesiredState
  simp only []
  split_ifs with he
  · intro h
    unfold parseDesiredStateForAuthorities at h ⊢
    simp only [] at h ⊢
    split at h
    · exact Checked.result_errors h
    · rename_i hnone
      exact Components.parseStrictJsonObject_errors hnone
  · simp [he]

/-- The desired-state codec is an exact round trip, and its canonical form is a fixed point. -/
theorem desiredStateCodec_exact (p : Platform) (catalog : Catalog) (actionCatalog : ActionCatalog)
    (bytes : QByteArray) (state : DesiredState)
    (h : (parseDesiredState p bytes catalog actionCatalog).value = some state)
    (hsize : (serializeDesiredState p state).length ≤ maximumDesiredStateBytes) :
    parseDesiredState p (serializeDesiredState p state) catalog actionCatalog = ⟨some state, []⟩ ∧
      ∀ again, (parseDesiredState p (serializeDesiredState p state) catalog actionCatalog).value = some again →
        serializeDesiredState p again = serializeDesiredState p state := by
  obtain ⟨hauthorities, hparsed⟩ := authorities_of_parse h
  have hback : parseDesiredState p (serializeDesiredState p state) catalog actionCatalog = ⟨some state, []⟩ := by
    rw [parseDesiredState_of_authorities hauthorities]
    exact parse_serialize hparsed hsize
  refine ⟨hback, ?_⟩
  intro again hagain
  rw [hback] at hagain
  cases hagain
  rfl

end Exact

section Evaluated
variable (p : Platform) (catalog : Catalog) (actionCatalog : ActionCatalog) (state : DesiredState)

/-- What is evaluated of a state to read its durable form back: at once, so that its literals are
read once. -/
structure Evaluated : Prop where
  authorities : (validateActiveV1Authorities catalog actionCatalog).errors = []
  persistable : Components.Persistable p.number (.object (stateObject state))
  depth : nesting (.object (stateObject state)) ≤ maximumDesiredStateDepth
  size : (serializeDesiredState p state).length ≤ maximumDesiredStateBytes
  root : (parseRoot p catalog actionCatalog (stateObject state)).value = some state

instance : Decidable (Evaluated p catalog actionCatalog state) :=
  decidable_of_iff ((validateActiveV1Authorities catalog actionCatalog).errors = [] ∧
    Components.Persistable p.number (.object (stateObject state)) ∧
    nesting (.object (stateObject state)) ≤ maximumDesiredStateDepth ∧
    (serializeDesiredState p state).length ≤ maximumDesiredStateBytes ∧
    (parseRoot p catalog actionCatalog (stateObject state)).value = some state)
    ⟨fun ⟨a, b, c, d, e⟩ => ⟨a, b, c, d, e⟩, fun ⟨a, b, c, d, e⟩ => ⟨a, b, c, d, e⟩⟩

variable {p catalog actionCatalog state} in
theorem Evaluated.parsed (h : Evaluated p catalog actionCatalog state) :
    parseDesiredState p (serializeDesiredState p state) catalog actionCatalog = ⟨some state, []⟩ := by
  rw [parseDesiredState_of_authorities h.authorities, serializeDesiredState, parse_canonicalJson h.persistable h.depth h.size,
    parseRoot_eq h.root]

end Evaluated

section Sample

def asciiLower (b : UInt8) : UInt8 := if 0x41 ≤ b.toNat ∧ b.toNat ≤ 0x5a then b + 0x20 else b

/-- Some keysyms by name. -/
def plainKeysyms : List (QByteArray × Nat) :=
  (List.range 26).map (fun i => ([UInt8.ofNat (0x61 + i)], 0x61 + i)) ++
    (List.range 10).map (fun i => ([UInt8.ofNat (0x30 + i)], 0x30 + i)) ++
    [("Left", 0xff51), ("Up", 0xff52), ("Right", 0xff53), ("Down", 0xff54), ("minus", 0x2d),
      ("equal", 0x3d)].map fun k => (toUtf8 (qstr k.1), k.2)

/-- A platform that is right about plain ASCII text. -/
def plainPlatform : Platform where
  unicode := { isControlOrFormat := fun c => c < 0x20 || (0x7f ≤ c && c < 0xa0), normalizationFormC := id }
  toUpper := List.map asciiUpper
  number := exactDecimal
  matchesPattern := fun _ _ => true
  re2Compiles := fun _ => true
  keysymFromName := fun name =>
    (plainKeysyms.find? fun k => k.1.map asciiLower = name.map asciiLower).map (·.2)
  keysymGetName := fun symbol => (plainKeysyms.find? (·.2 = symbol)).map (·.1)
  sha256 := fun _ => []
  generalNumber := fun number => toUtf8 (exactDecimal.printDouble number)
  overflowInt64 := fun _ => Int64.minValue
  isAbsolutePath := fun path => startsWith path (qstr "/")
  cleanPath := id
  control := by simp +contextual

def sampleCatalog : Catalog where
  hyprland := {
    minor := 56
    reviewedVersion := reviewedVersionV1
    reviewedTag := qstr "v0.56.1"
    reviewedCommit := reviewedCommitV1 }
  complexSurfaces := requiredSurfaces.map fun id => { id := id }
  digest := reviewedCatalogDigest
  options := [{
    id := qstr "hyprland.general.gaps_in"
    path := qstr "general:gaps_in"
    type := .integer
    defaultValue := integer 5 }]

def sampleActionCatalog : ActionCatalog where
  reviewedVersion := reviewedVersionV1
  reviewedTag := qstr "v0.56.1"
  reviewedCommit := reviewedCommitV1
  digest := reviewedActionCatalogDigest
  dispatcherActions := [{ id := qstr "window.kill", payloadContract := some { acceptedTypes := [.object] } }]

def sampleState : DesiredState where
  revision := 7
  targetHyprland := qstr "0.56.1"
  catalogDigest := reviewedCatalogDigest
  actionCatalogDigest := reviewedActionCatalogDigest
  overrides := [(qstr "hyprland.general.gaps_in", integer 8)]
  curves := [{ id := qstr "c1", name := qstr "quick", parameters := .spring { stiffness := 2 } }]
  environment := [{ id := qstr "e1", name := qstr "TERM", value := qstr "foot", scope := .uwsm }]

theorem sampleState_evaluated : Evaluated plainPlatform sampleCatalog sampleActionCatalog sampleState := by decide +kernel

theorem sampleState_parsed :
    (parseDesiredState plainPlatform (serializeDesiredState plainPlatform sampleState) sampleCatalog
      sampleActionCatalog).value = some sampleState := congrArg ValidationResult.value sampleState_evaluated.parsed

theorem desiredStateCodec_exact_sample :
    parseDesiredState plainPlatform (serializeDesiredState plainPlatform sampleState) sampleCatalog
      sampleActionCatalog = ⟨some sampleState, []⟩ :=
  (desiredStateCodec_exact plainPlatform sampleCatalog sampleActionCatalog _ sampleState sampleState_parsed
    sampleState_evaluated.size).1

end Sample

end HyprShelld.Hyprland
