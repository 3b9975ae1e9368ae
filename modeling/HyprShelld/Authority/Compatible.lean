import HyprShelld.Desired.RoundTrip

/-! Desired states of the reviewed lineages: read under the authorities they were written for, and
taken to the current ones. -/
namespace HyprShelld.Compositor
open Hyprland

def preSharedSpacingActionCatalogDigest : QString :=
  qstr "72e063a5476308cefdd2771367ffeed9a8e553b3a2d7141f4e08c3e105a5deb2"
def sharedSpacingActionCatalogDigest : QString :=
  qstr "1438f04a169b4ecfc945078403d6286154bc89a0e32cb3a1a5073d209e0c358b"
def sharedSpacingConfigSchemaDigest : QString :=
  qstr "75e299cc9f5d3a3289450df089cad4aa22efd26ba2f11fbbf27d46f78b898202"
def preDeviceQuarantineCatalogDigest : QString :=
  qstr "0232f9b036849e2b9423d5960dd32f22001c79b5b6b6696330f481d1d0c657e0"
def deviceQuarantineCatalogDigest : QString :=
  qstr "10d6c8bfd757407e93ebb379afb7f29df89dacd2a75936ab3d2cbe873d539388"
def bindingsQuarantineCatalogDigest : QString :=
  qstr "402c8a8c570dd3760d4d7bea8c358c7f12021a7c51457e62a4771d69a581254b"

variable (p : Platform) (catalog : Catalog) (actions : ActionCatalog)

def acceptsPreSharedSpacingAuthority : Bool :=
  actionCatalogDigest actions = sharedSpacingActionCatalogDigest &&
    actions.configSchemaDigest = sharedSpacingConfigSchemaDigest

def acceptsBindingsQuarantineAuthority : Bool := catalogDigest p catalog = bindingsQuarantineCatalogDigest

/-- The reviewed authorities before the current ones. -/
structure Lineage where
  preSharedSpacingAuthority : Bool := false
  preDeviceQuarantineAuthority : Bool := false
  preBindingsQuarantineAuthority : Bool := false

def Lineage.migrates (lineage : Lineage) : Bool :=
  lineage.preSharedSpacingAuthority || lineage.preDeviceQuarantineAuthority || lineage.preBindingsQuarantineAuthority

structure CompatibleDesiredState extends Lineage where
  state : DesiredState

/-- The lineage of the two stored digests; none where it was not reviewed. -/
def storedLineage (storedCatalogDigest storedActionCatalogDigest : QString) : Option Lineage :=
  let preDeviceQuarantineAuthority :=
    acceptsBindingsQuarantineAuthority p catalog && storedCatalogDigest = preDeviceQuarantineCatalogDigest
  let preBindingsQuarantineAuthority :=
    acceptsBindingsQuarantineAuthority p catalog && storedCatalogDigest = deviceQuarantineCatalogDigest
  let currentCatalogAuthority := storedCatalogDigest = catalogDigest p catalog
  let preSharedSpacingAuthority :=
    acceptsPreSharedSpacingAuthority actions && storedActionCatalogDigest = preSharedSpacingActionCatalogDigest
  let currentActionAuthority := storedActionCatalogDigest = actionCatalogDigest actions
  if !preDeviceQuarantineAuthority && !preBindingsQuarantineAuthority && !currentCatalogAuthority then none
  else if !preSharedSpacingAuthority && !currentActionAuthority then none
  else if !preDeviceQuarantineAuthority && !preBindingsQuarantineAuthority && !preSharedSpacingAuthority then none
  else some { preSharedSpacingAuthority, preDeviceQuarantineAuthority, preBindingsQuarantineAuthority }

def isProtectedRule (rule : WorkspaceRule) : Bool :=
  rule.id = sharedSpacingWorkspaceRuleId || rule.selector = sharedSpacingWorkspaceRuleSelector

/-- The state of an earlier lineage, which the bytes spell exactly. -/
def parseLegacyDesiredState (bytes : QByteArray) (root : QJsonObject) : Option CompatibleDesiredState := do
  let storedCatalogDigest := (root.value (qstr "catalogDigest")).toString
  let storedActionCatalogDigest := (root.value (qstr "actionCatalogDigest")).toString
  let lineage ← storedLineage p catalog actions storedCatalogDigest storedActionCatalogDigest
  let migratedObject := (root.insert (qstr "catalogDigest") (.string (catalogDigest p catalog))).insert
    (qstr "actionCatalogDigest") (.string (actionCatalogDigest actions))
  let migrated := parseDesiredState p (canonicalJson p (.object migratedObject) ++ [0x0a]) catalog actions
  guard migrated.ok
  let state ← migrated.value
  guard (state.readOnly = false)
  guard (lineage.preSharedSpacingAuthority = true → state.workspaceRules.all (!isProtectedRule ·))
  let legacyState : DesiredState :=
    { state with catalogDigest := storedCatalogDigest, actionCatalogDigest := storedActionCatalogDigest }
  guard (serializeDesiredState p legacyState = bytes)
  return { toLineage := lineage, state := legacyState }

def parseCompatibleDesiredState (bytes : QByteArray) : Option CompatibleDesiredState :=
  let current := parseDesiredState p bytes catalog actions
  match current.value.filter fun state => current.ok && serializeDesiredState p state = bytes with
  | some state => some { state }
  | none =>
    let object := parseStrictObject p bytes maximumDesiredStateBytes 64
    (object.value.filter fun _ => object.ok).bind (parseLegacyDesiredState p catalog actions bytes)

def currentAuthorityState (stored : CompatibleDesiredState) : Option DesiredState :=
  if !stored.migrates then some stored.state
  else
    let current : DesiredState := { stored.state with
      catalogDigest := catalogDigest p catalog, actionCatalogDigest := actionCatalogDigest actions }
    let verified := parseDesiredState p (serializeDesiredState p current) catalog actions
    if verified.ok && verified.value = some current then some current else none

end HyprShelld.Compositor
