import HyprShelld.Renderer.Payload

/-! A rendered generation: the files of the managed modules, the entrypoint that loads them,
and the manifest that names their digests. -/
namespace HyprShelld.Compositor
open Hyprland

def currentRendererVersion : Nat := 1
def managedWarningLine : String := "-- Managed by HyprShelld. Manual changes will be overwritten."

/-- An instant, as far as rendering reads it. -/
structure QDateTime where
  isValid : Bool
  /-- The instant in UTC as `yyyy-MM-dd'T'HH:mm:ss.zzz'Z'`. -/
  utcText : QString

structure GeneratedFile where
  path : QString
  contents : QByteArray
  sha256 : QString
  size : Nat
  deriving DecidableEq

structure RenderedGeneration where
  generation : QString
  snapshotDigest : QString
  activationNonce : QString
  createdAt : QString
  entrypoint : QString
  files : QMap GeneratedFile
  manifest : QJsonObject
  manifestBytes : QByteArray
  activationRequirement : ActivationRequirement

variable (p : Platform)

/-- Control, format, line separator or paragraph separator. -/
def isUnsafePathCodePoint (codePoint : Nat) : Bool :=
  isControlOrFormat p codePoint || codePoint = 0x2028 || codePoint = 0x2029

def safeAbsolutePath (path : QString) : Bool :=
  !path.isEmpty && p.isAbsolutePath path && p.cleanPath path = path && isNormalizedC p path &&
    !(toUcs4 path).any (isUnsafePathCodePoint p) && (toUtf8 path).length ≤ 4096

/-- `^[0-9a-f]{32,128}$` -/
def nonceExpression : Pattern := .charset [('0', '9'), ('a', 'f')] 32 (some 128)

/-- The last name of a path. -/
def dirName (path : QString) : QString := (path.reverse.takeWhile (· ≠ unit '/')).reverse

def filePath (root path : QString) : QString :=
  if root.getLast? = some (unit '/') then root ++ path else root ++ unit '/' :: path

def checkPaths (generationRoot userCustomPath activationNonce : QString) : Reads Unit := do
  .rejectIf (!safeAbsolutePath p generationRoot) (issue (qstr "$.generationRoot") "renderer.invalid-path"
    "The immutable generation root must be a clean absolute path.")
  .rejectIf (!safeAbsolutePath p userCustomPath) (issue (qstr "$.userCustomPath") "renderer.invalid-path"
    "The user custom path must be a clean absolute path.")
  .rejectIf (safeAbsolutePath p generationRoot && (userCustomPath = generationRoot ||
      startsWith userCustomPath (generationRoot ++ [unit '/'])))
    (issue (qstr "$.userCustomPath") "renderer.custom-inside-generation"
      "The user-owned custom file must remain outside the immutable generation tree.")
  .rejectIf (!hasMatch nonceExpression activationNonce) (issue (qstr "$.activationNonce") "renderer.invalid-nonce"
    "The activation nonce must be 32 to 128 lowercase hexadecimal characters.")
  .rejectIf (safeAbsolutePath p generationRoot && dirName generationRoot ≠ activationNonce)
    (issue (qstr "$.generationRoot") "renderer.generation-root-mismatch"
      "The immutable generation directory must be keyed by the activation nonce.")

/-- Only what the strict parser makes of the canonical text is rendered. -/
def checkState (state : DesiredState) (catalog : Catalog) (actionCatalog : ActionCatalog) : Reads Unit := do
  let reparsed := parseDesiredState p (serializeDesiredState p state) catalog actionCatalog
  (if !reparsed.ok then .reportAll reparsed.errors
    else .rejectIf (reparsed.value ≠ some state) (issue (qstr "$") "renderer.unvalidated-state"
      "The desired state is not the canonical strict-parser product."))
  .rejectIf (state.readOnly || state.opaqueFutureDocument.isSome) (issue (qstr "$") "renderer.read-only-state"
    "A compatibility-preserved read-only state cannot be rendered.")

def managedHeader (customPath : QString) : QByteArray :=
  bytes managedWarningLine ++ bytes "\n-- Put custom configuration in " ++ toUtf8 customPath ++
    bytes "; it is loaded last.\n\n"

/-- The entrypoint up to the nonce it announces once the compositor runs. -/
def loaderPrologue : List String :=
  ["local function hyprshelld_is_verifier()\n",
    "    local cmdline = io.open(\"/proc/self/cmdline\", \"rb\")\n",
    "    if not cmdline then return true end\n",
    "    local arguments = cmdline:read(\"*a\")\n",
    "    local closed = cmdline:close()\n",
    "    if not arguments or not closed then return true end\n",
    "    if #arguments == 0 or string.byte(arguments, -1) ~= 0 then return true end\n",
    "    local parsed = 0\n",
    "    for argument in string.gmatch(arguments, \"([^%z]+)%z\") do\n",
    "        parsed = parsed + 1\n",
    "        if argument == \"--verify-config\" then return true end\n",
    "    end\n",
    "    return parsed == 0\n",
    "end\n\n",
    "local function hyprshelld_read_bounded(path)\n",
    "    local file = io.open(path, \"rb\")\n",
    "    if not file then return nil end\n",
    "    local bytes = file:read(4097)\n",
    "    local closed = file:close()\n",
    "    if not bytes or not closed or #bytes > 4096 then return nil end\n",
    "    return bytes\n",
    "end\n\n",
    "local function hyprshelld_runtime_ready()\n",
    "    local runtime = os.getenv(\"XDG_RUNTIME_DIR\")\n",
    "    local signature = os.getenv(\"HYPRLAND_INSTANCE_SIGNATURE\")\n",
    "    if not runtime or not signature or #runtime == 0 or #runtime > 4096 then return false end\n",
    "    if string.sub(runtime, 1, 1) ~= \"/\" or string.find(runtime, \"//\", 1, true) then return false end\n",
    "    if #runtime > 1 and string.sub(runtime, -1) == \"/\" then return false end\n",
    "    for part in string.gmatch(runtime, \"[^/]+\") do\n",
    "        if part == \".\" or part == \"..\" then return false end\n",
    "    end\n",
    "    if #signature == 0 or #signature > 192 or signature == \".\" or signature == \"..\" then return false end\n",
    "    if string.find(signature, \"[^A-Za-z0-9_.-]\") then return false end\n",
    "    local stat = hyprshelld_read_bounded(\"/proc/self/stat\")\n",
    "    if not stat then return false end\n",
    "    local pid = string.match(stat, \"^(%d+) %(\")\n",
    "    if not pid or string.sub(pid, 1, 1) == \"0\" then return false end\n",
    "    local lock = hyprshelld_read_bounded(runtime .. \"/hypr/\" .. signature .. \"/hyprland.lock\")\n",
    "    if not lock then return false end\n",
    "    local lock_pid = string.match(lock, \"^(%d+)\\n\")\n",
    "    return lock_pid == pid\n",
    "end\n\n",
    "hl.on(\"config.reloaded\", function()\n",
    "    if hyprshelld_is_verifier() or not hyprshelld_runtime_ready() then return end\n",
    "    hl.dispatch(hl.dsp.event("]

def requireText (path : QString) : QByteArray := bytes "require(" ++ luaString path ++ bytes ")\n"

def loaderText (generationRoot userCustomPath activationNonce : QString) : QByteArray :=
  managedHeader userCustomPath ++ loaderPrologue.flatMap bytes ++
    luaString (qstr "hyprshelld:" ++ activationNonce) ++ bytes "))\nend)\n\n" ++
    modulePaths.flatMap (fun path => requireText (filePath generationRoot path)) ++ requireText userCustomPath

def generatedFile (path : QString) (contents : QByteArray) : GeneratedFile :=
  { path, contents, sha256 := p.sha256 contents, size := contents.length }

def compatibleHyprland (catalog : Catalog) : QJsonObject :=
  .ofList [(qstr "major", integer catalog.hyprland.major), (qstr "minor", integer catalog.hyprland.minor),
    (qstr "reviewedVersion", .string catalog.hyprland.reviewedVersion.toString),
    (qstr "minimumPatch", integer catalog.hyprland.minimumPatch),
    (qstr "maximumPatch", catalog.hyprland.maximumPatch.elim .null fun patch => integer patch)]

def fileEntries (files : QMap GeneratedFile) : QJsonObject :=
  .ofList (files.map fun file => (file.1, .object (QJsonObject.ofList
    [(qstr "sha256", .string file.2.sha256), (qstr "size", integer file.2.size)])))

def entrypointPath : QString := qstr "hyprland.lua"

/-- The modules under the header and the entrypoint. -/
def generationFiles (payload : SemanticLuaPayload) (generationRoot userCustomPath activationNonce : QString) :
    QMap GeneratedFile :=
  let modules : QMap GeneratedFile := payload.moduleBodies.foldl (fun files body =>
    files.insert body.1 (generatedFile p body.1 (managedHeader userCustomPath ++ moduleText body.2))) []
  modules.insert entrypointPath
    (generatedFile p entrypointPath (loaderText generationRoot userCustomPath activationNonce))

def manifestWithoutGeneration (state : DesiredState) (catalog : Catalog) (snapshotDigest activationNonce : QString)
    (createdAt : QString) (files : QMap GeneratedFile) : QJsonObject :=
  .ofList [(qstr "formatVersion", integer 1), (qstr "contractVersion", integer 1),
    (qstr "snapshotDigest", .string snapshotDigest), (qstr "catalogDigest", .string state.catalogDigest),
    (qstr "actionCatalogDigest", .string state.actionCatalogDigest),
    (qstr "revision", .string (decimal state.revision.toNat)),
    (qstr "targetHyprland", .string state.targetHyprland),
    (qstr "compatibleHyprland", .object (compatibleHyprland catalog)),
    (qstr "rendererVersion", integer currentRendererVersion), (qstr "activationNonce", .string activationNonce),
    (qstr "createdAt", .string createdAt), (qstr "entrypoint", .string entrypointPath),
    (qstr "files", .object (fileEntries files))]

def assembleGeneration (state : DesiredState) (catalog : Catalog) (payload : SemanticLuaPayload)
    (generationRoot userCustomPath activationNonce : QString) (createdAtUtc : QDateTime) : RenderedGeneration :=
  let files := generationFiles p payload generationRoot userCustomPath activationNonce
  let snapshotDigest := p.sha256 (serializeDesiredState p state)
  let manifest := manifestWithoutGeneration state catalog snapshotDigest activationNonce createdAtUtc.utcText files
  let generation := p.sha256 (canonicalJson p (.object manifest))
  let named := manifest.insert (qstr "generation") (.string generation)
  { generation, snapshotDigest, activationNonce, createdAt := createdAtUtc.utcText, entrypoint := entrypointPath,
    files, manifest := named, manifestBytes := canonicalJson p (.object named) ++ [0x0a],
    activationRequirement := payload.activationRequirement }

def renderGeneration (state : DesiredState) (catalog : Catalog) (actionCatalog : ActionCatalog)
    (generationRoot userCustomPath activationNonce : QString) (createdAtUtc : QDateTime) :
    ValidationResult RenderedGeneration :=
  let checked : Reads Unit := do
    checkPaths p generationRoot userCustomPath activationNonce
    .rejectIf (!createdAtUtc.isValid) (issue (qstr "$.createdAt") "renderer.invalid-time"
      "A valid UTC creation instant is required.")
    checkState p state catalog actionCatalog
  if checked.errors ≠ [] then ⟨none, checked.errors⟩
  else
    let payload := renderSemanticLuaPayload p state catalog actionCatalog true
    ⟨payload.value.map fun payload =>
      assembleGeneration p state catalog payload generationRoot userCustomPath activationNonce createdAtUtc,
      payload.errors⟩

end HyprShelld.Compositor
