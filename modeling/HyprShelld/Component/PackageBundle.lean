import HyprShelld.Component.PackagePath
import HyprShelld.Json.Reader
import HyprShelld.Support.Bytes
import HyprShelld.Support.Except

/-! Package bundles: a count, then for every file the length of its path, the path, the length of
its contents and the contents. -/
namespace HyprShelld.Components

structure ComponentPackageBundleFile where
  path : QString
  contents : QByteArray
  deriving DecidableEq

section Writer
variable (text : PackageText)

/-- The checks on the next file, in the order the source makes them; the difference cannot wrap
once the size of the file is checked. -/
def admitsFile (previous : QString) (owners : List QString) (total : Nat) (file : ComponentPackageBundleFile) :
    Except QString Unit := do
  require (isCanonicalPackageFilePath text file.path && isAllowedComponentPackageFilePath file.path &&
      (previous.isEmpty || utf16Less previous file.path) && file.contents.length ≤ maximumComponentFileBytes &&
      total ≤ maximumComponentExpandedBytes - file.contents.length)
    (qstr "The package bundle violates path, order, or size limits.")
  require (!owners.contains (text.toCaseFolded file.path))
    (qstr "Package bundle paths collide after case folding.")

def validateFilesFrom : QString → List QString → Nat → List ComponentPackageBundleFile → Except QString Unit
  | _, _, _, [] => pure ()
  | previous, owners, total, file :: rest => do
    admitsFile text previous owners total file
    validateFilesFrom file.path (text.toCaseFolded file.path :: owners) (total + file.contents.length) rest

def validateFiles (files : List ComponentPackageBundleFile) : Except QString Unit := do
  require (2 ≤ files.length && files.length ≤ maximumComponentArchiveEntries)
    (qstr "A package bundle must contain two to 512 files.")
  validateFilesFrom text [] [] 0 files

/-- Append to a device that takes only some contents. -/
def writeAll (takes : QByteArray → Bool) (written bytes : QByteArray) (error : QString) : Except QString QByteArray :=
  if takes (written ++ bytes) then .ok (written ++ bytes) else .error error

/-- The lengths are narrowed to the widths of their fields. -/
def writeFile (takes : QByteArray → Bool) (written : QByteArray) (file : ComponentPackageBundleFile) :
    Except QString QByteArray := do
  let error := qstr "Cannot write the package bundle."
  let path := toUtf8 file.path
  let written ← writeAll takes written (bigEndian 2 path.length) error
  let written ← writeAll takes written path error
  let written ← writeAll takes written (bigEndian 8 file.contents.length) error
  writeAll takes written file.contents error

def writeComponentPackageBundle (takes : QByteArray → Bool) (files : List ComponentPackageBundleFile) :
    Except QString QByteArray := do
  validateFiles text files
  let header ← writeAll takes [] (bigEndian 4 files.length) (qstr "Cannot write the package bundle header.")
  files.foldlM (writeFile takes) header

end Writer

section Reader
variable (text : PackageText)

/-- Why a bundle is not read: an error of the reader, or arithmetic that would have wrapped. -/
inductive BundleFailure where
  | refused (error : ValidationError)
  | wrapped

def refuse (path : QString) (code message : String) : BundleFailure := .refused (issue path code message)

/-- The limit of qsizetype. -/
def maximumQSizeType : Nat := 2 ^ 63 - 1

/-- One file of the loop, after the files whose paths and total are given. -/
def readBundleFile (index : Nat) (previousPath : QString) (collisionOwners : List QString) (totalSize : Nat)
    (source : QByteArray) : Except BundleFailure (ComponentPackageBundleFile × Nat × QByteArray) := do
  let filePath := Json.elementPath (qstr "$.files") index
  let sized := refuse (filePath ++ qstr ".path") "package-bundle.invalid-path-size" "The bundle path length is invalid."
  let (pathSize, source) ← orError (readBigEndian 2 source) sized
  require (pathSize ≠ 0 && pathSize ≤ 255) sized
  let (encodedPath, source) ← orError (readExact pathSize source)
    (refuse (filePath ++ qstr ".path") "package-bundle.truncated-path" "The bundle ended inside a path.")
  let path := fromUtf8 encodedPath
  require (toUtf8 path = encodedPath && isCanonicalPackageFilePath text path &&
      isAllowedComponentPackageFilePath path && (previousPath.isEmpty || utf16Less previousPath path))
    (refuse (filePath ++ qstr ".path") "package-bundle.invalid-path" "Bundle paths must be safe, sorted, and unique.")
  require (!collisionOwners.contains (text.toCaseFolded path))
    (refuse (filePath ++ qstr ".path") "package-bundle.colliding-path" "Bundle paths collide after case folding.")
  let oversized := refuse (filePath ++ qstr ".size") "package-bundle.invalid-size"
    "A bundled file exceeds the package limits."
  let (fileSize, source) ← orError (readBigEndian 8 source) oversized
  require (fileSize ≤ maximumComponentFileBytes) oversized
  let room ← orError (subWithin maximumComponentExpandedBytes fileSize) .wrapped
  require (totalSize ≤ room && fileSize ≤ maximumQSizeType) oversized
  let (contents, source) ← orError (readExact fileSize source)
    (refuse filePath "package-bundle.truncated-file" "The bundle ended inside a file.")
  let totalSize ← orError (addWithin 64 totalSize fileSize) .wrapped
  return (⟨path, contents⟩, totalSize, source)

def readBundleFiles : Nat → Nat → QString → List QString → Nat → QByteArray →
    Except BundleFailure (List ComponentPackageBundleFile × QByteArray)
  | 0, _, _, _, _, source => pure ([], source)
  | count + 1, index, previousPath, collisionOwners, totalSize, source => do
    let (file, totalSize, source) ← readBundleFile text index previousPath collisionOwners totalSize source
    let next ← orError (addWithin 32 index 1) .wrapped
    let (files, source) ← readBundleFiles count next file.path (text.toCaseFolded file.path :: collisionOwners)
      totalSize source
    return (file :: files, source)

def readComponentPackageBundle (source : QByteArray) : Except BundleFailure (List ComponentPackageBundleFile) := do
  let counted := refuse (qstr "$") "package-bundle.invalid-count" "The bundle file count is missing or out of range."
  let (count, source) ← orError (readBigEndian 4 source) counted
  require (2 ≤ count && count ≤ maximumComponentArchiveEntries) counted
  let (files, source) ← readBundleFiles text count 0 [] [] 0 source
  require source.isEmpty
    (refuse (qstr "$") "package-bundle.trailing-data" "Unexpected bytes follow the package bundle.")
  return files

end Reader

section Exact
variable {text : PackageText}

/-- The bytes of one file. -/
def encodeFile (file : ComponentPackageBundleFile) : QByteArray :=
  bigEndian 2 (toUtf8 file.path).length ++ toUtf8 file.path ++ bigEndian 8 file.contents.length ++ file.contents

def encodeBundle (files : List ComponentPackageBundleFile) : QByteArray :=
  bigEndian 4 files.length ++ files.flatMap encodeFile

/-- What both sides ask of a file after others. -/
structure Admitted (text : PackageText) (previous : QString) (owners : List QString) (total : Nat)
    (file : ComponentPackageBundleFile) : Prop where
  canonical : isCanonicalPackageFilePath text file.path = true
  allowed : isAllowedComponentPackageFilePath file.path = true
  later : previous = [] ∨ utf16Less previous file.path = true
  size : file.contents.length ≤ maximumComponentFileBytes
  room : total ≤ maximumComponentExpandedBytes - file.contents.length
  alone : text.toCaseFolded file.path ∉ owners

/-- What both sides ask of the files from some point on. -/
def AdmittedFrom (text : PackageText) : QString → List QString → Nat → List ComponentPackageBundleFile → Prop
  | _, _, _, [] => True
  | previous, owners, total, file :: rest => Admitted text previous owners total file ∧
    AdmittedFrom text file.path (text.toCaseFolded file.path :: owners) (total + file.contents.length) rest

theorem Admitted.total {previous : QString} {owners : List QString} {total : Nat} {file : ComponentPackageBundleFile}
    (h : Admitted text previous owners total file) :
    total + file.contents.length ≤ maximumComponentExpandedBytes := by
  have hsize := h.size
  have hroom := h.room
  simp only [maximumComponentFileBytes, maximumComponentExpandedBytes] at *
  omega

theorem admitsFile_iff {previous : QString} {owners : List QString} {total : Nat} {file : ComponentPackageBundleFile} :
    admitsFile text previous owners total file = .ok () ↔ Admitted text previous owners total file := by
  simp only [admitsFile, bind_ok_iff, require_ok_iff, Bool.and_eq_true, Bool.or_eq_true, decide_eq_true_eq,
    List.isEmpty_iff, Bool.not_eq_true', exists_const]
  constructor
  · rintro ⟨⟨⟨⟨⟨hcanonical, hallowed⟩, hlater⟩, hsize⟩, hroom⟩, halone⟩
    exact ⟨hcanonical, hallowed, hlater, hsize, hroom, by simpa using halone⟩
  · rintro ⟨hcanonical, hallowed, hlater, hsize, hroom, halone⟩
    exact ⟨⟨⟨⟨⟨hcanonical, hallowed⟩, hlater⟩, hsize⟩, hroom⟩, by simpa using halone⟩

theorem validateFiles_iff {files : List ComponentPackageBundleFile} :
    validateFiles text files = .ok () ↔ (2 ≤ files.length ∧ files.length ≤ maximumComponentArchiveEntries) ∧
      AdmittedFrom text [] [] 0 files := by
  have hfrom (previous : QString) (owners : List QString) (total : Nat) :
      validateFilesFrom text previous owners total files = .ok () ↔ AdmittedFrom text previous owners total files := by
    induction files generalizing previous owners total with
    | nil => simp [validateFilesFrom, AdmittedFrom]
    | cons file rest ih =>
      rw [AdmittedFrom, ← admitsFile_iff, ← ih, validateFilesFrom, bind_ok_iff]
      exact ⟨fun ⟨_, hfile, hrest⟩ => ⟨hfile, hrest⟩, fun ⟨hfile, hrest⟩ => ⟨(), hfile, hrest⟩⟩
  simp only [validateFiles, bind_ok_iff, require_ok_iff, Bool.and_eq_true, decide_eq_true_eq, exists_const, hfrom]

/-- A file is read exactly where its bytes come next and it is admitted. -/
theorem readBundleFile_iff {index total total' : Nat} {previous : QString} {owners : List QString}
    {source rest : QByteArray} {file : ComponentPackageBundleFile} :
    readBundleFile text index previous owners total source = .ok (file, total', rest) ↔
      source = encodeFile file ++ rest ∧ IsText file.path ∧ Admitted text previous owners total file ∧
        total' = total + file.contents.length := by
  simp only [readBundleFile, bind_ok_iff, orError_ok_iff, require_ok_iff, pure_ok_iff, exists_const, Prod.exists,
    Bool.and_eq_true, Bool.or_eq_true, decide_eq_true_eq, List.isEmpty_iff, Bool.not_eq_true', readBigEndian_iff,
    readExact_iff, addWithin_iff, subWithin_iff, Prod.mk.injEq]
  constructor
  · rintro ⟨pathSize, source₁, ⟨-, rfl⟩, -, encodedPath, source₂, ⟨rfl, rfl⟩, ⟨⟨⟨hpath, hcanonical⟩, hallowed⟩, hlater⟩,
      halone, fileSize, source₃, ⟨-, rfl⟩, hsize, room, ⟨-, rfl⟩, ⟨htotal, -⟩, contents, source₄, ⟨rfl, rfl⟩, sum,
      ⟨-, rfl⟩, rfl, rfl, rfl⟩
    refine ⟨?_, isText_fromUtf8 _, ⟨hcanonical, hallowed, hlater, hsize, htotal, by simpa using halone⟩, rfl⟩
    simp only [encodeFile, hpath, List.append_assoc]
  · rintro ⟨rfl, htext, hfile, rfl⟩
    obtain ⟨hne, hbytes⟩ := canonicalPath_size hfile.canonical
    have hround := fromUtf8_path hfile.allowed htext
    have htotal := hfile.total
    have hsize := hfile.size
    have hempty : toUtf8 file.path ≠ [] := by
      intro he
      rw [he] at hround
      exact hne hround.symm
    have hpositive := List.length_pos_iff.mpr hempty
    simp only [maximumComponentFileBytes, maximumComponentExpandedBytes] at hsize htotal
    refine ⟨_, toUtf8 file.path ++ (bigEndian 8 file.contents.length ++ (file.contents ++ rest)),
      ⟨?_, by simp only [encodeFile, List.append_assoc]⟩, ⟨by omega, hbytes⟩, _, _, ⟨rfl, rfl⟩, ?_⟩
    · omega
    · rw [hround]
      refine ⟨⟨⟨⟨rfl, hfile.canonical⟩, hfile.allowed⟩, hfile.later⟩, by simpa using hfile.alone, _, _, ⟨?_, rfl⟩,
        hfile.size, _, ⟨?_, rfl⟩, ⟨hfile.room, ?_⟩, _, _, ⟨rfl, rfl⟩, _, ⟨?_, rfl⟩, rfl, rfl, rfl⟩
      · omega
      · simp only [maximumComponentExpandedBytes]
        omega
      · simp only [maximumQSizeType]
        omega
      · omega

theorem readBundleFiles_iff {count index total : Nat} {previous : QString} {owners : List QString}
    {source rest : QByteArray} {files : List ComponentPackageBundleFile} (h : index + count < 2 ^ 32) :
    readBundleFiles text count index previous owners total source = .ok (files, rest) ↔
      files.length = count ∧ source = files.flatMap encodeFile ++ rest ∧ (∀ file ∈ files, IsText file.path) ∧
        AdmittedFrom text previous owners total files := by
  induction count generalizing index previous owners total source files with
  | zero =>
    simp only [readBundleFiles, pure_ok_iff, Prod.mk.injEq]
    constructor
    · rintro ⟨rfl, rfl⟩
      simp [AdmittedFrom]
    · rintro ⟨hlength, rfl, -⟩
      obtain rfl := List.length_eq_zero_iff.mp hlength
      simp
  | succ count ih =>
    simp only [readBundleFiles, bind_ok_iff, orError_ok_iff, addWithin_iff, pure_ok_iff, Prod.exists, Prod.mk.injEq,
      readBundleFile_iff]
    constructor
    · rintro ⟨file, total', source₁, ⟨rfl, htext, hfile, rfl⟩, next, ⟨-, rfl⟩, rest', source₂, hrest, rfl, rfl⟩
      obtain ⟨hlength, rfl, htexts, hadmitted⟩ := (ih (by omega)).mp hrest
      refine ⟨by simp [hlength], by simp, ?_, hfile, hadmitted⟩
      exact List.forall_mem_cons.mpr ⟨htext, htexts⟩
    · rintro ⟨hlength, rfl, htexts, hadmitted⟩
      cases files with
      | nil => cases hlength
      | cons file files =>
        obtain ⟨htext, htexts⟩ := List.forall_mem_cons.mp htexts
        obtain ⟨hfile, hadmitted⟩ := hadmitted
        refine ⟨file, _, files.flatMap encodeFile ++ rest, ⟨by simp, htext, hfile, rfl⟩, _, ⟨by omega, rfl⟩, files, rest,
          ?_, rfl, rfl⟩
        exact (ih (by omega)).mpr ⟨by simpa using hlength, rfl, htexts, hadmitted⟩

/-- The files of a bundle: as many as are allowed, with paths of Unicode text, admitted one after the other. -/
structure Bundled (text : PackageText) (files : List ComponentPackageBundleFile) : Prop where
  least : 2 ≤ files.length
  most : files.length ≤ maximumComponentArchiveEntries
  paths : ∀ file ∈ files, IsText file.path
  admitted : AdmittedFrom text [] [] 0 files

theorem readComponentPackageBundle_iff {source : QByteArray} {files : List ComponentPackageBundleFile} :
    readComponentPackageBundle text source = .ok files ↔ Bundled text files ∧ source = encodeBundle files := by
  simp only [readComponentPackageBundle, bind_ok_iff, orError_ok_iff, require_ok_iff, pure_ok_iff, exists_const,
    Prod.exists, Bool.and_eq_true, decide_eq_true_eq, readBigEndian_iff, List.isEmpty_iff]
  constructor
  · rintro ⟨count, source₁, ⟨-, rfl⟩, ⟨hleast, hmost⟩, files', source₂, hfiles, rfl, rfl⟩
    have hbound : 0 + count < 2 ^ 32 := by
      simp only [maximumComponentArchiveEntries] at hmost
      omega
    obtain ⟨rfl, rfl, htexts, hadmitted⟩ := (readBundleFiles_iff hbound).mp hfiles
    exact ⟨⟨hleast, hmost, htexts, hadmitted⟩, by rw [encodeBundle, List.append_nil]⟩
  · rintro ⟨⟨hleast, hmost, htexts, hadmitted⟩, rfl⟩
    have hbound : 0 + files.length < 2 ^ 32 := by
      simp only [maximumComponentArchiveEntries] at hmost
      omega
    refine ⟨files.length, files.flatMap encodeFile, ⟨by omega, rfl⟩, ⟨hleast, hmost⟩, files, [], ?_, rfl, rfl⟩
    exact (readBundleFiles_iff hbound).mpr ⟨rfl, by simp, htexts, hadmitted⟩

theorem writeAll_ok_iff {takes : QByteArray → Bool} {written bytes out : QByteArray} {error : QString} :
    writeAll takes written bytes error = .ok out ↔ takes (written ++ bytes) = true ∧ out = written ++ bytes := by
  unfold writeAll
  split
  · rename_i htakes
    exact ⟨fun h => ⟨htakes, (Except.ok.inj h).symm⟩, fun h => congrArg _ h.2.symm⟩
  · rename_i htakes
    exact iff_of_false (by simp) fun h => htakes h.1

theorem writeFile_ok {takes : QByteArray → Bool} {written out : QByteArray} {file : ComponentPackageBundleFile}
    (h : writeFile takes written file = .ok out) : out = written ++ encodeFile file := by
  simp only [writeFile, bind_ok_iff, writeAll_ok_iff] at h
  obtain ⟨_, ⟨-, rfl⟩, _, ⟨-, rfl⟩, _, ⟨-, rfl⟩, -, rfl⟩ := h
  simp [encodeFile]

theorem writeFiles_ok {takes : QByteArray → Bool} {files : List ComponentPackageBundleFile} {written out : QByteArray}
    (h : files.foldlM (writeFile takes) written = .ok out) : out = written ++ files.flatMap encodeFile := by
  induction files generalizing written with
  | nil =>
    cases h
    simp
  | cons file files ih =>
    rw [List.foldlM_cons] at h
    obtain ⟨written', hfile, hrest⟩ := bind_ok_iff.mp h
    rw [ih hrest, writeFile_ok hfile, List.flatMap_cons, List.append_assoc]

/-- A device with room for everything takes the whole bundle. -/
theorem writeFiles_room {files : List ComponentPackageBundleFile} {written : QByteArray} :
    files.foldlM (writeFile fun _ => true) written = .ok (written ++ files.flatMap encodeFile) := by
  induction files generalizing written with
  | nil => simp
  | cons file files ih =>
    have hfile : writeFile (fun _ => true) written file = .ok (written ++ encodeFile file) := by
      simp only [writeFile, bind_ok_iff, writeAll_ok_iff]
      exact ⟨_, ⟨trivial, rfl⟩, _, ⟨trivial, rfl⟩, _, ⟨trivial, rfl⟩, trivial, by simp [encodeFile]⟩
    rw [List.foldlM_cons, hfile]
    exact (ih).trans (by simp)

theorem writeComponentPackageBundle_ok {takes : QByteArray → Bool} {files : List ComponentPackageBundleFile}
    {bytes : QByteArray} (h : writeComponentPackageBundle text takes files = .ok bytes) :
    validateFiles text files = .ok () ∧ bytes = encodeBundle files := by
  simp only [writeComponentPackageBundle, bind_ok_iff, writeAll_ok_iff] at h
  obtain ⟨_, hvalid, _, ⟨-, rfl⟩, hfiles⟩ := h
  exact ⟨hvalid, writeFiles_ok hfiles⟩

theorem writeComponentPackageBundle_room {files : List ComponentPackageBundleFile}
    (h : validateFiles text files = .ok ()) :
    writeComponentPackageBundle text (fun _ => true) files = .ok (encodeBundle files) := by
  simp only [writeComponentPackageBundle, bind_ok_iff, writeAll_ok_iff]
  exact ⟨(), h, _, ⟨trivial, rfl⟩, writeFiles_room⟩

end Exact

section Arithmetic
variable {text : PackageText}

@[simp] theorem wrapped_ne_refuse {path : QString} {code message : String} :
    BundleFailure.wrapped = refuse path code message ↔ False := iff_of_false (by simp [refuse]) id

/-- The sizes are compared before they are added or subtracted. -/
theorem readBundleFile_wraps {index total : Nat} {previous : QString} {owners : List QString} {source : QByteArray}
    (htotal : total ≤ maximumComponentExpandedBytes) :
    readBundleFile text index previous owners total source ≠ .error .wrapped := by
  intro h
  simp only [readBundleFile, bind_error_iff, orError_error_iff, orError_ok_iff, require_error_iff, require_ok_iff,
    wrapped_ne_refuse, and_false, false_or, Prod.exists, subWithin_none, subWithin_iff, addWithin_none,
    pure, Except.pure, reduceCtorEq, exists_false, or_false, Bool.and_eq_true, decide_eq_true_eq, exists_const,
    and_true] at h
  obtain ⟨_, _, -, -, _, _, -, -, -, fileSize, _, -, hsize, h⟩ := h
  simp only [maximumComponentFileBytes, maximumComponentExpandedBytes] at hsize h htotal
  rcases h with hroom | ⟨_, -, -, _, _, -, hsum⟩
  · omega
  · omega

theorem readBundleFiles_wraps {count index total : Nat} {previous : QString} {owners : List QString} {source : QByteArray}
    (hindex : index + count < 2 ^ 32) (htotal : total ≤ maximumComponentExpandedBytes) :
    readBundleFiles text count index previous owners total source ≠ .error .wrapped := by
  induction count generalizing index previous owners total source with
  | zero => exact fun h => by cases h
  | succ count ih =>
    intro h
    simp only [readBundleFiles, bind_error_iff, orError_error_iff, orError_ok_iff, addWithin_none, addWithin_iff,
      Prod.exists, readBundleFile_wraps htotal, false_or, pure, Except.pure, reduceCtorEq, exists_false, and_false,
      or_false, and_true] at h
    obtain ⟨file, total', rest, hfile, hnext | ⟨_, ⟨-, rfl⟩, hrest⟩⟩ := h
    · omega
    · obtain ⟨-, -, hadmitted, rfl⟩ := readBundleFile_iff.mp hfile
      exact ih (by omega) hadmitted.total hrest

theorem readComponentPackageBundle_wraps (source : QByteArray) :
    readComponentPackageBundle text source ≠ .error .wrapped := by
  intro h
  simp only [readComponentPackageBundle, bind_error_iff, orError_error_iff, orError_ok_iff, require_error_iff,
    require_ok_iff, wrapped_ne_refuse, and_false, false_or, Prod.exists, pure, Except.pure, reduceCtorEq, exists_false,
    or_false, Bool.and_eq_true, decide_eq_true_eq, exists_const] at h
  obtain ⟨count, source, -, ⟨-, hmost⟩, h⟩ := h
  simp only [maximumComponentArchiveEntries] at hmost
  exact readBundleFiles_wraps (by omega) (Nat.zero_le _) h

end Arithmetic

section Codec
variable {text : PackageText}

theorem readComponentPackageBundle_trailing {files : List ComponentPackageBundleFile} (h : Bundled text files)
    {extra : QByteArray} (hextra : extra ≠ []) :
    readComponentPackageBundle text (encodeBundle files ++ extra) =
      .error (refuse (qstr "$") "package-bundle.trailing-data" "Unexpected bytes follow the package bundle.") := by
  have hmost := h.most
  simp only [maximumComponentArchiveEntries] at hmost
  have hcount : readBigEndian 4 (encodeBundle files ++ extra) =
      some (files.length, files.flatMap encodeFile ++ extra) :=
    readBigEndian_iff.mpr ⟨by omega, List.append_assoc _ _ _⟩
  have hfiles : readBundleFiles text files.length 0 [] [] 0 (files.flatMap encodeFile ++ extra) = .ok (files, extra) :=
    (readBundleFiles_iff (by omega)).mpr ⟨rfl, rfl, h.paths, h.admitted⟩
  simp only [readComponentPackageBundle, bind_error_iff, orError_ok_iff, require_ok_iff, require_error_iff]
  refine .inr ⟨_, hcount, .inr ⟨(), ?_, .inr ⟨_, hfiles, .inl ⟨?_, trivial⟩⟩⟩⟩
  · simp [h.least, h.most]
  · simpa using hextra

theorem readComponentPackageBundle_refuses {source : QByteArray}
    (h : ∀ files, readComponentPackageBundle text source ≠ .ok files) :
    ∃ error, readComponentPackageBundle text source = .error (.refused error) := by
  cases hread : readComponentPackageBundle text source with
  | ok files => exact absurd hread (h files)
  | error failure =>
    cases failure with
    | refused error => exact ⟨error, rfl⟩
    | wrapped => exact absurd hread (readComponentPackageBundle_wraps source)

/-- What is written is read back, what is read was written so, a bundle cut short or followed by
anything is refused, and no size wraps on the way. -/
theorem bundleCodec_exact (text : PackageText) :
    (∀ takes files bytes, (∀ file ∈ files, IsText file.path) →
      writeComponentPackageBundle text takes files = .ok bytes → readComponentPackageBundle text bytes = .ok files) ∧
    (∀ bytes files, readComponentPackageBundle text bytes = .ok files →
      writeComponentPackageBundle text (fun _ => true) files = .ok bytes) ∧
    (∀ bytes files, readComponentPackageBundle text bytes = .ok files → ∀ cut, cut <+: bytes → cut ≠ bytes →
      ∃ error, readComponentPackageBundle text cut = .error (.refused error)) ∧
    (∀ bytes files extra, readComponentPackageBundle text bytes = .ok files → extra ≠ [] →
      ∃ error, readComponentPackageBundle text (bytes ++ extra) = .error (.refused error)) ∧
    ∀ bytes, readComponentPackageBundle text bytes ≠ .error .wrapped := by
  have hextended {bytes files extra} (h : readComponentPackageBundle text bytes = .ok files) (hextra : extra ≠ []) :
      ∃ error, readComponentPackageBundle text (bytes ++ extra) = .error (.refused error) := by
    obtain ⟨hfiles, rfl⟩ := readComponentPackageBundle_iff.mp h
    exact ⟨_, readComponentPackageBundle_trailing hfiles hextra⟩
  refine ⟨?_, ?_, ?_, fun bytes files extra => hextended, readComponentPackageBundle_wraps⟩
  · intro takes files bytes htexts hwritten
    obtain ⟨hvalid, rfl⟩ := writeComponentPackageBundle_ok hwritten
    obtain ⟨⟨hleast, hmost⟩, hadmitted⟩ := validateFiles_iff.mp hvalid
    exact readComponentPackageBundle_iff.mpr ⟨⟨hleast, hmost, htexts, hadmitted⟩, rfl⟩
  · intro bytes files hread
    obtain ⟨hfiles, rfl⟩ := readComponentPackageBundle_iff.mp hread
    exact writeComponentPackageBundle_room (validateFiles_iff.mpr ⟨⟨hfiles.least, hfiles.most⟩, hfiles.admitted⟩)
  · rintro bytes files hread cut ⟨rest, rfl⟩ hcut
    have hrest : rest ≠ [] := by
      rintro rfl
      exact hcut (List.append_nil cut).symm
    refine readComponentPackageBundle_refuses fun files' hread' => ?_
    obtain ⟨error, herror⟩ := hextended hread' hrest
    cases herror.symm.trans hread

end Codec

section Sample

/-- Tables with no control characters beyond ASCII, where nothing composes or folds. -/
def plainPackageText : PackageText where
  isControlOrFormat c := isControl c
  normalizationFormC s := s
  toCaseFolded s := s

def sampleFiles : List ComponentPackageBundleFile :=
  [⟨qstr "integrity.json", [0x7b, 0x7d]⟩, ⟨qstr "manifest.json", []⟩]

theorem bundleCodec_exact_sample : ∃ bytes, readComponentPackageBundle plainPackageText bytes = .ok sampleFiles ∧
    writeComponentPackageBundle plainPackageText (fun _ => true) sampleFiles = .ok bytes := by
  have hvalid : (validateFiles plainPackageText sampleFiles).toOption = some () := by decide +kernel
  have hwritten := writeComponentPackageBundle_room (ok_of_toOption hvalid)
  obtain ⟨hread, hwrite, -⟩ := bundleCodec_exact plainPackageText
  have hfiles := hread (fun _ => true) sampleFiles (encodeBundle sampleFiles) (by simp [sampleFiles, isText_qstr]) hwritten
  exact ⟨encodeBundle sampleFiles, hfiles, hwrite _ _ hfiles⟩

end Sample
end HyprShelld.Components
