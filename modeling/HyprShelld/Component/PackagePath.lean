import HyprShelld.Component.Contract
import HyprShelld.Text.Strings
import HyprShelld.Text.Utf8

/-! Paths of the files in a component package. -/
namespace HyprShelld

/-- What the UTF-8 decoder makes of text that is not UTF-8: a replacement character for every byte
that does not start a character. -/
def decodeReplacing (bytes : QByteArray) : List Char :=
  match bytes with
  | [] => []
  | _ :: rest =>
    match ([1, 2, 3, 4].find? fun n => n ≤ bytes.length && (decodeScalars (bytes.take n)).any (·.length = 1)) with
    | some n => ((decodeScalars (bytes.take n)).getD []) ++ decodeReplacing (rest.drop (n - 1))
    | none => Char.ofNat 0xfffd :: decodeReplacing rest
termination_by bytes.length
decreasing_by all_goals simp; try omega

/-- QString::fromUtf8. -/
def fromUtf8 (bytes : QByteArray) : QString := (decodeUtf8 bytes).getD (utf16 (decodeReplacing bytes))

theorem isText_fromUtf8 (bytes : QByteArray) : IsText (fromUtf8 bytes) := by
  unfold fromUtf8 decodeUtf8
  split
  · exact ⟨_, rfl⟩
  · exact ⟨[], rfl⟩
  · exact ⟨_, rfl⟩

namespace Components

/-- What the checks on package paths take from the Unicode tables. -/
structure PackageText extends CanonicalJson.Unicode where
  toCaseFolded : QString → QString

variable (text : PackageText)

def maximumComponentExpandedBytes : Nat := 128 * 1024 * 1024
def maximumComponentFileBytes : Nat := 32 * 1024 * 1024
def maximumComponentArchiveEntries : Nat := 512

def drivePrefix (path : QString) : Bool :=
  match toUcs4 path with
  | c :: d :: _ => Pattern.among [('A', 'Z'), ('a', 'z')] c && d = ':'.toNat
  | _ => false

def isCanonicalSegment (segment : QString) : Bool :=
  !segment.isEmpty && segment ≠ qstr "." && segment ≠ qstr ".." && !(toUcs4 segment).any text.isControlOrFormat

def isCanonicalPackageFilePath (path : QString) : Bool :=
  !path.isEmpty && path.length ≤ 255 && (toUtf8 path).length ≤ 255 && path = text.normalizationFormC path &&
    !startsWith path (qstr "/") && !path.contains (unit '\\') && !path.contains 0 && !drivePrefix path &&
    (splitAt path '/').length ≤ 32 && (splitAt path '/').all (isCanonicalSegment text)

def isAllowedComponentPackageFilePath (path : QString) : Bool :=
  path = qstr "manifest.json" || path = qstr "integrity.json" || path = qstr "settings.schema.json" ||
    path = qstr "icon.png" || startsWith path (qstr "payload/") || startsWith path (qstr "LICENSES/")

variable {text}

theorem canonicalPath_size {path : QString} (h : isCanonicalPackageFilePath text path = true) :
    path ≠ [] ∧ (toUtf8 path).length ≤ 255 := by
  simp only [isCanonicalPackageFilePath, Bool.and_eq_true, decide_eq_true_eq, Bool.not_eq_true'] at h
  exact ⟨by simpa using h.1.1.1.1.1.1.1.1.1, h.1.1.1.1.1.1.1.2⟩

/-- The layout starts every path with a letter, so the decoder has no byte-order mark to drop. -/
theorem allowedPath_head {path : QString} (h : isAllowedComponentPackageFilePath path = true) :
    path.head? ≠ some 0xfeff := by
  have hprefix {pre : QString} (hne : pre ≠ []) (hhead : pre.head? ≠ some 0xfeff) (hp : startsWith path pre = true) :
      path.head? ≠ some 0xfeff := by
    obtain ⟨rest, rfl⟩ := List.isPrefixOf_iff_prefix.mp hp
    cases pre with
    | nil => exact absurd rfl hne
    | cons u pre => exact hhead
  simp only [isAllowedComponentPackageFilePath, Bool.or_eq_true, decide_eq_true_eq] at h
  rcases h with ((((rfl | rfl) | rfl) | rfl) | hp) | hp
  · decide
  · decide
  · decide
  · decide
  · exact hprefix (by decide) (by decide) hp
  · exact hprefix (by decide) (by decide) hp

/-- A path of the layout is read back from its own bytes. -/
theorem fromUtf8_path {path : QString} (h : isAllowedComponentPackageFilePath path = true) (ht : IsText path) :
    fromUtf8 (toUtf8 path) = path := by
  rw [fromUtf8, decodeUtf8_toUtf8 ht (allowedPath_head h), Option.getD_some]

end Components
end HyprShelld
