import Mathlib.Algebra.GroupWithZero.Nat
import HyprShelld.Support.Interleaving
import HyprShelld.Text.Utf8

/-! The state directory with its five record files, and the system calls that look at it. -/
namespace HyprShelld.FixedRecords

inductive Record where
  | authority
  | desired
  | lastGood
  | applied
  | pending
  deriving DecidableEq

structure TimeSpec where
  seconds : Int
  nanoseconds : Int
  deriving DecidableEq

/-- What identifies and describes a file, apart from how long it is. -/
structure Metadata where
  device : Nat
  inode : Nat
  mode : Nat
  uid : Nat
  gid : Nat
  nlink : Nat
  mtim : TimeSpec
  ctim : TimeSpec
  deriving DecidableEq

structure Stat extends Metadata where
  size : Int
  deriving DecidableEq

structure File where
  metadata : Metadata
  bytes : QByteArray

def File.stat (f : File) : Stat := { f.metadata with size := f.bytes.length }

def sameIdentity (left right : Stat) : Prop := left.device = right.device ∧ left.inode = right.inode

instance (left right : Stat) : Decidable (sameIdentity left right) := inferInstanceAs (Decidable (_ ∧ _))

/-- The directory behind the borrowed descriptor. A handle stands for one file from its creation to its
end, so that another file may come to have the same inode number but never the same handle. -/
structure World where
  directory : Stat
  entries : Record → Option Nat
  files : Nat → File
  /-- The flags the borrowed descriptor was opened with. -/
  statusFlags : Nat
  euid : Nat
  /-- Two names of one file are two links to it. -/
  links : ∀ {r s : Record} {n m : Nat}, r ≠ s → entries r = some n → entries s = some m →
    sameIdentity (files n).stat (files m).stat → 1 < (files n).metadata.nlink

/-- The file a record names. -/
def World.file (w : World) (r : Record) : Option File := (w.entries r).map w.files

/-- The presence and the bytes of a record. -/
def World.content (w : World) (r : Record) : Option QByteArray := (w.file r).map File.bytes

/-- What other processes do in one step. A name is created, removed or replaced only with directory
metadata never seen before, and a file is written only with file metadata never seen before. -/
structure OtherProcesses (h : History World) (w : World) : Prop where
  directory : History.Guarded World.directory World.entries h w
  file : ∀ n, History.Guarded (fun w => (w.files n).stat) (fun w => w.files n) h w

inductive Errno where
  | EINTR
  | EIO
  | ENOENT
  | EFBIG
  | other (code : Nat)
  deriving DecidableEq

inductive Descriptor where
  | root
  | file (handle : Nat)
  deriving DecidableEq

inductive Call where
  | duplicateRoot
  | getDescriptorFlags (d : Descriptor)
  | getStatusFlags
  | getEffectiveUid
  | fstat (d : Descriptor)
  | fstatat (r : Record)
  | openat (r : Record)
  | pread (handle count offset : Nat)
  | allocate (size : Int)
  | close (d : Descriptor)

abbrev Call.Value : Call → Type
  | duplicateRoot => Unit
  | getDescriptorFlags _ => Nat
  | getStatusFlags => Nat
  | getEffectiveUid => Nat
  | fstat _ => Stat
  | fstatat _ => Stat
  | openat _ => Nat
  | pread _ _ _ => QByteArray
  | allocate _ => Unit
  | close _ => Unit

abbrev Answer (c : Call) : Type := Except Errno c.Value

def FD_CLOEXEC : Nat := 1
def O_ACCMODE : Nat := 3
def O_RDONLY : Nat := 0
def O_PATH : Nat := 0o10000000

def World.stat (w : World) : Descriptor → Stat
  | .root => w.directory
  | .file n => (w.files n).stat

/-- What a world may answer: a call may fail at any time and a read may be short, but a name is only
missing where it is. -/
def Answers (w : World) : (c : Call) → Answer c → Prop
  | .getStatusFlags, .ok flags => flags = w.statusFlags
  | .getEffectiveUid, answer => answer = .ok w.euid
  | .fstat d, .ok s => s = w.stat d
  | .fstatat r, .ok s => ∃ f, w.file r = some f ∧ s = f.stat
  | .fstatat r, .error e => e = .ENOENT → w.entries r = none
  | .openat r, .ok n => w.entries r = some n
  | .pread n count offset, .ok bytes => bytes <+: ((w.files n).bytes.drop offset).take count
  | _, _ => True

/-- What a world answers where nothing interferes. -/
def World.calm (w : World) : (c : Call) → Answer c
  | .duplicateRoot => .ok ()
  | .getDescriptorFlags _ => .ok FD_CLOEXEC
  | .getStatusFlags => .ok w.statusFlags
  | .getEffectiveUid => .ok w.euid
  | .fstat d => .ok (w.stat d)
  | .fstatat r =>
    match w.file r with
    | some f => .ok f.stat
    | none => .error .ENOENT
  | .openat r =>
    match w.entries r with
    | some n => .ok n
    | none => .error .ENOENT
  | .pread n count offset => .ok (((w.files n).bytes.drop offset).take count)
  | .allocate _ => .ok ()
  | .close _ => .ok ()

theorem World.calm_answers (w : World) (c : Call) : Answers w c (w.calm c) := by
  cases c with
  | fstatat r =>
    simp only [calm]
    cases hf : w.file r with
    | some f => exact ⟨f, hf, rfl⟩
    | none => exact fun _ => by simpa [file] using hf
  | openat r =>
    simp only [calm]
    cases hn : w.entries r with
    | some n => exact hn
    | none => trivial
  | pread n count offset => exact List.prefix_rfl
  | _ => first | rfl | trivial

end HyprShelld.FixedRecords
