import HyprShelld.Authority.Records
import HyprShelld.Renderer.Generation
import HyprShelld.Support.Execution
import Mathlib.Logic.Function.Basic

/-! The persistent store and the generation store, as the calls that the authority makes of them. -/
namespace HyprShelld.Compositor
open Hyprland

inductive StoreFile where
  | desired
  | lastGood
  | activation
  | pending
  deriving DecidableEq

def StoreFile.maximumBytes : StoreFile → Nat
  | .desired | .lastGood => maximumDesiredStateBytes
  | .activation | .pending => maximumMetadataBytes

inductive StoreReadResult where
  | missing
  | present (bytes : QByteArray)
  | unavailable (errorMessage : QString)

/-- A namespace change that was not synced may be lost with the power, and is seen until then. -/
inductive StoreOperationResult where
  | success
  | failure (errorMessage : QString)
  | committedButNotDurable (errorMessage : QString)

def StoreOperationResult.errorMessage : StoreOperationResult → QString
  | .success => []
  | .failure message => message
  | .committedButNotDurable message => message

def StoreOperationResult.uncertain : StoreOperationResult → Bool
  | .committedButNotDurable _ => true
  | _ => false

structure VerifiedGeneration where
  id : QString
  nonce : QString
  directory : QString
  entrypoint : QString
  manifest : QByteArray
  snapshotDigest : QString
  revision : UInt64

inductive StoreCall where
  | initializeStore
  | initializeGenerations
  | read (file : StoreFile)
  | write (file : StoreFile) (bytes : QByteArray)
  | remove (file : StoreFile)
  | publish (rendered : RenderedGeneration)
  | verify (nonce : QString)

def StoreCall.Answer : StoreCall → Type
  | .initializeStore | .initializeGenerations => Except QString Unit
  | .read _ => StoreReadResult
  | .write _ _ | .remove _ => StoreOperationResult
  | .publish _ | .verify _ => Except QString VerifiedGeneration

abbrev Stored := Program StoreCall StoreCall.Answer

def openStore : Stored (Except QString Unit) := Program.ask StoreCall.initializeStore
def openGenerations : Stored (Except QString Unit) := Program.ask StoreCall.initializeGenerations
def readStore (file : StoreFile) : Stored StoreReadResult := Program.ask (StoreCall.read file)
def writeStore (file : StoreFile) (bytes : QByteArray) : Stored StoreOperationResult := Program.ask (StoreCall.write file bytes)
def removeStored (file : StoreFile) : Stored StoreOperationResult := Program.ask (StoreCall.remove file)

def publishGeneration (rendered : RenderedGeneration) : Stored (Except QString VerifiedGeneration) :=
  Program.ask (StoreCall.publish rendered)

def verifyGeneration (nonce : QString) : Stored (Except QString VerifiedGeneration) := Program.ask (StoreCall.verify nonce)

/-- The files as every process sees them, and as the disk keeps them without power. -/
structure Disk where
  files : StoreFile → Option QByteArray
  durable : StoreFile → Option QByteArray

/-- A change that is seen but not synced. -/
def Disk.put (disk : Disk) (file : StoreFile) (bytes : Option QByteArray) : Disk :=
  { disk with files := Function.update disk.files file bytes }

/-- Syncing the directory makes everything durable that is seen. -/
def Disk.sync (disk : Disk) : Disk := { disk with durable := disk.files }

def accepted (file : StoreFile) (bytes : QByteArray) : Prop := bytes ≠ [] ∧ bytes.length ≤ file.maximumBytes

/-- How the stores may answer a call, and the disk afterwards. A write replaces a file as a whole. -/
inductive Effect : Disk → (c : StoreCall) → c.Answer → Disk → Prop where
  | initializeStore (disk : Disk) (answer : Except QString Unit) : Effect disk .initializeStore answer disk
  | initializeGenerations (disk : Disk) (answer : Except QString Unit) : Effect disk .initializeGenerations answer disk
  | present {disk : Disk} {file : StoreFile} {bytes : QByteArray} :
    disk.files file = some bytes → bytes.length ≤ file.maximumBytes → Effect disk (.read file) (.present bytes) disk
  | missing {disk : Disk} {file : StoreFile} : disk.files file = none → Effect disk (.read file) .missing disk
  | unavailable (disk : Disk) (file : StoreFile) (message : QString) :
    Effect disk (.read file) (.unavailable message) disk
  | written (disk : Disk) {file : StoreFile} {bytes : QByteArray} :
    accepted file bytes → Effect disk (.write file bytes) .success (disk.put file (some bytes)).sync
  | notWritten (disk : Disk) (file : StoreFile) (bytes : QByteArray) (message : QString) :
    Effect disk (.write file bytes) (.failure message) disk
  | writtenUnsynced (disk : Disk) {file : StoreFile} {bytes : QByteArray} (message : QString) :
    accepted file bytes →
    Effect disk (.write file bytes) (.committedButNotDurable message) (disk.put file (some bytes))
  | absent {disk : Disk} {file : StoreFile} : disk.files file = none → Effect disk (.remove file) .success disk
  | removed {disk : Disk} {file : StoreFile} :
    disk.files file ≠ none → Effect disk (.remove file) .success (disk.put file none).sync
  | notRemoved (disk : Disk) (file : StoreFile) (message : QString) : Effect disk (.remove file) (.failure message) disk
  | removedUnsynced {disk : Disk} {file : StoreFile} (message : QString) : disk.files file ≠ none →
    Effect disk (.remove file) (.committedButNotDurable message) (disk.put file none)
  | publish (disk : Disk) (rendered : RenderedGeneration) (answer : Except QString VerifiedGeneration) :
    Effect disk (.publish rendered) answer disk
  | verify (disk : Disk) (nonce : QString) (answer : Except QString VerifiedGeneration) :
    Effect disk (.verify nonce) answer disk

/-- Without power every file is as it was seen or as it was durable. -/
def PowerLoss (disk disk' : Disk) : Prop :=
  (∀ file, disk'.files file = disk.files file ∨ disk'.files file = disk.durable file) ∧ disk'.durable = disk'.files

section Dependable

instance (file : StoreFile) (bytes : QByteArray) : Decidable (accepted file bytes) := inferInstanceAs (Decidable (_ ∧ _))

/-- A file that is too large is not read. -/
def readAnswer (file : StoreFile) : Option QByteArray → StoreReadResult
  | none => .missing
  | some bytes => if bytes.length ≤ file.maximumBytes then .present bytes else .unavailable []

def writeAnswer (disk : Disk) (file : StoreFile) (bytes : QByteArray) : StoreOperationResult × Disk :=
  if accepted file bytes then (.success, (disk.put file (some bytes)).sync) else (.failure [], disk)

/-- A store without faults over the immutable generations. -/
def serve (generations : QString → Except QString VerifiedGeneration) (disk : Disk) : (c : StoreCall) → c.Answer × Disk
  | .initializeStore | .initializeGenerations => (.ok (), disk)
  | .read file => (readAnswer file (disk.files file), disk)
  | .write file bytes => writeAnswer disk file bytes
  | .remove file => (.success, if disk.files file = none then disk else (disk.put file none).sync)
  | .publish _ => (.error [], disk)
  | .verify nonce => (generations nonce, disk)

theorem effect_readAnswer (disk : Disk) (file : StoreFile) : Effect disk (.read file) (readAnswer file (disk.files file)) disk := by
  cases h : disk.files file with
  | none => exact .missing h
  | some bytes =>
    unfold readAnswer
    dsimp only
    split
    · exact .present h (by assumption)
    · exact .unavailable disk file []

theorem effect_writeAnswer (disk : Disk) (file : StoreFile) (bytes : QByteArray) :
    Effect disk (.write file bytes) (writeAnswer disk file bytes).1 (writeAnswer disk file bytes).2 := by
  unfold writeAnswer
  split
  · exact .written disk (by assumption)
  · exact .notWritten disk file bytes []

theorem effect_serve (generations : QString → Except QString VerifiedGeneration) (disk : Disk) (c : StoreCall) :
    Effect disk c (serve generations disk c).1 (serve generations disk c).2 := by
  cases c with
  | initializeStore => exact .initializeStore disk _
  | initializeGenerations => exact .initializeGenerations disk _
  | read file => exact effect_readAnswer disk file
  | write file bytes => exact effect_writeAnswer disk file bytes
  | remove file =>
    by_cases h : disk.files file = none
    · simpa [serve, h] using Effect.absent h
    · simpa [serve, h] using Effect.removed h
  | publish rendered => exact .publish disk rendered _
  | verify nonce => exact .verify disk nonce _

end Dependable
end HyprShelld.Compositor
