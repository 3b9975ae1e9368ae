import HyprShelld.FixedRecords.Files

/-! The repeated observation of the five fixed records under one directory descriptor. -/
namespace HyprShelld.FixedRecords

inductive CaptureReason where
  | invalidStateDirectoryDescriptor
  | unsafeStateDirectory
  | stateDirectoryChanged
  | unsafeRecord
  | recordChanged
  | recordIdentityAlias
  | readBudgetExceeded
  | proofBudgetExceeded
  | cleanupFailed
  deriving DecidableEq

inductive CaptureSubject where
  | record (r : Record)
  | stateDirectory
  deriving DecidableEq

structure Failure where
  reason : CaptureReason
  subject : CaptureSubject
  deriving DecidableEq

/-- The five fields, `none` for a missing one. -/
abbrev Capture := Record → Option QByteArray

inductive CaptureResult where
  | captured (capture : Capture)
  | failedClosed (failure : Failure)

def Record.maximumBytes : Record → Nat
  | authority => 256
  | desired => 4 * 1024 * 1024
  | lastGood => 4 * 1024 * 1024
  | applied => 4 * 1024 * 1024
  | pending => 8404992

/-- The records in the order of the table. -/
def recordSpecs : List Record := [.authority, .desired, .lastGood, .applied, .pending]

def Record.prior (r : Record) : List Record := recordSpecs.takeWhile (· ≠ r)

def readBufferBytes : Nat := 4096
def maximumPreadReturnedBytes : Nat := 41976321
def maximumProofSyscallAttempts : Nat := 12000
def cleanupAttemptReserve : Nat := 32
def maximumExtraPreadAttempts : Nat := 129

def ceilingChunks (maximumBytes : Nat) : Nat := (maximumBytes + readBufferBytes - 1) / readBufferBytes

def maximumPreadAttempts (maximumBytes : Nat) : Nat := ceilingChunks maximumBytes + maximumExtraPreadAttempts

structure OperationBudget where
  proofRemaining : Nat := maximumProofSyscallAttempts
  cleanupRemaining : Nat := cleanupAttemptReserve
  proofExceeded : Bool := false
  cleanupExceeded : Bool := false

def OperationBudget.cleanupAttempt (budget : OperationBudget) : OperationBudget :=
  match budget.cleanupRemaining with
  | 0 => { budget with cleanupExceeded := true }
  | n + 1 => { budget with cleanupRemaining := n }

structure ReadBudget where
  remaining : Nat := maximumPreadReturnedBytes
  returnedBytesExceeded : Bool := false
  perFileAttemptsExceeded : Bool := false

def ReadBudget.exceeded (reads : ReadBudget) : Bool := reads.returnedBytesExceeded || reads.perFileAttemptsExceeded

/-- What is kept of a record of the first pass: its bytes, its metadata and the descriptor held on it. -/
structure PresentRecord where
  bytes : QByteArray
  metadata : Stat
  heldFirstPassFd : Option Nat

abbrev InternalRecord := Option PresentRecord

structure Session where
  operations : OperationBudget := {}
  reads : ReadBudget := {}
  failure : Option Failure := none
  cleanupFailure : Option Failure := none
  first : Record → InternalRecord := fun _ => none
  /-- The metadata of the records the second pass found present. -/
  secondMetadata : Record → Option Stat := fun _ => none

def Session.firstMetadata (s : Session) (r : Record) : Option Stat := (s.first r).map PresentRecord.metadata

def Session.result (s : Session) : CaptureResult :=
  match s.failure with
  | some failure => .failedClosed failure
  | none => .captured fun r => (s.first r).map PresentRecord.bytes

abbrev CaptureM := StateT Session (Program Call Answer)

/-- A call outside the proof budget. -/
def system (c : Call) : CaptureM (Answer c) := StateT.lift (Program.ask c)

/-- A call that counts against the proof budget, and is not made once that is spent. -/
def proofSyscall (c : Call) : CaptureM (Answer c) := do
  match (← get).operations.proofRemaining with
  | 0 =>
    modify fun s => { s with operations.proofExceeded := true }
    return .error Errno.EIO
  | n + 1 =>
    modify fun s => { s with operations.proofRemaining := n }
    system c

def saneSnapshotRanges (value : Stat) : Prop :=
  0 ≤ value.size ∧ 0 < value.nlink ∧ 0 ≤ value.mtim.nanoseconds ∧ value.mtim.nanoseconds ≤ 999999999 ∧
    0 ≤ value.ctim.nanoseconds ∧ value.ctim.nanoseconds ≤ 999999999

instance (value : Stat) : Decidable (saneSnapshotRanges value) := inferInstanceAs (Decidable (_ ∧ _))

/-- Two observations agree in every field that is compared, which is every field there is. -/
abbrev sameSnapshot (left right : Stat) : Prop := left = right

def S_IFMT : Nat := 0o170000
def S_ISDIR (mode : Nat) : Prop := mode &&& S_IFMT = 0o040000
def S_ISREG (mode : Nat) : Prop := mode &&& S_IFMT = 0o100000

instance (mode : Nat) : Decidable (S_ISDIR mode) := inferInstanceAs (Decidable (_ = _))
instance (mode : Nat) : Decidable (S_ISREG mode) := inferInstanceAs (Decidable (_ = _))

def privateDirectoryMode : Nat := 0o0700
def privateFileMode : Nat := 0o0600

def safeRoot (value : Stat) (owner : Nat) : Prop :=
  S_ISDIR value.mode ∧ saneSnapshotRanges value ∧ value.uid = owner ∧ value.mode &&& 0o7777 = privateDirectoryMode

def safeRecord (value : Stat) (owner rootDevice maximumBytes : Nat) : Prop :=
  S_ISREG value.mode ∧ saneSnapshotRanges value ∧ value.device = rootDevice ∧ value.uid = owner ∧ value.nlink = 1 ∧
    value.mode &&& 0o7777 = privateFileMode ∧ value.size ≤ maximumBytes

instance (value : Stat) (owner : Nat) : Decidable (safeRoot value owner) := inferInstanceAs (Decidable (_ ∧ _))

instance (value : Stat) (owner rootDevice maximumBytes : Nat) : Decidable (safeRecord value owner rootDevice maximumBytes) :=
  inferInstanceAs (Decidable (_ ∧ _))

def readableStatus (flags : Nat) : Prop := flags &&& O_ACCMODE = O_RDONLY ∧ flags &&& O_PATH = 0

instance (flags : Nat) : Decidable (readableStatus flags) := inferInstanceAs (Decidable (_ ∧ _))

/-- The descriptor is given up whatever the close answers. -/
def closeOnce (d : Descriptor) : CaptureM Bool := do
  modify fun s => { s with operations := s.operations.cleanupAttempt }
  return (← system (.close d)).toOption.isSome

/-- The first failure chosen stands. -/
def chooseFailure (reason : CaptureReason) (subject : CaptureSubject) : CaptureM Unit :=
  modify fun s => { s with failure := s.failure <|> some ⟨reason, subject⟩ }

def Session.withCleanupFailure (s : Session) (subject : CaptureSubject) : Session :=
  { s with cleanupFailure := s.cleanupFailure <|> some ⟨.cleanupFailed, subject⟩ }

@[simp] theorem Session.withCleanupFailure_isSome (s : Session) (subject : CaptureSubject) :
    (s.withCleanupFailure subject).cleanupFailure.isSome := by
  simp only [withCleanupFailure]
  cases s.cleanupFailure <;> rfl

def chooseCleanupFailure (subject : CaptureSubject) : CaptureM Unit := modify fun s => s.withCleanupFailure subject

def chooseBudgetFailure (r : Record) : CaptureM Unit := do
  let s ← get
  if s.operations.proofExceeded then chooseFailure .proofBudgetExceeded (.record r)
  else if s.reads.exceeded then chooseFailure .readBudgetExceeded (.record r)
  else chooseFailure .unsafeRecord (.record r)

def rootGuard (baseline : Stat) : CaptureM Bool :=
  return match ← proofSyscall (.fstat .root) with
    | .ok current => sameSnapshot current baseline
    | .error _ => false

def rootReason (s : Session) : CaptureReason :=
  if s.operations.proofExceeded then .proofBudgetExceeded else .stateDirectoryChanged

/-- The guard around every step: the directory still is as it was. -/
def guardRoot (baseline : Stat) : CaptureM Bool := do
  if ← rootGuard baseline then return true
  else
    chooseFailure (rootReason (← get)) .stateDirectory
    return false

def consume (count : Nat) : CaptureM Bool := do
  let s ← get
  if s.reads.remaining < count then
    set { s with reads.returnedBytesExceeded := true }
    return false
  else
    set { s with reads.remaining := s.reads.remaining - count }
    return true

def boundedPread (handle count offset : Nat) : CaptureM (Except Errno QByteArray) := do
  match ← proofSyscall (.pread handle count offset) with
  | .ok bytes =>
    if ← consume bytes.length then return .ok bytes
    else return .error .EFBIG
  | .error e => return .error e

def attemptsExceeded : CaptureM Unit := modify fun s => { s with reads.perFileAttemptsExceeded := true }

section Reading
variable (handle size : Nat)

/-- Reads on from the bytes it has, up to the observed size. It returns the attempts that are left. -/
def readContent : Nat → QByteArray → CaptureM (Option (QByteArray × Nat))
  | 0, bytes => do
    if bytes.length < size then
      attemptsExceeded
      return none
    else return some (bytes, 0)
  | attempts + 1, bytes => do
    if bytes.length < size then
      let requested := min readBufferBytes (size - bytes.length)
      match ← boundedPread handle requested bytes.length with
      | .error .EINTR => readContent attempts bytes
      | .error _ => return none
      | .ok returned =>
        if returned.length = 0 ∨ requested < returned.length then return none
        else readContent attempts (bytes ++ returned)
    else return some (bytes, attempts + 1)

/-- One byte more than the observed size must not be there. -/
def growthProbe : Nat → CaptureM Bool
  | 0 => do
    attemptsExceeded
    return false
  | attempts + 1 => do
    match ← boundedPread handle 1 size with
    | .error .EINTR => growthProbe attempts
    | .error _ => return false
    | .ok returned => return returned.length = 0

end Reading

def readWhole (r : Record) (handle size : Nat) : CaptureM (Option QByteArray) := do
  match ← readContent handle size (maximumPreadAttempts r.maximumBytes) [] with
  | none => return none
  | some (bytes, attempts) =>
    if ← growthProbe handle size attempts then return some bytes
    else return none

inductive Pass where
  | first
  | second
  deriving DecidableEq

def descriptorHasCloseOnExec (d : Descriptor) : CaptureM Bool :=
  return match ← proofSyscall (.getDescriptorFlags d) with
    | .ok flags => flags &&& FD_CLOEXEC ≠ 0
    | .error _ => false

section CaptureOne
variable (baseline : Stat) (r : Record)

def safe (value : Stat) : Prop := safeRecord value baseline.uid baseline.device r.maximumBytes

instance (value : Stat) : Decidable (safe baseline r value) := inferInstanceAs (Decidable (safeRecord _ _ _ _))

/-- The opened file is the one that was looked up. -/
def fstatOpened (handle : Nat) (named : Stat) : CaptureM (Option Stat) := do
  if ← descriptorHasCloseOnExec (.file handle) then
    match ← proofSyscall (.fstat (.file handle)) with
    | .ok opened => return if sameSnapshot named opened ∧ safe baseline r opened then some opened else none
    | .error _ => return none
  else return none

/-- The descriptor and then the name still show what was read. -/
def unchangedAfter (handle : Nat) (opened : Stat) : CaptureM Bool := do
  match ← proofSyscall (.fstat (.file handle)) with
  | .error _ => return false
  | .ok after =>
    if sameSnapshot opened after then
      match ← proofSyscall (.fstatat r) with
      | .error _ => return false
      | .ok finalNamed => return sameSnapshot after finalNamed
    else return false

/-- A descriptor that could not be given back is what is reported. -/
def reportCleanupFailure : CaptureM Unit := do
  chooseCleanupFailure (.record r)
  modify fun s => { s with failure := s.cleanupFailure }

/-- A failed record gives its descriptor back. -/
def abandon (handle : Nat) (choose : CaptureM Unit) : CaptureM Unit := do
  let closed ← closeOnce (.file handle)
  choose
  unless closed do
    reportCleanupFailure r

/-- The record behind an open descriptor, held on to in the first pass. -/
def captureOpened (pass : Pass) (handle : Nat) (named : Stat) : CaptureM (Option PresentRecord) := do
  let some opened ← fstatOpened baseline r handle named
    | do abandon r handle (chooseBudgetFailure r); return none
  let .ok _ ← system (.allocate opened.size)
    | do abandon r handle (chooseFailure .unsafeRecord (.record r)); return none
  let some bytes ← readWhole r handle opened.size.toNat
    | do abandon r handle (chooseBudgetFailure r); return none
  if ← unchangedAfter r handle opened then
    match pass with
    | .first => return some ⟨bytes, opened, some handle⟩
    | .second =>
      if ← closeOnce (.file handle) then return some ⟨bytes, opened, none⟩
      else
        reportCleanupFailure r
        return none
  else
    abandon r handle (chooseBudgetFailure r)
    return none

/-- A record as one pass sees it, or nothing and a failure. -/
def captureOne (pass : Pass) : CaptureM (Option InternalRecord) := do
  match ← proofSyscall (.fstatat r) with
  | .error lookupError =>
    if (← get).operations.proofExceeded then
      chooseBudgetFailure r
      return none
    else if lookupError ≠ .ENOENT then
      chooseFailure .unsafeRecord (.record r)
      return none
    else
      match ← proofSyscall (.fstatat r) with
      | .error .ENOENT => return some none
      | _ =>
        chooseBudgetFailure r
        return none
  | .ok named =>
    if safe baseline r named then
      match ← proofSyscall (.openat r) with
      | .error _ =>
        chooseBudgetFailure r
        return none
      | .ok handle => return (← captureOpened baseline r pass handle named).map some
    else
      chooseFailure .unsafeRecord (.record r)
      return none

end CaptureOne

def recordsEqual : InternalRecord → InternalRecord → Prop
  | none, none => True
  | some first, some second => first.bytes = second.bytes ∧ sameSnapshot first.metadata second.metadata
  | _, _ => False

instance : (first second : InternalRecord) → Decidable (recordsEqual first second)
  | none, none => isTrue trivial
  | some _, some _ => inferInstanceAs (Decidable (_ ∧ _))
  | none, some _ => isFalse id
  | some _, none => isFalse id

/-- A record before this one was the same file. -/
def hasIdentityAlias (metadata : Record → Option Stat) (r : Record) : Bool :=
  match metadata r with
  | none => false
  | some candidate => r.prior.any fun q =>
    match metadata q with
    | none => false
    | some prior => sameIdentity prior candidate

/-- Goes through the records until one of them fails. -/
def untilFailure (visit : Record → CaptureM Bool) : List Record → CaptureM Unit
  | [] => return
  | r :: rest => do
    if ← visit r then untilFailure visit rest

section Passes
variable (baseline : Stat)

def firstPassRecord (r : Record) : CaptureM Bool := do
  if ← guardRoot baseline then
    match ← captureOne baseline r .first with
    | none => return false
    | some record =>
      modify fun s => { s with first := Function.update s.first r record }
      if hasIdentityAlias (← get).firstMetadata r then
        chooseFailure .recordIdentityAlias (.record r)
        return false
      else guardRoot baseline
  else return false

def secondPassRecord (r : Record) : CaptureM Bool := do
  if ← guardRoot baseline then
    match ← captureOne baseline r .second with
    | none => return false
    | some second =>
      if (second.bind PresentRecord.heldFirstPassFd).isSome then
        chooseFailure .unsafeRecord (.record r)
        return false
      else
        modify fun s => { s with secondMetadata := Function.update s.secondMetadata r (second.map PresentRecord.metadata) }
        if hasIdentityAlias (← get).secondMetadata r then
          chooseFailure .recordIdentityAlias (.record r)
          return false
        else if recordsEqual ((← get).first r) second then guardRoot baseline
        else
          chooseFailure .recordChanged (.record r)
          return false
  else return false

/-- The held descriptor and the name of a present record still show what the first pass saw. -/
def heldUnchanged (r : Record) (record : PresentRecord) : CaptureM Bool := do
  match record.heldFirstPassFd with
  | none => return false
  | some handle =>
    match ← proofSyscall (.fstat (.file handle)) with
    | .error _ => return false
    | .ok held =>
      if sameSnapshot held record.metadata then
        match ← proofSyscall (.fstatat r) with
        | .error _ => return false
        | .ok named => return sameSnapshot named record.metadata ∧ safe baseline r held
      else return false

def finalizeHeld (r : Record) : CaptureM Bool := do
  match (← get).first r with
  | none => return true
  | some record =>
    if ← heldUnchanged baseline r record then return true
    else
      chooseBudgetFailure r
      return false

def unlessFailed (next : CaptureM Unit) : CaptureM Unit := do
  if (← get).failure.isNone then next

/-- Both passes under a baseline. The final guard overrides what they found. -/
def observe : CaptureM Unit := do
  untilFailure (firstPassRecord baseline) recordSpecs
  unlessFailed do
    let _ ← guardRoot baseline
  unlessFailed (untilFailure (secondPassRecord baseline) recordSpecs)
  unlessFailed (untilFailure (finalizeHeld baseline) recordSpecs)
  if ← rootGuard baseline then return
  else modify fun s => { s with failure := some ⟨rootReason s, .stateDirectory⟩ }

end Passes

/-- The observed directory, where all that was observed with it allows its use. -/
def acceptedBaseline (descriptorFlagsOkay : Bool) : Except Errno Nat → Except Errno Nat → Except Errno Stat → Option Stat
  | .ok flags, .ok expectedOwner, .ok baseline =>
    if descriptorFlagsOkay ∧ readableStatus flags ∧ safeRoot baseline expectedOwner then some baseline else none
  | _, _, _ => none

/-- The directory as it must stay: private, ours, and open for reading. -/
def rootBaseline : CaptureM (Option Stat) := do
  let descriptorFlagsOkay ← descriptorHasCloseOnExec .root
  let statusFlags ← proofSyscall .getStatusFlags
  let owner ← proofSyscall .getEffectiveUid
  let snapshot ← proofSyscall (.fstat .root)
  match acceptedBaseline descriptorFlagsOkay statusFlags owner snapshot with
  | some baseline => return some baseline
  | none =>
    chooseFailure (if (← get).operations.proofExceeded then .proofBudgetExceeded else .unsafeStateDirectory) .stateDirectory
    return none

def closeHeld (r : Record) : CaptureM Unit := do
  match ((← get).first r).bind PresentRecord.heldFirstPassFd with
  | none => return
  | some handle =>
    if ← closeOnce (.file handle) then return
    else chooseCleanupFailure (.record r)

def closeRoot (rootOpen : Bool) : CaptureM Unit := do
  if rootOpen then
    if ← closeOnce .root then return
    else chooseCleanupFailure .stateDirectory
  else return

/-- Every descriptor is given back, and a failure to do so is what is reported. -/
def release (rootOpen : Bool) : CaptureM Unit := do
  recordSpecs.forM closeHeld
  closeRoot rootOpen
  modify fun s => if s.operations.cleanupExceeded then s.withCleanupFailure .stateDirectory else s
  modify fun s => { s with failure := s.cleanupFailure <|> s.failure }

def result : CaptureM CaptureResult :=
  return (← get).result

def captureDormantFixedRecords : CaptureM CaptureResult := do
  match ← proofSyscall .duplicateRoot with
  | .error _ =>
    chooseFailure (if (← get).operations.proofExceeded then .proofBudgetExceeded else .invalidStateDirectoryDescriptor)
      .stateDirectory
    release false
    result
  | .ok _ =>
    match ← rootBaseline with
    | none => release true
    | some baseline =>
      observe baseline
      release true
    result

end HyprShelld.FixedRecords
