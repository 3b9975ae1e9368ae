import HyprShelld.Component.Contract
import HyprShelld.Support.OrderedMap
import HyprShelld.Support.Run

/-! Inspections of packages: each session stages one package for its sender, has an inspector of its own
started through the service manager, and hands the inspected package out once. -/
namespace HyprShelld.Inspection
open Components

def maximumActiveSessions : Nat := 8
def maximumSessionsPerSender : Nat := 2
def maximumExpiredTombstones : Nat := 64
def maximumReportBytes : Nat := 1024 * 1024
/-- The expanded files with their paths and sizes, and the count of them. -/
def maximumMaterializedBytes : Nat := 128 * 1024 * 1024 + 512 * (2 + 255 + 8) + 4

def tokenPattern : Pattern := .charset lowerHexDigits 32 (some 32)

/-- The parts of a bus name. -/
def senderPart : List (Char × Char) := [('A', 'Z'), ('a', 'z'), ('0', '9'), ('_', '_'), ('-', '-')]

/-- A unique bus name of at least two parts, the last of which may be followed by a line feed. -/
def matchesSender (sender : QString) : Bool :=
  let codes := toUcs4 sender
  let body := if codes.getLast? = some 0x0a then codes.dropLast else codes
  match body with
  | [] => false
  | c :: rest =>
    let parts := rest.splitOn '.'.toNat
    c = ':'.toNat && 2 ≤ parts.length && parts.all fun part => part ≠ [] && part.all (Pattern.among senderPart)

def managerError (suffix : QString) : QString := qstr "org.hyprshelld.ComponentManager1.Error." ++ suffix

/-- Device, inode, size and the times of modification and change. -/
structure FileIdentity where
  device : UInt64
  inode : UInt64
  size : UInt64
  modifiedSeconds : Int
  modifiedNanoseconds : Int
  changedSeconds : Int
  changedNanoseconds : Int
  deriving DecidableEq

/-- A staged file as it is read: its bytes and its identity, which did not change in the meantime. -/
inductive StagedFile where
  | unreadable (error : QString)
  | present (bytes : QByteArray) (identity : FileIdentity)
  deriving DecidableEq

/-- What the file system answers about the files of one session. -/
structure Files where
  freezeError : Option QString := none
  spool : StagedFile
  report : StagedFile
  materialized : StagedFile
  deriving DecidableEq

/-- The fields of a report that bind it to its session. -/
structure PackageInspectionReport where
  inspectionToken : QString
  archiveSha256 : QString
  archiveSize : UInt64
  deriving DecidableEq

inductive SessionState where
  | pending
  | complete
  | failed
  deriving DecidableEq

structure Session where
  owner : QString
  archiveDigest : QString
  archiveSize : UInt64
  expiresAtMs : Int
  state : SessionState := .pending
  reportBytes : QByteArray := []
  report : Option PackageInspectionReport := none
  errorName : QString := []
  errorMessage : QString := []
  spoolIdentity : Option FileIdentity := none
  reportIdentity : Option FileIdentity := none
  materializedIdentity : Option FileIdentity := none
  deriving DecidableEq

structure Tombstone where
  owner : QString
  purgeAtMs : Int
  deriving DecidableEq

inductive StagedName where
  | spool
  | report
  | materialized
  deriving DecidableEq

structure LaunchRequest where
  token : QString
  archiveDigest : QString
  spoolPath : QString
  reportPath : QString
  materializedPath : QString
  deriving DecidableEq

/-- An inspector that is waited for. -/
structure PendingLaunch where
  request : LaunchRequest
  unitName : QString
  jobPath : QString := []
  startSubmitted : Bool := false
  deriving DecidableEq

inductive SubscriptionState where
  | notStarted
  | pending
  | ready
  | failed
  deriving DecidableEq

structure OperationError where
  errorName : QString
  errorMessage : QString
  deriving DecidableEq

structure LookupResult where
  state : SessionState
  archiveDigest : QString
  archiveSize : UInt64
  expiresAtMs : Int
  reportBytes : QByteArray
  spoolPath : QString
  materializedPath : QString
  errorName : QString
  errorMessage : QString
  deriving DecidableEq

structure Artifact where
  token : QString
  archiveDigest : QString
  archiveSize : UInt64
  reportBytes : QByteArray
  report : PackageInspectionReport
  spoolPath : QString
  materializedPath : QString
  deriving DecidableEq

/-- What passes between the senders, the sessions and the service manager, in order. -/
inductive Entry where
  | subscribe
  | startTransientUnit (unitName : QString) (request : LaunchRequest)
  | stopUnit (unitName : QString)
  | startRefused (unitName : QString)
  | jobRemoved (unitName result : QString)
  /-- A session becomes complete with these files. -/
  | accepted (token : QString) (files : Files)
  | inspectionFinished (owner token : QString) (reportBytes : QByteArray) (spoolPath materializedPath errorName errorMessage : QString)
  | begun (sender token archiveDigest : QString) (archiveSize : UInt64) (expiresAtMs : Int)
  | found (sender token : QString) (result : LookupResult)
  /-- An artifact released at a time, with the files as they are then. -/
  | taken (sender expectedArchiveDigest : QString) (now : Int) (files : Files) (artifact : Artifact)
  | cancelled (sender token : QString)
  | cancelledForSender (sender token : QString)
  | refused (sender token : QString) (error : OperationError)
  deriving DecidableEq

structure State where
  sessions : QMap Session := []
  expired : QMap Tombstone := []
  subscription : SubscriptionState := .notStarted
  pendingByToken : QMap PendingLaunch := []
  tokenByJobPath : QMap QString := []
  log : List Entry := []

def State.say (s : State) (e : Entry) : State := { s with log := s.log ++ [e] }

/-- What is given to the sessions when they are made, and the order of a hash in this process. -/
structure Setting where
  ownsSpool : Bool := true
  unavailableReason : QString := []
  timeToLiveMs : Int
  signalConnected : Bool := true
  executable : QString
  /-- Whether the slice name is one. -/
  sliceValid : Bool := true
  filePath : QString → StagedName → QString
  sha256 : QByteArray → QString
  parsePackageInspectionReport : QByteArray → Option PackageInspectionReport
  hashOrder : List QString → List QString
  hashOrder_perm : ∀ keys, (hashOrder keys).Perm keys

section Launcher
variable (setting : Setting)

def unitNameForToken (token : QString) : QString :=
  if hasMatch tokenPattern token then qstr "hyprshelld-component-inspect-" ++ token ++ qstr ".service" else []

def isAbsolutePath (path : QString) : Bool := path.head? = some (unit '/') && !path.contains 0

def submitStart (token : QString) (s : State) : State :=
  match s.pendingByToken.lookup token with
  | none => s
  | some pending =>
    if pending.startSubmitted then s
    else
      { s with pendingByToken := QMap.insert token { pending with startSubmitted := true } s.pendingByToken }.say
        (.startTransientUnit pending.unitName pending.request)

def ensureSubscribed (s : State) : State :=
  if s.subscription ≠ .notStarted then s else { s with subscription := .pending }.say .subscribe

/-- SystemdComponentInspectorLauncher::start, on a bus that is connected or not. -/
def launcherStart (connected : Bool) (request : LaunchRequest) (s : State) : Except QString State :=
  if !connected || !setting.signalConnected then .error (qstr "The systemd user manager bus is unavailable")
  else if !isAbsolutePath setting.executable || !setting.sliceValid || !hasMatch tokenPattern request.token ||
      !hasMatch digestPattern request.archiveDigest || !isAbsolutePath request.spoolPath || !isAbsolutePath request.reportPath ||
      !isAbsolutePath request.materializedPath || request.spoolPath = request.reportPath ||
      request.spoolPath = request.materializedPath || request.reportPath = request.materializedPath ||
      s.pendingByToken.contains request.token then
    .error (qstr "The inspector launch request is invalid")
  else if s.subscription = .failed then .error (qstr "The systemd user manager signal subscription failed")
  else
    let s := { s with
      pendingByToken := QMap.insert request.token { request, unitName := unitNameForToken request.token } s.pendingByToken }
    .ok (if s.subscription = .ready then submitStart request.token s else ensureSubscribed s)

def forgetJob (pending : PendingLaunch) (tokenByJobPath : QMap QString) : QMap QString :=
  if pending.jobPath ≠ [] then QMap.remove pending.jobPath tokenByJobPath else tokenByJobPath

/-- SystemdComponentInspectorLauncher::cancel. -/
def launcherCancel (token : QString) (s : State) : State :=
  match s.pendingByToken.lookup token with
  | none => s
  | some pending =>
    let s := { s with
      tokenByJobPath := forgetJob pending s.tokenByJobPath
      pendingByToken := QMap.remove token s.pendingByToken }
    if pending.startSubmitted then s.say (.stopUnit pending.unitName) else s

end Launcher

section Files
variable (setting : Setting)

def untrusted : QString := qstr "A staged inspection file has unsafe type, ownership, links, permissions, or size"

def statPrivateFile (minimumSize maximumSize : Nat) : StagedFile → Except QString FileIdentity
  | .unreadable error => .error error
  | .present bytes identity =>
    if bytes.length < minimumSize || maximumSize < bytes.length then .error untrusted else .ok identity

def readPrivateFile (minimumSize maximumSize : Nat) : StagedFile → Except QString (QByteArray × FileIdentity)
  | .unreadable error => .error error
  | .present bytes identity =>
    if bytes.length < minimumSize || maximumSize < bytes.length then .error untrusted else .ok (bytes, identity)

def hashPrivateFile (expectedSize : UInt64) : StagedFile → Except QString (QString × FileIdentity)
  | .unreadable error => .error error
  | .present bytes identity =>
    if bytes.length ≠ expectedSize.toNat then .error (qstr "The staged package file is no longer trustworthy")
    else .ok (setting.sha256 bytes, identity)

def Session.loadSuccessfulOutputs (session : Session) (token : QString) (files : Files) : Except QString Session := do
  if let some error := files.freezeError then throw error
  let (spoolDigest, spoolIdentity) ← hashPrivateFile setting session.archiveSize files.spool
  if spoolDigest ≠ session.archiveDigest then throw (qstr "The inspector outputs do not match the staged package")
  let (reportBytes, reportIdentity) ← readPrivateFile 1 maximumReportBytes files.report
  let materializedIdentity ← statPrivateFile 1 maximumMaterializedBytes files.materialized
  match setting.parsePackageInspectionReport reportBytes with
  | some report =>
    if report.inspectionToken ≠ token || report.archiveSha256 ≠ session.archiveDigest ||
        report.archiveSize ≠ session.archiveSize then
      throw (qstr "The inspector returned a malformed or mismatched report")
    return { session with
      reportBytes
      report := some report
      spoolIdentity := some spoolIdentity
      reportIdentity := some reportIdentity
      materializedIdentity := some materializedIdentity }
  | none => throw (qstr "The inspector returned a malformed or mismatched report")

def Session.revalidateComplete (session : Session) (files : Files) : Except QString Unit := do
  if session.state ≠ .complete || session.report.isNone then throw (qstr "The inspection is not complete")
  let (spoolDigest, spool) ← hashPrivateFile setting session.archiveSize files.spool
  let (reportBytes, report) ← readPrivateFile 1 maximumReportBytes files.report
  let materialized ← statPrivateFile 1 maximumMaterializedBytes files.materialized
  if session.spoolIdentity ≠ some spool || session.reportIdentity ≠ some report ||
      session.materializedIdentity ≠ some materialized || spoolDigest ≠ session.archiveDigest ||
      reportBytes ≠ session.reportBytes then
    throw (qstr "The accepted inspection artifacts changed after validation")

end Files

section Operations
variable (setting : Setting)

def countForSender (sender : QString) (s : State) : Nat := s.sessions.countP (·.2.owner = sender)

def pruneExpired (now : Int) (expired : QMap Tombstone) : QMap Tombstone := expired.filter (now < ·.2.purgeAtMs)

/-- With one too many, those that the hash lists first go. -/
def addExpired (session : Session) (token : QString) (now : Int) (expired : QMap Tombstone) : QMap Tombstone :=
  let expired := QMap.insert token ⟨session.owner, now + setting.timeToLiveMs⟩ expired
  let dropped := (setting.hashOrder expired.keys).take (expired.length - maximumExpiredTombstones)
  expired.filter (!dropped.contains ·.1)

def eraseSession (token : QString) (s : State) : State := { s with sessions := QMap.remove token s.sessions }

def finishedWithError (owner token errorName errorMessage : QString) (reportBytes : QByteArray) : Entry :=
  .inspectionFinished owner token reportBytes [] [] errorName errorMessage

def expireOne (now : Int) (s : State) (token : QString) : State :=
  match s.sessions.lookup token with
  | none => s
  | some session =>
    if now < session.expiresAtMs then s
    else
      let s := launcherCancel token s
      let s := { s with expired := addExpired setting session token now s.expired }
      (eraseSession token s).say (finishedWithError session.owner token (managerError (qstr "InspectionExpired"))
        (qstr "The package inspection expired before it was installed") [])

def expireNow (now : Int) (s : State) : State :=
  if !setting.ownsSpool then s
  else
    let s := { s with expired := pruneExpired now s.expired }
    (setting.hashOrder s.sessions.keys).foldl (expireOne setting now) s

/-- What the staging of a package comes to: the token that was made up, and the bytes copied. -/
inductive Staging where
  | failed (error : OperationError)
  | staged (token : QString) (bytes : QByteArray)

def unavailable : OperationError :=
  ⟨managerError (qstr "InspectionUnavailable"),
    if setting.unavailableReason = [] then qstr "Package inspection is unavailable" else setting.unavailableReason⟩

def launchRequest (token archiveDigest : QString) : LaunchRequest :=
  ⟨token, archiveDigest, setting.filePath token .spool, setting.filePath token .report, setting.filePath token .materialized⟩

def beginInspection (sender : QString) (now : Int) (staging : Staging) (later : Int) (connected : Bool) (s : State) : State :=
  if !setting.ownsSpool || setting.timeToLiveMs ≤ 0 || 255 < sender.length || !matchesSender sender then
    s.say (.refused sender [] (unavailable setting))
  else
    let s := expireNow setting now s
    if maximumActiveSessions ≤ s.sessions.length || maximumSessionsPerSender ≤ countForSender sender s then
      s.say (.refused sender [] ⟨managerError (qstr "InspectionUnavailable"), qstr "Too many package inspections are active"⟩)
    else
      match staging with
      | .failed error => s.say (.refused sender [] error)
      | .staged token bytes =>
        if !hasMatch tokenPattern token || s.sessions.contains token then
          s.say (.refused sender [] ⟨managerError (qstr "InspectionUnavailable"), qstr "Cannot allocate a unique inspection session"⟩)
        else
          let session : Session :=
            { owner := sender
              archiveDigest := setting.sha256 bytes
              archiveSize := UInt64.ofNat bytes.length
              expiresAtMs := later + setting.timeToLiveMs }
          match launcherStart setting connected (launchRequest setting token session.archiveDigest)
              { s with sessions := QMap.insert token session s.sessions } with
          | .error launchError =>
            s.say (.refused sender token ⟨managerError (qstr "InspectionUnavailable"), launchError⟩)
          | .ok s => s.say (.begun sender token session.archiveDigest session.archiveSize session.expiresAtMs)

structure LaunchResult where
  success : Bool
  errorName : QString := []
  errorMessage : QString := []

/-- What the clock and the files answer while a session finishes. -/
structure Finishing where
  now : Int
  later : Int
  files : Files
  /-- As much of the report as can be read. -/
  review : QByteArray := []

def failSession (token : QString) (session : Session) (finishing : Finishing) (name message : QString) (s : State) : State :=
  (eraseSession token s).say (finishedWithError session.owner token
    (if name = [] then managerError (qstr "InspectionUnavailable") else name)
    (if message = [] then qstr "The package inspector failed" else message) finishing.review)

def launcherFinished (token : QString) (result : LaunchResult) (finishing : Finishing) (s : State) : State :=
  if !setting.ownsSpool then s
  else
    match s.sessions.lookup token with
    | none => s
    | some session =>
      if session.state ≠ .pending then s
      else if session.expiresAtMs ≤ finishing.now then expireNow setting finishing.later s
      else if !result.success then failSession token session finishing result.errorName result.errorMessage s
      else
        match session.loadSuccessfulOutputs setting token finishing.files with
        | .error outputError =>
          failSession token session finishing (managerError (qstr "InspectionUnavailable")) outputError s
        | .ok complete =>
          let complete := { complete with state := .complete }
          (({ s with sessions := QMap.insert token complete s.sessions }.say (.accepted token finishing.files)).say
            (.inspectionFinished complete.owner token complete.reportBytes (setting.filePath token .spool)
              (setting.filePath token .materialized) [] []))

/-- SystemdComponentInspectorLauncher::complete. -/
def launcherComplete (token : QString) (result : LaunchResult) (finishing : Finishing) (s : State) : State :=
  match s.pendingByToken.lookup token with
  | none => s
  | some pending =>
    launcherFinished setting token result finishing { s with
      tokenByJobPath := forgetJob pending s.tokenByJobPath
      pendingByToken := QMap.remove token s.pendingByToken }

def launchError (name message : QString) : LaunchResult :=
  ⟨false, if name = [] then qstr "org.hyprshelld.ComponentInspector.Error.LaunchFailed" else name,
    if message = [] then qstr "The systemd inspector launch failed" else message⟩

/-- The reply to Subscribe, or the name and text of an error. -/
def subscribeFinished (error : Option (QString × QString)) (finishing : QString → Finishing) (s : State) : State :=
  match error with
  | some (name, message) =>
    let s := { s with subscription := .failed }
    (setting.hashOrder s.pendingByToken.keys).foldl (fun s token => launcherComplete setting token
      (launchError name (if message = [] then qstr "The systemd subscription reply was invalid" else message))
      (finishing token) s) s
  | none =>
    let s := { s with subscription := .ready }
    (setting.hashOrder s.pendingByToken.keys).foldl (fun s token => submitStart token s) s

/-- The reply to StartTransientUnit: the path of the job, or the name and text of an error. -/
def startFinished (token : QString) (reply : Except (QString × QString) QString) (finishing : Finishing) (s : State) : State :=
  match s.pendingByToken.lookup token with
  | none => s
  | some pending =>
    match reply with
    | .error (name, message) =>
      launcherComplete setting token
        (launchError name (if message = [] then qstr "StartTransientUnit returned an invalid reply" else message)) finishing
        (s.say (.startRefused pending.unitName))
    | .ok jobPath =>
      if jobPath = [] then
        launcherComplete setting token (launchError [] (qstr "StartTransientUnit returned an empty job path")) finishing
          (s.say (.startRefused pending.unitName))
      else
        { s with
          pendingByToken := QMap.insert token { pending with jobPath } s.pendingByToken
          tokenByJobPath := QMap.insert jobPath token s.tokenByJobPath }

def jobRemoved (jobPath unitName result : QString) (finishing : QString → Finishing) (s : State) : State :=
  let s := s.say (.jobRemoved unitName result)
  let known := s.tokenByJobPath.lookup jobPath
  let s := { s with tokenByJobPath := QMap.remove jobPath s.tokenByJobPath }
  -- A short inspection may be over before the reply that names its job.
  let token := known <|> (setting.hashOrder s.pendingByToken.keys).find? fun token =>
    (s.pendingByToken.lookup token).any (·.unitName = unitName)
  match token with
  | none => s
  | some token =>
    launcherComplete setting token
      (if result = qstr "done" then ⟨true, [], []⟩
        else ⟨false, qstr "org.hyprshelld.ComponentInspector.Error.HelperFailed",
          qstr "The inspector unit finished with result " ++ result⟩) (finishing token) s

/-- Why there is no session for a token. -/
def missingSession (sender token : QString) (s : State) : OperationError :=
  match s.expired.lookup token with
  | none => ⟨managerError (qstr "UnknownInspection"), qstr "The inspection token is unknown"⟩
  | some tombstone =>
    if tombstone.owner ≠ sender then
      ⟨managerError (qstr "InspectionOwnerMismatch"), qstr "The inspection belongs to another caller"⟩
    else ⟨managerError (qstr "InspectionExpired"), qstr "The inspection has expired"⟩

def ownerMismatch : OperationError :=
  ⟨managerError (qstr "InspectionOwnerMismatch"), qstr "The inspection belongs to another caller"⟩

def lookupResult (token : QString) (session : Session) : LookupResult where
  state := session.state
  archiveDigest := session.archiveDigest
  archiveSize := session.archiveSize
  expiresAtMs := session.expiresAtMs
  reportBytes := session.reportBytes
  spoolPath := if session.state = .complete then setting.filePath token .spool else []
  materializedPath := if session.state = .complete then setting.filePath token .materialized else []
  errorName := session.errorName
  errorMessage := session.errorMessage

def lookup (sender token : QString) (now : Int) (files : Files) (s : State) : State :=
  if !setting.ownsSpool then s.say (.refused sender token (unavailable setting))
  else
    let s := expireNow setting now s
    match s.sessions.lookup token with
    | none => s.say (.refused sender token (missingSession sender token s))
    | some session =>
      if session.owner ≠ sender then s.say (.refused sender token ownerMismatch)
      else if session.state = .complete then
        match session.revalidateComplete setting files with
        | .ok _ => s.say (.found sender token (lookupResult setting token session))
        | .error validationError =>
          -- The session stays, as failed, until it expires.
          let failed : Session :=
            { session with
              state := .failed
              errorName := managerError (qstr "InspectionUnavailable")
              errorMessage := validationError }
          ({ s with sessions := QMap.insert token failed s.sessions }.say
            (finishedWithError session.owner token failed.errorName failed.errorMessage [])).say
            (.found sender token (lookupResult setting token failed))
      else s.say (.found sender token (lookupResult setting token session))

/-- A session that is taken leaves the table; its files go with the artifact. -/
def takeForInstall (sender token expectedArchiveDigest : QString) (now : Int) (files : Files) (leaseError : Option QString)
    (s : State) : State :=
  if !setting.ownsSpool then s.say (.refused sender token (unavailable setting))
  else
    let s := expireNow setting now s
    match s.sessions.lookup token with
    | none => s.say (.refused sender token (missingSession sender token s))
    | some session =>
      if session.owner ≠ sender then s.say (.refused sender token ownerMismatch)
      else if !hasMatch digestPattern expectedArchiveDigest || expectedArchiveDigest ≠ session.archiveDigest then
        s.say (.refused sender token ⟨managerError (qstr "ArchiveDigestMismatch"),
          qstr "The expected archive digest does not own this inspection"⟩)
      else
        match session.report with
        | none => s.say (.refused sender token (notComplete session))
        | some report =>
          if session.state ≠ .complete then s.say (.refused sender token (notComplete session))
          else
            match session.revalidateComplete setting files, leaseError with
            | .error validationError, _ =>
              (eraseSession token s).say
                (.refused sender token ⟨managerError (qstr "InspectionUnavailable"), validationError⟩)
            | .ok _, some error => s.say (.refused sender token ⟨managerError (qstr "InspectionUnavailable"), error⟩)
            | .ok _, none =>
              (eraseSession token s).say (.taken sender expectedArchiveDigest now files
                { token
                  archiveDigest := session.archiveDigest
                  archiveSize := session.archiveSize
                  reportBytes := session.reportBytes
                  report
                  spoolPath := setting.filePath token .spool
                  materializedPath := setting.filePath token .materialized })
where
  notComplete (session : Session) : OperationError :=
    ⟨if session.errorName = [] then managerError (qstr "InspectionUnavailable") else session.errorName,
      if session.errorMessage = [] then qstr "The inspection has not completed successfully" else session.errorMessage⟩

def cancel (sender token : QString) (now : Int) (s : State) : State :=
  if !setting.ownsSpool then s.say (.refused sender token (unavailable setting))
  else
    let s := expireNow setting now s
    match s.sessions.lookup token with
    | none => s.say (.refused sender token (missingSession sender token s))
    | some session =>
      if session.owner ≠ sender then s.say (.refused sender token ownerMismatch)
      else (eraseSession token (launcherCancel token s)).say (.cancelled sender token)

def cancelOneForSender (sender : QString) (s : State) (token : QString) : State :=
  match s.sessions.lookup token with
  | none => s
  | some session =>
    if session.owner ≠ sender then s
    else (eraseSession token (launcherCancel token s)).say (.cancelledForSender sender token)

def cancelAllForSender (sender : QString) (s : State) : State :=
  if !setting.ownsSpool then s else (setting.hashOrder s.sessions.keys).foldl (cancelOneForSender sender) s

end Operations

/-- Calls of the senders, the timer, and what arrives from the service manager, each with what the clock and the files answer
meanwhile. -/
inductive Event where
  | begin (sender : QString) (now : Int) (staging : Staging) (later : Int) (connected : Bool)
  | lookup (sender token : QString) (now : Int) (files : Files)
  | takeForInstall (sender token expectedArchiveDigest : QString) (now : Int) (files : Files) (leaseError : Option QString)
  | cancel (sender token : QString) (now : Int)
  | cancelAllForSender (sender : QString)
  | expireNow (now : Int)
  | subscribeFinished (error : Option (QString × QString)) (finishing : QString → Finishing)
  | startFinished (token : QString) (reply : Except (QString × QString) QString) (finishing : Finishing)
  | jobRemoved (jobPath unitName result : QString) (finishing : QString → Finishing)

def step (setting : Setting) (s : State) : Event → State
  | .begin sender now staging later connected => beginInspection setting sender now staging later connected s
  | .lookup sender token now files => lookup setting sender token now files s
  | .takeForInstall sender token expected now files leaseError => takeForInstall setting sender token expected now files leaseError s
  | .cancel sender token now => cancel setting sender token now s
  | .cancelAllForSender sender => cancelAllForSender setting sender s
  | .expireNow now => expireNow setting now s
  | .subscribeFinished error finishing => subscribeFinished setting error finishing s
  | .startFinished token reply finishing => startFinished setting token reply finishing s
  | .jobRemoved jobPath unitName result finishing => jobRemoved setting jobPath unitName result finishing s

end HyprShelld.Inspection
