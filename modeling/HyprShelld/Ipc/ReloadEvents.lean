import HyprShelld.Support.Lines
import HyprShelld.Text.Utf8

/-! The proof of a reload: the lines of the Hyprland event socket after the drain. -/
namespace HyprShelld.Ipc

def maximumEventBufferBytes : Nat := 256 * 1024
def maximumEventFrameBytes : Nat := 64 * 1024

/-- The size of the buffer that one read fills. -/
def readBytes : Nat := 8192

def newline : UInt8 := 0x0a

@[irreducible] def configReloaded : QByteArray := toUtf8 (qstr "configreloaded>>")

inductive EventFailure where
  | queuedStreamExceeded
  | frameExceeded
  | partialFrameExceeded
  | bufferExceeded
  | reloadedBeforeNonce
  | streamClosed
  | streamFailed
  | streamUnreadable
  | deadlineExpired
  deriving DecidableEq, Repr

def EventFailure.text : EventFailure → String
  | queuedStreamExceeded => "The queued Hyprland event stream exceeded its limit."
  | frameExceeded => "A Hyprland event frame exceeded its limit."
  | partialFrameExceeded => "A partial Hyprland event frame exceeded its limit."
  | bufferExceeded => "The Hyprland event buffer exceeded its limit."
  | reloadedBeforeNonce => "Hyprland reloaded before emitting the expected activation nonce."
  | streamClosed => "The Hyprland event stream closed."
  | streamFailed => "The Hyprland event stream failed."
  | streamUnreadable => "The Hyprland event stream could not be read."
  | deadlineExpired => "The Hyprland activation deadline expired."

/-- The text of an error says which failure it was. -/
theorem EventFailure.text_injective : Function.Injective EventFailure.text := by
  intro a b h
  cases a <;> cases b <;> first
    | rfl
    | exact absurd h (by decide)

/-- What one successful read returns. -/
structure Chunk where
  bytes : QByteArray
  nonempty : bytes ≠ []
  fits : bytes.length ≤ readBytes

structure Session where
  eventBuffer : QByteArray := []

/-- One round of the drain. -/
inductive Drain where
  | read (chunk : Chunk)
  | interrupted
  | closed
  | unreadable

/-- The socket is drained when a read would block, where the list of reads ends. -/
def drainLoop : Nat → List Drain → Except EventFailure Unit
  | _, [] => .ok ()
  | drained, .read chunk :: rest =>
    if chunk.bytes.length > maximumEventBufferBytes - drained then .error .queuedStreamExceeded
    else drainLoop (drained + chunk.bytes.length) rest
  | drained, .interrupted :: rest => drainLoop drained rest
  | _, .closed :: _ => .error .streamClosed
  | _, .unreadable :: _ => .error .streamUnreadable

def drainEvents (reads : List Drain) (session : Session) : Except EventFailure Session := do
  let session := { session with eventBuffer := [] }
  drainLoop 0 reads
  pure session

/-- The line that a renderer's nonce makes Hyprland emit; without a nonce none is expected. -/
def nonceEvent (exactNonce : QString) : QByteArray :=
  if exactNonce = [] then []
  else toUtf8 (qstr "custom>>hyprshelld:") ++ exactNonce.map fun u => if u.toNat < 0x100 then UInt8.ofNat u.toNat else 0x3f

/-- What ends the wait while lines are handled. -/
inductive Verdict where
  | reloaded
  | failed (failure : EventFailure)
  deriving DecidableEq

/-- One complete line; what is kept is whether the nonce was observed. -/
def handleFrame (exactNonceEvent : QByteArray) (nonceObserved : Bool) (frame : QByteArray) : Except Verdict Bool :=
  if frame.length > maximumEventFrameBytes then .error (.failed .frameExceeded)
  else if !nonceObserved && frame = exactNonceEvent then .ok true
  else if frame = configReloaded then
    if !nonceObserved then .error (.failed .reloadedBeforeNonce) else .error .reloaded
  else .ok nonceObserved

def handleFrames (exactNonceEvent : QByteArray) (nonceObserved : Bool) (frames : List QByteArray) : Except Verdict Bool :=
  frames.foldlM (handleFrame exactNonceEvent) nonceObserved

/-- How the poll and the read after it end the wait. -/
inductive Ending where
  | closed
  | failed
  | unreadable
  | timedOut

def Ending.failure : Ending → EventFailure
  | closed => .streamClosed
  | failed => .streamFailed
  | unreadable => .streamUnreadable
  | timedOut => .deadlineExpired

/-- One round of the wait: the deadline was found expired before the lines were looked at, or the
poll and the read after it returned. -/
inductive Turn where
  | expired
  | read (chunk : Chunk)
  | interrupted
  | ended (ending : Ending)

/-- The rounds after the last one given find the deadline expired in the poll. -/
def waitRounds (exactNonceEvent : QByteArray) : Session → Bool → List Turn → Except EventFailure Unit
  | _, _, .expired :: _ => .error .deadlineExpired
  | session, nonceObserved, [] => (afterFrames exactNonceEvent session nonceObserved) fun _ _ => .error .deadlineExpired
  | session, nonceObserved, .read chunk :: rest =>
    (afterFrames exactNonceEvent session nonceObserved) fun session nonceObserved =>
      if chunk.bytes.length > maximumEventBufferBytes - session.eventBuffer.length then .error .bufferExceeded
      else waitRounds exactNonceEvent { session with eventBuffer := session.eventBuffer ++ chunk.bytes } nonceObserved rest
  | session, nonceObserved, .interrupted :: rest =>
    (afterFrames exactNonceEvent session nonceObserved) fun session nonceObserved =>
      waitRounds exactNonceEvent session nonceObserved rest
  | session, nonceObserved, .ended ending :: _ =>
    (afterFrames exactNonceEvent session nonceObserved) fun _ _ => .error ending.failure
where
  /-- The complete lines of the buffer are handled first, and what is left over must still be able to
  become a line. -/
  afterFrames (exactNonceEvent : QByteArray) (session : Session) (nonceObserved : Bool)
      (next : Session → Bool → Except EventFailure Unit) : Except EventFailure Unit :=
    match handleFrames exactNonceEvent nonceObserved (Lines.complete newline session.eventBuffer) with
    | .error .reloaded => .ok ()
    | .error (.failed failure) => .error failure
    | .ok nonceObserved =>
      let session := { session with eventBuffer := Lines.unfinished newline session.eventBuffer }
      if session.eventBuffer.length > maximumEventFrameBytes then .error .partialFrameExceeded
      else next session nonceObserved

def waitForReloadEvents (exactNonceEvent : QByteArray) (session : Session) (turns : List Turn) : Except EventFailure Unit :=
  waitRounds exactNonceEvent session exactNonceEvent.isEmpty turns

/-- The drain is the last operation before the request; the reply to the request is `reply`. -/
def reloadBarrier (drains : List Drain) (reply : Option QByteArray) (exactNonceEvent : QByteArray) (turns : List Turn)
    (session : Session) : Except (Option EventFailure) Unit :=
  match drainEvents drains session with
  | .error failure => .error (some failure)
  | .ok session =>
    if reply ≠ some (toUtf8 (qstr "ok")) then .error none
    else (waitForReloadEvents exactNonceEvent session turns).mapError some

section Frames
variable {exactNonceEvent : QByteArray} {nonceObserved : Bool}

theorem handleFrames_append (before after : List QByteArray) :
    handleFrames exactNonceEvent nonceObserved (before ++ after) =
      (handleFrames exactNonceEvent nonceObserved before).bind fun observed =>
        handleFrames exactNonceEvent observed after := List.foldlM_append

theorem handleFrames_cons (frame : QByteArray) (frames : List QByteArray) :
    handleFrames exactNonceEvent nonceObserved (frame :: frames) =
      (handleFrame exactNonceEvent nonceObserved frame).bind fun observed => handleFrames exactNonceEvent observed frames :=
  List.foldlM_cons

/-- A line that is too long ends the wait, however it starts. -/
theorem handleFrames_long {frame : QByteArray} (frames : List QByteArray) (h : maximumEventFrameBytes < frame.length) :
    handleFrames exactNonceEvent nonceObserved (frame :: frames) = .error (.failed .frameExceeded) := by
  rw [handleFrames_cons, handleFrame, if_pos h]
  rfl

/-- The lines up to the first reload line: the nonce is among those before it, and none is too long. -/
def ReloadsWithin (exactNonceEvent : QByteArray) (nonceObserved : Bool) (lines : List QByteArray) : Prop :=
  ∃ before after, lines = before ++ configReloaded :: after ∧ configReloaded ∉ before ∧
    (nonceObserved = true ∨ exactNonceEvent ∈ before) ∧
    ∀ line ∈ before ++ [configReloaded], line.length ≤ maximumEventFrameBytes

theorem reloadsWithin_cons {frame : QByteArray} {frames : List QByteArray} :
    ReloadsWithin exactNonceEvent nonceObserved (frame :: frames) ↔ frame.length ≤ maximumEventFrameBytes ∧
      if frame = configReloaded then nonceObserved = true
      else ReloadsWithin exactNonceEvent (nonceObserved || frame = exactNonceEvent) frames := by
  constructor
  · rintro ⟨before, after, hlines, hfirst, hnonce, hlength⟩
    cases before with
    | nil =>
      obtain ⟨rfl, rfl⟩ := List.cons_eq_cons.mp hlines
      refine ⟨hlength _ (by simp), ?_⟩
      rw [if_pos rfl]
      simpa using hnonce
    | cons line before =>
      obtain ⟨rfl, rfl⟩ := List.cons_eq_cons.mp hlines
      refine ⟨hlength _ (by simp), ?_⟩
      have hframe : frame ≠ configReloaded := by
        rintro rfl
        exact hfirst List.mem_cons_self
      rw [if_neg hframe]
      refine ⟨before, after, rfl, fun h => hfirst (List.mem_cons_of_mem _ h), ?_, fun l hl => hlength l ?_⟩
      · rcases hnonce with h | h
        · exact .inl (by simp [h])
        · rcases List.mem_cons.mp h with rfl | h
          · exact .inl (by simp)
          · exact .inr h
      · exact List.mem_cons_of_mem _ hl
  · rintro ⟨hlong, h⟩
    split_ifs at h with hframe
    · subst hframe
      exact ⟨[], frames, rfl, List.not_mem_nil, .inl h, fun line hline => List.mem_singleton.mp hline ▸ hlong⟩
    · obtain ⟨before, after, rfl, hfirst, hnonce, hlength⟩ := h
      refine ⟨frame :: before, after, rfl, List.not_mem_cons_of_ne_of_not_mem (Ne.symm hframe) hfirst, ?_, ?_⟩
      · rcases hnonce with h | h
        · rcases Bool.or_eq_true_iff.mp h with h | h
          · exact .inl h
          · exact .inr (by simp [of_decide_eq_true h])
        · exact .inr (List.mem_cons_of_mem _ h)
      · intro line hline
        rcases List.mem_cons.mp hline with rfl | hline
        · exact hlong
        · exact hlength line hline

/-- The first reload line decides. -/
theorem handleFrames_reloaded_iff (hnonce : exactNonceEvent ≠ configReloaded) {frames : List QByteArray} :
    handleFrames exactNonceEvent nonceObserved frames = .error .reloaded ↔
      ReloadsWithin exactNonceEvent nonceObserved frames := by
  induction frames generalizing nonceObserved with
  | nil =>
    constructor
    · exact fun h => by cases h
    · rintro ⟨before, after, h, -⟩
      simp at h
  | cons frame frames ih =>
    rw [reloadsWithin_cons]
    by_cases hlong : frame.length ≤ maximumEventFrameBytes
    · rw [handleFrames_cons, handleFrame, if_neg (Nat.not_lt.mpr hlong)]
      by_cases hframe : frame = configReloaded
      · subst hframe
        cases nonceObserved <;> simp [hlong, Ne.symm hnonce, Except.bind]
      · rw [if_neg hframe, if_neg hframe, ← ih]
        by_cases he : frame = exactNonceEvent
        · subst he
          cases nonceObserved <;> simp [hlong, Except.bind]
        · simp [hlong, he, Except.bind]
    · rw [handleFrames_long frames (Nat.not_le.mp hlong)]
      simp [hlong]

end Frames

section Rounds
variable {exactNonceEvent : QByteArray} {nonceObserved : Bool} {session : Session}

/-- The bytes that the rounds read. -/
def received : List Turn → QByteArray
  | .read chunk :: rest => chunk.bytes ++ received rest
  | .interrupted :: rest => received rest
  | _ => []

/-- The sequence of bytes proves a reload. -/
def Reloads (exactNonceEvent bytes : QByteArray) : Prop :=
  ReloadsWithin exactNonceEvent exactNonceEvent.isEmpty (Lines.complete newline bytes)

/-- One round: what proves a reload does so for the whole buffer if what it hands on does with the bytes still to come. -/
theorem afterFrames_ok {next : Session → Bool → Except EventFailure Unit} (tail : QByteArray)
    (hnext : ∀ observed, (Lines.unfinished newline session.eventBuffer).length ≤ maximumEventFrameBytes →
      next ⟨Lines.unfinished newline session.eventBuffer⟩ observed = .ok () →
        handleFrames exactNonceEvent observed
          (Lines.complete newline (Lines.unfinished newline session.eventBuffer ++ tail)) = .error .reloaded)
    (h : waitRounds.afterFrames exactNonceEvent session nonceObserved next = .ok ()) :
    handleFrames exactNonceEvent nonceObserved (Lines.complete newline (session.eventBuffer ++ tail)) = .error .reloaded := by
  rw [Lines.complete_append, handleFrames_append]
  rw [waitRounds.afterFrames] at h
  cases hverdict : handleFrames exactNonceEvent nonceObserved (Lines.complete newline session.eventBuffer) with
  | error verdict =>
    rw [hverdict] at h
    cases verdict with
    | reloaded => rfl
    | failed failure => cases h
  | ok observed =>
    rw [hverdict] at h
    dsimp only at h
    split_ifs at h with hlong
    exact hnext observed (Nat.not_lt.mp hlong) h

/-- The other way round, where nothing else ends the wait. -/
theorem afterFrames_proved {next : Session → Bool → Except EventFailure Unit} (tail : QByteArray)
    (hnext : ∀ observed, (Lines.unfinished newline session.eventBuffer).length ≤ maximumEventFrameBytes →
      handleFrames exactNonceEvent observed
          (Lines.complete newline (Lines.unfinished newline session.eventBuffer ++ tail)) = .error .reloaded →
        next ⟨Lines.unfinished newline session.eventBuffer⟩ observed = .ok ())
    (h : handleFrames exactNonceEvent nonceObserved (Lines.complete newline (session.eventBuffer ++ tail)) = .error .reloaded) :
    waitRounds.afterFrames exactNonceEvent session nonceObserved next = .ok () := by
  rw [Lines.complete_append, handleFrames_append] at h
  rw [waitRounds.afterFrames]
  cases hverdict : handleFrames exactNonceEvent nonceObserved (Lines.complete newline session.eventBuffer) with
  | error verdict =>
    rw [hverdict] at h
    obtain rfl := Except.error.inj h
    rfl
  | ok observed =>
    rw [hverdict] at h
    dsimp only [Except.bind] at h ⊢
    split_ifs with hlong
    · rcases @Lines.complete_unfinished_append _ _ newline session.eventBuffer tail with hlines | ⟨line, lines, hlines⟩
      · rw [hlines] at h
        cases h
      · rw [hlines, handleFrames_long lines (by rw [List.length_append]; omega)] at h
        cases h
    · exact hnext observed (Nat.not_lt.mp hlong) h

/-- Reads fit behind what is left over, so the limit of the buffer is never reached. -/
theorem chunk_fits (chunk : Chunk) {buffer : QByteArray} (h : buffer.length ≤ maximumEventFrameBytes) :
    ¬ chunk.bytes.length > maximumEventBufferBytes - buffer.length := by
  have hchunk := chunk.fits
  unfold maximumEventFrameBytes readBytes maximumEventBufferBytes at *
  omega

/-- What is left over proves nothing by itself. -/
theorem handleFrames_leftover (buffer : QByteArray) : handleFrames exactNonceEvent nonceObserved
    (Lines.complete newline (Lines.unfinished newline buffer ++ [])) ≠ .error .reloaded := by
  rw [List.append_nil, (Lines.split_unfinished buffer).1]
  exact fun h => by cases h

/-- A reload that some round proves is proved by the bytes as a whole. -/
theorem waitRounds_ok {turns : List Turn} (h : waitRounds exactNonceEvent session nonceObserved turns = .ok ()) :
    handleFrames exactNonceEvent nonceObserved (Lines.complete newline (session.eventBuffer ++ received turns)) =
      .error .reloaded := by
  induction turns generalizing session nonceObserved with
  | nil => exact afterFrames_ok [] (fun observed _ h => by cases h) h
  | cons turn turns ih =>
    cases turn with
    | expired => cases h
    | read chunk =>
      refine afterFrames_ok (chunk.bytes ++ received turns) (fun observed hshort hrest => ?_) h
      rw [if_neg (chunk_fits chunk hshort)] at hrest
      rw [← List.append_assoc]
      exact ih hrest
    | interrupted => exact afterFrames_ok (received turns) (fun observed _ hrest => ih hrest) h
    | ended ending => exact afterFrames_ok [] (fun observed _ hrest => by cases ending <;> cases hrest) h

/-- A reload that the bytes prove is proved before the deadline, where no round finds it expired. -/
theorem waitRounds_proved {turns : List Turn} (hnone : Turn.expired ∉ turns)
    (h : handleFrames exactNonceEvent nonceObserved (Lines.complete newline (session.eventBuffer ++ received turns)) =
      .error .reloaded) : waitRounds exactNonceEvent session nonceObserved turns = .ok () := by
  induction turns generalizing session nonceObserved with
  | nil => exact afterFrames_proved [] (fun observed _ hrest => absurd hrest (handleFrames_leftover _)) h
  | cons turn turns ih =>
    obtain ⟨hturn, hturns⟩ := List.ne_and_not_mem_of_not_mem_cons hnone
    cases turn with
    | expired => exact absurd rfl hturn
    | read chunk =>
      refine afterFrames_proved (chunk.bytes ++ received turns) (fun observed hshort hrest => ?_) h
      rw [← List.append_assoc] at hrest
      rw [if_neg (chunk_fits chunk hshort)]
      exact ih hturns hrest
    | interrupted => exact afterFrames_proved (received turns) (fun observed _ hrest => ih hturns hrest) h
    | ended ending => exact afterFrames_proved [] (fun observed _ hrest => absurd hrest (handleFrames_leftover _)) h

/-- No verdict about a line speaks of the buffer. -/
theorem handleFrames_not_buffer {frames : List QByteArray} :
    handleFrames exactNonceEvent nonceObserved frames ≠ .error (.failed .bufferExceeded) := by
  induction frames generalizing nonceObserved with
  | nil => exact fun h => by cases h
  | cons frame frames ih =>
    rw [handleFrames_cons]
    unfold handleFrame
    split_ifs
    · exact fun h => by cases h
    · exact ih
    · exact fun h => by cases h
    · exact fun h => by cases h
    · exact ih

theorem afterFrames_not_buffer {next : Session → Bool → Except EventFailure Unit}
    (hnext : ∀ observed, (Lines.unfinished newline session.eventBuffer).length ≤ maximumEventFrameBytes →
      next ⟨Lines.unfinished newline session.eventBuffer⟩ observed ≠ .error .bufferExceeded) :
    waitRounds.afterFrames exactNonceEvent session nonceObserved next ≠ .error .bufferExceeded := by
  have hframes := @handleFrames_not_buffer exactNonceEvent nonceObserved (Lines.complete newline session.eventBuffer)
  rw [waitRounds.afterFrames]
  cases hverdict : handleFrames exactNonceEvent nonceObserved (Lines.complete newline session.eventBuffer) with
  | error verdict =>
    rw [hverdict] at hframes
    cases verdict with
    | reloaded => exact fun h => by cases h
    | failed failure =>
      intro h
      exact hframes (by rw [Except.error.inj h])
  | ok observed =>
    dsimp only
    split_ifs with hlong
    · exact fun h => by cases h
    · exact hnext observed (Nat.not_lt.mp hlong)

/-- The limit of the buffer never decides. -/
theorem waitRounds_not_buffer (turns : List Turn) :
    waitRounds exactNonceEvent session nonceObserved turns ≠ .error .bufferExceeded := by
  induction turns generalizing session nonceObserved with
  | nil => exact afterFrames_not_buffer fun observed _ h => by cases h
  | cons turn turns ih =>
    cases turn with
    | expired => exact fun h => by cases h
    | read chunk =>
      refine afterFrames_not_buffer fun observed hshort => ?_
      rw [if_neg (chunk_fits chunk hshort)]
      exact ih
    | interrupted => exact afterFrames_not_buffer fun observed _ => ih
    | ended ending => exact afterFrames_not_buffer fun observed _ => by cases ending <;> exact fun h => by cases h

end Rounds

theorem nonceEvent_ne (exactNonce : QString) : nonceEvent exactNonce ≠ configReloaded := by
  have hprefix : (toUtf8 (qstr "custom>>hyprshelld:"))[1]? = some 0x75 ∧ configReloaded[1]? = some 0x6f := by decide +kernel
  unfold nonceEvent
  split_ifs
  · exact fun h => by rw [← h] at hprefix; cases hprefix.2
  · intro h
    have hsecond := hprefix.2
    rw [← h, List.getElem?_append_left (by decide +kernel), hprefix.1] at hsecond
    cases hsecond

theorem drainEvents_empty {drains : List Drain} {session drained : Session} (h : drainEvents drains session = .ok drained) :
    drained.eventBuffer = [] := by
  unfold drainEvents at h
  cases hloop : drainLoop 0 drains with
  | error failure =>
    rw [hloop] at h
    cases h
  | ok =>
    rw [hloop] at h
    cases h
    rfl

/-- A reload line before the nonce proves nothing, whatever follows it. -/
theorem not_reloads_early {exactNonceEvent bytes : QByteArray} {before after : List QByteArray}
    (hlines : Lines.complete newline bytes = before ++ configReloaded :: after) (hnonce : exactNonceEvent ∉ before)
    (hexpected : exactNonceEvent ≠ []) : ¬ Reloads exactNonceEvent bytes := by
  rintro ⟨first, rest, hsplit, hfirst, hobserved, -⟩
  have hin : exactNonceEvent ∈ first := by
    rcases hobserved with h | h
    · exact absurd (List.isEmpty_iff.mp h) hexpected
    · exact h
  rw [hlines] at hsplit
  -- The first reload line is no later than the one given.
  rcases List.append_eq_append_iff.mp hsplit with ⟨between, hfirst', htail⟩ | ⟨between, hbefore, -⟩
  · cases between with
    | nil => exact hnonce (by simpa [hfirst'] using hin)
    | cons line between =>
      obtain ⟨rfl, -⟩ := List.cons_eq_cons.mp htail
      exact hfirst (by simp [hfirst'])
  · exact hnonce (hbefore ▸ List.mem_append_left _ hin)

/-- Whether a reload is proved depends on the bytes received alone, not on how they were cut; a deadline that is found expired
can only leave it unproved. -/
theorem reloadProof_exact (exactNonce : QString) (session : Session) (drains : List Drain) (drained : Session)
    (hdrained : drainEvents drains session = .ok drained) (turns : List Turn) :
    (waitForReloadEvents (nonceEvent exactNonce) drained turns = .ok () → Reloads (nonceEvent exactNonce) (received turns)) ∧
    (Turn.expired ∉ turns → (waitForReloadEvents (nonceEvent exactNonce) drained turns = .ok () ↔
      Reloads (nonceEvent exactNonce) (received turns))) ∧
    (∀ turns' : List Turn, Turn.expired ∉ turns → Turn.expired ∉ turns' → received turns' = received turns →
      (waitForReloadEvents (nonceEvent exactNonce) drained turns' = .ok () ↔
        waitForReloadEvents (nonceEvent exactNonce) drained turns = .ok ())) ∧
    (∀ before after, Lines.complete newline (received turns) = before ++ configReloaded :: after →
      nonceEvent exactNonce ∉ before → nonceEvent exactNonce ≠ [] →
      waitForReloadEvents (nonceEvent exactNonce) drained turns ≠ .ok ()) ∧
    waitForReloadEvents (nonceEvent exactNonce) drained turns ≠ .error .bufferExceeded ∧
    ∀ reply, (reloadBarrier drains reply (nonceEvent exactNonce) turns session = .ok () →
        reply = some (toUtf8 (qstr "ok")) ∧ Reloads (nonceEvent exactNonce) (received turns)) ∧
      (Turn.expired ∉ turns → (reloadBarrier drains reply (nonceEvent exactNonce) turns session = .ok () ↔
        reply = some (toUtf8 (qstr "ok")) ∧ Reloads (nonceEvent exactNonce) (received turns))) := by
  have hempty : drained.eventBuffer = [] := drainEvents_empty hdrained
  have hreloads (turns : List Turn) : handleFrames (nonceEvent exactNonce) (nonceEvent exactNonce).isEmpty
      (Lines.complete newline (drained.eventBuffer ++ received turns)) = .error .reloaded ↔
        Reloads (nonceEvent exactNonce) (received turns) := by
    rw [handleFrames_reloaded_iff (nonceEvent_ne exactNonce), hempty, List.nil_append, Reloads]
  have hproved {turns : List Turn} (h : waitForReloadEvents (nonceEvent exactNonce) drained turns = .ok ()) :
      Reloads (nonceEvent exactNonce) (received turns) := (hreloads turns).mp (waitRounds_ok h)
  have hanswer {turns : List Turn} (h : Turn.expired ∉ turns) :
      waitForReloadEvents (nonceEvent exactNonce) drained turns = .ok () ↔
        Reloads (nonceEvent exactNonce) (received turns) :=
    ⟨hproved, fun hreload => waitRounds_proved h ((hreloads turns).mpr hreload)⟩
  have hbarrier (reply : Option QByteArray) : reloadBarrier drains reply (nonceEvent exactNonce) turns session = .ok () ↔
      reply = some (toUtf8 (qstr "ok")) ∧ waitForReloadEvents (nonceEvent exactNonce) drained turns = .ok () := by
    rw [reloadBarrier, hdrained]
    dsimp only
    by_cases hreply : reply = some (toUtf8 (qstr "ok"))
    · rw [if_neg (not_not.mpr hreply)]
      cases waitForReloadEvents (nonceEvent exactNonce) drained turns <;> simp [Except.mapError, hreply]
    · rw [if_pos hreply]
      exact iff_of_false (fun h => by cases h) fun h => hreply h.1
  refine ⟨hproved, hanswer, fun turns' h h' hsame => ?_, fun before after hlines hnonce hexpected h => ?_,
    waitRounds_not_buffer turns, fun reply => ⟨fun h => ?_, fun h => ?_⟩⟩
  · rw [hanswer h', hanswer h, hsame]
  · exact not_reloads_early hlines hnonce hexpected (hproved h)
  · obtain ⟨hreply, hwait⟩ := (hbarrier reply).mp h
    exact ⟨hreply, hproved hwait⟩
  · rw [hbarrier, hanswer h]

section Sample

/-- The nonce line and the reload line, cut within the nonce. -/
def sampleTurns : List Turn :=
  [.read ⟨toUtf8 (qstr "custom>>hyprsh"), by decide +kernel, by decide +kernel⟩, .interrupted,
    .read ⟨toUtf8 (qstr "elld:ab\nconfigreloaded>>\nworkspace>>1"), by decide +kernel, by decide +kernel⟩]

theorem reloadProof_exact_sample :
    Reloads (nonceEvent (qstr "ab")) (received sampleTurns) ∧
      waitForReloadEvents (nonceEvent (qstr "ab")) {} sampleTurns ≠ .error .bufferExceeded := by
  have hturns : Turn.expired ∉ sampleTurns := by simp [sampleTurns]
  obtain ⟨-, hproved, -, -, hbuffer, -⟩ := reloadProof_exact (qstr "ab") {} [] {} rfl sampleTurns
  exact ⟨(hproved hturns).mp (by decide +kernel), hbuffer⟩

end Sample

end HyprShelld.Ipc
