import HyprShelld.Appearance.Hyprsunset
import HyprShelld.Support.Run
import Mathlib.Algebra.Group.Nat.Defs

/-! What holds of the night-light controller in every run. -/
namespace HyprShelld.Hyprsunset

/-- What the processes, flags and states of a controller say about each other. -/
structure Coherent (c : Controller) : Prop where
  owned : c.ownsDaemon = true ↔ c.daemonProcess ≠ .notRunning
  daemon : c.daemonProcess ≠ .notRunning → c.daemonFailureHandled = false
  stopping : c.stopRequested = true →
    c.daemonProcess = .running ∧ c.commandProcess = .notRunning ∧ (c.state = .stopping ∨ c.state = .failed)
  command : c.commandProcess ≠ .notRunning → c.commandCompletionHandled = false
  current : c.commandProcess ≠ .notRunning → c.commandGeneration = c.desiredGeneration →
    c.daemonProcess = .running ∧ c.stopRequested = false ∧
      (c.commandKind = if c.enabled then .temperature else .identity) ∧
      (c.enabled = true → c.commandTemperature = c.desiredTemperature)
  probe : c.probeProcess ≠ .notRunning → c.ownsDaemon = false ∧
    (c.probeCompletionHandled = true → c.state = .stopping ∨ c.state = .failed) ∧
    (c.probeCompletionHandled = false → c.enabled = true ∧ (c.state = .probing ∨ c.state = .externalDaemon))

/-- A controller that is ready has applied what is desired. -/
def Applied (c : Controller) : Prop :=
  c.state = .ready → c.enabled = true ∧ c.daemonProcess = .running ∧ c.stopRequested = false ∧
    c.commandProcess = .notRunning ∧ c.currentTemperature = c.desiredTemperature

/-- Without a daemon of its own, a controller that is not at rest waits for something that is under
way. One that is disabled has failed only where `failed` says so, and its probe is gone without
having ended only where `lost` says so. -/
def Awaits (failed lost : Prop) (c : Controller) : Prop :=
  match c.enabled, c.state with
  | true, .probing => c.probeProcess ≠ .notRunning
  | true, .externalDaemon => c.externalProbeTimer = true ∨ c.probeProcess ≠ .notRunning
  | true, .retryWaiting => c.startupRetryTimer = true
  | true, .stopping => 0 < c.queuedProbes ∨ c.probeProcess ≠ .notRunning ∧ c.probeRestartRequested = true
  | true, .failed => True
  | false, .disabled => c.probeProcess = .notRunning
  | false, .stopping => lost ∨ c.probeProcess ≠ .notRunning
  | false, .failed => failed ∧ c.probeProcess = .notRunning
  | _, _ => False

structure Invariant (failed lost : Prop) (c : Controller) : Prop where
  coherent : Coherent c
  applied : Applied c
  awaits : c.ownsDaemon = false → Awaits failed lost c

namespace Controller
variable {c : Controller} {o : Options} {starts : Starts} {state : State}

/-- The timer of the next look for a foreign daemon. -/
def nextExternalProbe (c : Controller) (state : State) : Bool :=
  if state = c.state then c.externalProbeTimer || (state = .externalDaemon && c.enabled)
  else state = .externalDaemon && c.enabled

theorem setState_eq : c.setState state = { c with state, externalProbeTimer := c.nextExternalProbe state } := by
  obtain ⟨⟩ := c
  unfold setState nextExternalProbe
  split_ifs with hsame harmed
  · simp_all
  · subst hsame
    simp_all
  · rfl

/-- The daemon takes a command. -/
def CanSend (c : Controller) : Prop :=
  c.ownsDaemon = true ∧ c.stopRequested = false ∧ c.daemonProcess = .running ∧ c.commandProcess = .notRunning

end Controller

section
variable {failed lost : Prop} {c : Controller} {o : Options} {starts : Starts}

/-- Timers, queued calls, attempts and the current temperature do not bear on what is coherent. -/
theorem Coherent.scheduled (h : Coherent c)
    {startupRetry commandRetry settle probeTimeout commandTimeout stopTimeout externalProbe restart : Bool}
    {probes dispatches : Nat} {current startupAttempts commandAttempts : Int} :
    Coherent { c with
      startupRetryTimer := startupRetry, commandRetryTimer := commandRetry, daemonSettleTimer := settle,
      probeTimeoutTimer := probeTimeout, commandTimeoutTimer := commandTimeout, stopTimeoutTimer := stopTimeout,
      externalProbeTimer := externalProbe, probeRestartRequested := restart, queuedProbes := probes,
      queuedDispatches := dispatches, currentTemperature := current, startupAttempts, commandAttempts } :=
  ⟨h.owned, h.daemon, h.stopping, h.command, h.current, h.probe⟩

theorem Invariant.of_owned (hcoherent : Coherent c) (howns : c.ownsDaemon = true) (hstate : c.state ≠ .ready) :
    Invariant failed lost c :=
  ⟨hcoherent, fun h => absurd h hstate, fun h => by simp [howns] at h⟩

theorem Invariant.of_enabled (h : Invariant failed lost c) (henabled : c.enabled = true) {failed' lost' : Prop} :
    Invariant failed' lost' c :=
  ⟨h.coherent, h.applied, fun howns => by grind [Awaits, h.awaits howns]⟩

theorem Invariant.mono (h : Invariant failed lost c) {failed' lost' : Prop} (hfailed : failed → failed')
    (hlost : lost → lost') : Invariant failed' lost' c :=
  ⟨h.coherent, h.applied, fun howns => by grind [Awaits, h.awaits howns]⟩

/-- A controller whose command has ended keeps what holds of it. -/
theorem Invariant.commandEnded (h : Invariant failed lost c) (kind : CommandKind) (handled timer : Bool)
    (commandAttempts startupAttempts : Int) :
    Invariant failed lost { c with
      commandProcess := .notRunning, commandKind := kind, commandCompletionHandled := handled,
      commandTimeoutTimer := timer, commandAttempts, startupAttempts } := by
  obtain ⟨⟨howned, hdaemon, hstopping, hcommand, hcurrent, hprobe⟩, happlied, hawaits⟩ := h
  refine ⟨⟨howned, hdaemon, fun hstop => ?_, by simp, by simp, hprobe⟩, fun hready => ?_, hawaits⟩
  · exact ⟨(hstopping hstop).1, rfl, (hstopping hstop).2.2⟩
  · exact ⟨(happlied hready).1, (happlied hready).2.1, (happlied hready).2.2.1, rfl, (happlied hready).2.2.2.2⟩

theorem Invariant.commandTimeout (h : Invariant failed lost c) (timer : Bool) :
    Invariant failed lost { c with commandTimeoutTimer := timer } :=
  ⟨h.coherent.scheduled, h.applied, h.awaits⟩

theorem Invariant.queuedDispatch (h : Invariant failed lost c) (n : Nat) :
    Invariant failed lost { c with queuedDispatches := n } :=
  ⟨h.coherent.scheduled, h.applied, h.awaits⟩

end

namespace Controller
variable {failed lost : Prop} {c : Controller} {o : Options} {starts : Starts} {state : State}

theorem handleProbeFailure_invariant (h : Coherent c) (henabled : c.enabled = true) (howns : c.ownsDaemon = false) :
    Invariant failed lost c.handleProbeFailure := by
  obtain ⟨howned, hdaemon, hstopping, hcommand, hcurrent, -⟩ := h
  unfold handleProbeFailure
  simp only [setState_eq, henabled, Bool.not_true, Bool.false_eq_true, ↓reduceIte]
  exact ⟨by constructor <;> grind, by simp [Applied], by simp [Awaits]⟩

/-- A probe that is started is waited for, and so is one that cannot be spawned. -/
theorem startProbe_invariant (h : Coherent c) (henabled : c.enabled = true) (howns : c.ownsDaemon = false)
    (hhandled : c.probeCompletionHandled = false) (hstate : c.state = .probing ∨ c.state = .externalDaemon) :
    Invariant failed lost
      { (if starts.probe then { c with probeProcess := .starting } else c.handleProbeFailure) with
        probeTimeoutTimer := true } := by
  by_cases hstarts : starts.probe = true
  · rw [if_pos hstarts]
    refine ⟨⟨h.owned, h.daemon, h.stopping, h.command, h.current, fun _ => ?_⟩, fun hready => ?_, fun _ => ?_⟩
    · exact ⟨howns, by simp [hhandled], fun _ => ⟨henabled, hstate⟩⟩
    · rcases hstate with hstate | hstate <;> simp [hstate] at hready
    · rcases hstate with hstate | hstate <;> simp [Awaits, henabled, hstate]
  · rw [if_neg hstarts]
    have hfailure : Invariant failed lost c.handleProbeFailure := handleProbeFailure_invariant h henabled howns
    exact ⟨hfailure.coherent.scheduled, hfailure.applied, hfailure.awaits⟩

theorem beginProbe_invariant (h : Coherent c) (happlied : Applied c)
    (hawaits : c.enabled = false → c.ownsDaemon = false → Awaits failed lost c) : Invariant failed lost (c.beginProbe starts) := by
  unfold beginProbe
  by_cases hidle : (!c.enabled || c.ownsDaemon) = true
  · rw [if_pos hidle]
    refine ⟨h, happlied, fun howns => hawaits ?_ howns⟩
    simpa [howns] using hidle
  rw [if_neg hidle]
  simp only [Bool.or_eq_true, Bool.not_eq_true', not_or, Bool.not_eq_false, Bool.not_eq_true] at hidle
  obtain ⟨henabled, howns⟩ := hidle
  by_cases hactive : c.probeProcess ≠ .notRunning
  · rw [if_pos hactive]
    by_cases hhandled : c.probeCompletionHandled = true
    · rw [if_pos hhandled]
      refine ⟨h.scheduled, happlied, fun _ => ?_⟩
      rcases (h.probe hactive).2.1 hhandled with hstate | hstate <;> simp [Awaits, henabled, hstate, hactive]
    · rw [if_neg hhandled]
      refine ⟨h, happlied, fun _ => ?_⟩
      rcases ((h.probe hactive).2.2 (by simpa using hhandled)).2 with hstate | hstate <;>
        simp [Awaits, henabled, hstate, hactive]
  · rw [if_neg hactive]
    rw [not_not] at hactive
    have hstop : c.stopRequested = false := by
      by_contra hne
      have hrunning := (h.stopping (by simpa using hne)).1
      simp [h.owned.2 (by simp [hrunning])] at howns
    have hcoherent (state : State) (externalProbe : Bool) : Coherent { c with
        probeCompletionHandled := false, probeRestartRequested := false, state, externalProbeTimer := externalProbe } :=
      ⟨h.owned, h.daemon, by simp [hstop], h.command, h.current, by simp [hactive]⟩
    dsimp only
    by_cases hstate : c.state = .externalDaemon
    · rw [if_neg (not_not.2 hstate)]
      exact startProbe_invariant (hcoherent c.state c.externalProbeTimer) henabled howns rfl (.inr hstate)
    · rw [if_pos hstate, setState_eq]
      exact startProbe_invariant (hcoherent .probing _) henabled howns rfl (.inl rfl)

theorem stopOwnedDaemon_invariant (h : Coherent c) (hrunning : c.daemonProcess = .running)
    (hcommand : c.commandProcess = .notRunning) : Invariant failed lost (c.stopOwnedDaemon starts) := by
  have howns : c.ownsDaemon = true := h.owned.2 (by simp [hrunning])
  have hprobe : c.probeProcess = .notRunning := by
    by_contra hne
    simp [(h.probe hne).1] at howns
  unfold stopOwnedDaemon
  simp only [setState_eq, hrunning, reduceCtorEq, ↓reduceIte]
  exact .of_owned ⟨by simp [howns], fun _ => h.daemon (by simp [hrunning]), by simp [hcommand],
    by simp [hcommand], by simp [hcommand], by simp [hprobe]⟩ howns (by simp)

/-- Any state may be reported while the daemon is in use and is not being stopped. -/
theorem setState_coherent (h : Coherent c) (howns : c.ownsDaemon = true) (hstop : c.stopRequested = false)
    (state : State) : Coherent (c.setState state) := by
  have hprobe : c.probeProcess = .notRunning := by
    by_contra hne
    simp [(h.probe hne).1] at howns
  rw [setState_eq]
  exact ⟨h.owned, h.daemon, by simp [hstop], h.command, h.current, by simp [hprobe]⟩

theorem setState_invariant (h : Coherent c) (howns : c.ownsDaemon = true) (hstop : c.stopRequested = false)
    (hstate : state ≠ .ready) : Invariant failed lost (c.setState state) := by
  have hcoherent := setState_coherent h howns hstop state
  rw [setState_eq] at hcoherent ⊢
  exact .of_owned hcoherent howns hstate

theorem setCurrentTemperature_coherent (h : Coherent c) (temperature : Int) :
    Coherent (c.setCurrentTemperature temperature) := h.scheduled

theorem scheduleCommandRetry_invariant (h : Invariant failed lost c) (hcommand : c.commandProcess = .notRunning)
    (hstop : c.stopRequested = false) : Invariant failed lost (c.scheduleCommandRetry o starts) := by
  unfold scheduleCommandRetry
  by_cases hidle : (!c.ownsDaemon || c.daemonProcess ≠ .running) = true
  · rw [if_pos hidle]
    exact h
  rw [if_neg hidle]
  simp only [Bool.or_eq_true, Bool.not_eq_true', decide_eq_true_eq, not_or, Bool.not_eq_false, not_not] at hidle
  by_cases hleft : c.commandAttempts < o.maximumCommandAttempts
  · rw [if_pos hleft]
    exact setState_invariant h.coherent.scheduled hidle.1 hstop (by split_ifs <;> simp)
  · rw [if_neg hleft]
    split_ifs
    · exact stopOwnedDaemon_invariant h.coherent hidle.2 hcommand
    · exact setState_invariant h.coherent hidle.1 hstop (by simp)

theorem handleCommandFailure_invariant (h : Invariant failed lost c) (hcommand : c.commandProcess = .notRunning)
    (hstop : c.stopRequested = false) : Invariant failed lost (c.handleCommandFailure o starts) := by
  have hended := h.commandEnded .none true false c.commandAttempts c.startupAttempts
  rw [← hcommand] at hended
  unfold handleCommandFailure
  dsimp only
  split_ifs
  · exact h
  · exact hended.queuedDispatch _
  · exact scheduleCommandRetry_invariant hended hcommand hstop

theorem dispatchDesiredCommand_sent (h : Coherent c) (hsend : c.CanSend) :
    Invariant failed lost (c.dispatchDesiredCommand o starts) := by
  obtain ⟨howns, hstop, hrunning, hcommand⟩ := hsend
  have hdaemon := h.daemon (by simp [hrunning])
  have hprobe : c.probeProcess = .notRunning := by
    by_contra hne
    simp [(h.probe hne).1] at howns
  unfold dispatchDesiredCommand
  simp only [howns, hstop, hrunning, hcommand, ne_eq, not_true_eq_false, decide_false, Bool.not_true, Bool.or_self,
    Bool.false_eq_true, ↓reduceIte, setState_eq]
  apply Invariant.commandTimeout
  by_cases hstarts : starts.command = true
  · rw [if_pos hstarts]
    refine .of_owned ?_ rfl ?_
    · constructor <;> simp +contextual [hdaemon, hprobe]
    · dsimp only
      split_ifs <;> simp
  · -- The program cannot be spawned, which is reported from within its start.
    rw [if_neg hstarts]
    apply handleCommandFailure_invariant
    · refine .of_owned ?_ rfl ?_
      · constructor <;> simp [hdaemon, hprobe]
      · dsimp only
        split_ifs <;> simp
    · rfl
    · rfl

theorem dispatchDesiredCommand_idle (hsend : ¬c.CanSend) : c.dispatchDesiredCommand o starts = c := by
  unfold dispatchDesiredCommand
  rw [if_pos]
  simp only [CanSend, not_and] at hsend
  simp only [Bool.or_eq_true, Bool.not_eq_true', decide_eq_true_eq]
  grind

theorem dispatchDesiredCommand_invariant (h : Coherent c) (hidle : ¬c.CanSend → Invariant failed lost c) :
    Invariant failed lost (c.dispatchDesiredCommand o starts) := by
  by_cases hsend : c.CanSend
  · exact dispatchDesiredCommand_sent h hsend
  · rw [dispatchDesiredCommand_idle hsend]
    exact hidle hsend

theorem scheduleStartupRetry_invariant (h : Coherent c) (howns : c.ownsDaemon = false)
    (hprobe : c.probeProcess = .notRunning) : Invariant failed lost (c.scheduleStartupRetry o) := by
  obtain ⟨howned, hdaemon, hstopping, hcommand, hcurrent, -⟩ := h
  unfold scheduleStartupRetry setOwnsDaemon setCurrentTemperature
  simp only [setState_eq]
  split_ifs <;> refine ⟨by constructor <;> grind, by grind [Applied], by grind [Awaits]⟩

theorem handleDaemonFailedToStart_invariant
    (h : Coherent { c with daemonFailureHandled := true, ownsDaemon := false })
    (hhandled : c.daemonFailureHandled = false) (hprobe : c.probeProcess = .notRunning) :
    Invariant failed lost (c.handleDaemonFailedToStart o) := by
  unfold handleDaemonFailedToStart
  rw [if_neg (by simp [hhandled])]
  exact scheduleStartupRetry_invariant h rfl hprobe

theorem startOwnedDaemon_invariant (h : Coherent c) (henabled : c.enabled = true) (howns : c.ownsDaemon = false)
    (hprobe : c.probeProcess = .notRunning) : Invariant failed lost (c.startOwnedDaemon o starts) := by
  obtain ⟨howned, hdaemon, hstopping, hcommand, hcurrent, -⟩ := h
  have hnone : c.daemonProcess = .notRunning := by
    by_contra hne
    simp [howned.2 hne] at howns
  unfold startOwnedDaemon setOwnsDaemon
  simp only [setState_eq, henabled, Bool.not_true, Bool.false_eq_true, ↓reduceIte]
  split_ifs with hattempts hstarts
  · refine ⟨by constructor <;> grind, by simp [Applied], by simp [Awaits]⟩
  · exact .of_owned (by constructor <;> grind) rfl (by simp)
  · exact handleDaemonFailedToStart_invariant (by constructor <;> grind) rfl hprobe

theorem handleProbeFinished_invariant (h : Invariant failed lost c) (hrunning : c.probeProcess = .running)
    {exitCode : Int} {normalExit : Bool} :
    Invariant failed lost (({ c with probeProcess := .notRunning }).handleProbeFinished o starts exitCode normalExit) := by
  obtain ⟨⟨howned, hdaemon, hstopping, hcommand, hcurrent, hprobe⟩, happlied, hawaits⟩ := h
  obtain ⟨howns, hhandled, hpending⟩ := hprobe (by simp [hrunning])
  have hended : Coherent { c with
      probeProcess := .notRunning, probeCompletionHandled := true, probeTimeoutTimer := false } :=
    ⟨howned, hdaemon, hstopping, hcommand, hcurrent, by simp⟩
  unfold handleProbeFinished
  dsimp only
  by_cases hcompleted : c.probeCompletionHandled = true
  · -- The probe was given up before it ended.
    rw [if_pos hcompleted]
    simp only [setState_eq]
    split_ifs <;> refine ⟨by constructor <;> grind, by grind [Applied], by grind [Awaits]⟩
  · obtain ⟨henabled, -⟩ := hpending (by simpa using hcompleted)
    rw [if_neg hcompleted, if_neg (by simp [henabled])]
    split_ifs with hexit hforeign hfree
    · exact handleProbeFailure_invariant hended henabled howns
    · rw [setState_eq]
      exact ⟨⟨by simpa [howns, setOwnsDaemon, setCurrentTemperature] using howned, hdaemon,
          by grind [setOwnsDaemon, setCurrentTemperature], hcommand,
          hcurrent, by simp [setOwnsDaemon, setCurrentTemperature]⟩, by simp [Applied],
        by simp [Awaits, setOwnsDaemon, setCurrentTemperature, henabled, nextExternalProbe]⟩
    · exact startOwnedDaemon_invariant hended henabled howns rfl
    · exact handleProbeFailure_invariant hended henabled howns

theorem handleDaemonFinished_invariant (h : Invariant failed lost c) (hrunning : c.daemonProcess = .running)
    (hgeneration : c.commandProcess ≠ .notRunning → c.desiredGeneration + 1 ≠ c.commandGeneration) :
    Invariant failed lost (({ c with daemonProcess := .notRunning }).handleDaemonFinished o) := by
  obtain ⟨⟨howned, hdaemon, hstopping, hcommand, hcurrent, hprobe⟩, happlied, hawaits⟩ := h
  have howns := howned.2 (by simp [hrunning])
  have hnone : c.probeProcess = .notRunning := by
    by_contra hne
    simp [(hprobe hne).1] at howns
  have hended (generation : UInt64) (attempts : Int) (queued : Nat) (externalProbe : Bool) (state : State)
      (hapart : c.commandProcess ≠ .notRunning → generation ≠ c.commandGeneration) : Coherent { c with
        daemonProcess := .notRunning, daemonSettleTimer := false, stopTimeoutTimer := false, stopRequested := false,
        daemonFailureHandled := true, ownsDaemon := false, currentTemperature := 0, desiredGeneration := generation,
        commandAttempts := attempts, queuedProbes := queued, externalProbeTimer := externalProbe, state } :=
    ⟨by simp, by simp, by simp, hcommand, fun hne heq => absurd heq.symm (hapart hne), by simp [hnone]⟩
  -- What follows is the same whether a command was in flight or not.
  have hfollows {generation : UInt64} {attempts : Int}
      (hapart : c.commandProcess ≠ .notRunning → generation ≠ c.commandGeneration) :
      let ended := { c with
        daemonProcess := .notRunning, daemonSettleTimer := false, stopTimeoutTimer := false, stopRequested := false,
        daemonFailureHandled := true, ownsDaemon := false, currentTemperature := 0, desiredGeneration := generation,
        commandAttempts := attempts }
      Invariant failed lost (if (c.stopRequested || !c.enabled) = true then
        if c.enabled then { ended with queuedProbes := c.queuedProbes + 1 } else ended.setState .disabled
        else ended.scheduleStartupRetry o) := by
    dsimp only
    by_cases hexpected : (c.stopRequested || !c.enabled) = true
    · rw [if_pos hexpected]
      by_cases henabled : c.enabled = true
      · rw [if_pos henabled]
        obtain ⟨-, -, hstate⟩ := hstopping (by simpa [henabled] using hexpected)
        refine ⟨hended _ _ _ _ _ hapart, fun hready => ?_, fun _ => ?_⟩
        · rcases hstate with hstate | hstate <;> simp [hstate] at hready
        · rcases hstate with hstate | hstate <;> simp [Awaits, henabled, hstate]
      · rw [if_neg henabled, setState_eq]
        exact ⟨hended _ _ _ _ _ hapart, by simp [Applied], by simp [Awaits, henabled, hnone]⟩
    · rw [if_neg hexpected]
      exact scheduleStartupRetry_invariant (hended _ _ c.queuedProbes c.externalProbeTimer c.state hapart) rfl hnone
  unfold handleDaemonFinished setOwnsDaemon setCurrentTemperature
  simp only [hdaemon (by simp [hrunning]), Bool.false_eq_true, ↓reduceIte]
  by_cases hflight : c.commandProcess ≠ .notRunning
  · simp only [if_pos hflight]
    exact hfollows hgeneration
  · simp only [if_neg hflight]
    exact hfollows fun hne => absurd hne hflight

theorem handleDaemonStarted_invariant (h : Invariant failed lost c) (hstarting : c.daemonProcess = .starting) :
    Invariant failed lost (({ c with daemonProcess := .running }).handleDaemonStarted o starts) := by
  obtain ⟨⟨howned, hdaemon, hstopping, hcommand, hcurrent, hprobe⟩, happlied, hawaits⟩ := h
  have howns := howned.2 (by simp [hstarting])
  have hstarted : Coherent { c with daemonProcess := .running } := by constructor <;> grind
  have hstop : c.stopRequested = false := by grind
  unfold handleDaemonStarted
  split_ifs with henabled
  · have hreported : Invariant failed lost ({ c with daemonProcess := .running }.setState .stopping) :=
      setState_invariant hstarted howns hstop (by simp)
    exact dispatchDesiredCommand_invariant hreported.coherent fun _ => hreported
  · exact ⟨by constructor <;> grind, by grind [Applied], by grind [Awaits]⟩

/-- A command that has ended leaves the daemon as it was; what it was sent for decides what follows. -/
theorem handleCommandFinished_invariant (h : Invariant failed lost c) (hrunning : c.commandProcess = .running)
    {exitCode : Int} {normalExit : Bool} :
    Invariant failed lost (({ c with commandProcess := .notRunning }).handleCommandFinished o starts exitCode normalExit) := by
  have hended := h.commandEnded .none true false c.commandAttempts c.startupAttempts
  have hsucceeded := h.commandEnded .none true false 0 0
  have hne : c.commandProcess ≠ .notRunning := by simp [hrunning]
  unfold handleCommandFinished
  simp only [h.coherent.command hne, Bool.false_eq_true, ↓reduceIte]
  split_ifs with hstale hnormal hready hidentity
  · exact hended.queuedDispatch _
  all_goals
    obtain ⟨hdaemon, hstop, -, htemperature⟩ := h.coherent.current hne (by simpa using hstale)
    have howns := h.coherent.owned.2 (by simp [hdaemon])
  · simp only [Bool.and_eq_true, decide_eq_true_eq] at hready
    have happlied :=
      setState_coherent (setCurrentTemperature_coherent hsucceeded.coherent c.commandTemperature) howns hstop .ready
    rw [setState_eq] at happlied ⊢
    exact ⟨happlied, fun _ => ⟨hready.2, hdaemon, hstop, rfl, htemperature hready.2⟩, by
      simp [setCurrentTemperature, howns]⟩
  · exact stopOwnedDaemon_invariant (setCurrentTemperature_coherent hsucceeded.coherent 0) hdaemon rfl
  · exact hsucceeded
  · exact scheduleCommandRetry_invariant hended rfl hstop

theorem setEnabled_invariant (h : Invariant failed lost c) {executables enabled : Bool}
    (hgeneration : c.commandProcess ≠ .notRunning → c.desiredGeneration + 1 ≠ c.commandGeneration) :
    Invariant (failed ∧ enabled = false) lost (c.setEnabled o executables starts enabled) := by
  unfold setEnabled
  by_cases hsame : enabled = c.enabled
  · rw [if_pos hsame]
    cases enabled with
    | false => simpa using h
    | true => exact h.of_enabled hsame.symm
  rw [if_neg hsame]
  obtain ⟨⟨howned, hdaemon, hstopping, hcommand, hcurrent, hprobe⟩, happlied, hawaits⟩ := h
  cases enabled with
  | true =>
    have hcoherent : Coherent { c with
        enabled := true, desiredGeneration := c.desiredGeneration + 1, commandAttempts := 0, startupAttempts := 0,
        startupRetryTimer := false, commandRetryTimer := false, daemonSettleTimer := false } := by
      constructor <;> grind
    have hready : c.state ≠ .ready := fun hready => hsame (happlied hready).1.symm
    simp only [↓reduceIte]
    split_ifs with hinvalid howns hstop
    · rw [setState_eq]
      exact ⟨by constructor <;> grind, by simp [Applied], by simp [Awaits]⟩
    · exact dispatchDesiredCommand_invariant hcoherent fun _ =>
        ⟨hcoherent, fun h => absurd h hready, fun _ => by grind⟩
    · exact ⟨hcoherent, fun h => absurd h hready, fun _ => by grind⟩
    · exact beginProbe_invariant hcoherent (fun h => absurd h hready) (by simp)
  | false =>
    simp only [Bool.false_eq_true, ↓reduceIte]
    by_cases howns : c.ownsDaemon = true
    · have hnone : c.probeProcess = .notRunning := by grind
      have hreported : Invariant (failed ∧ True) lost ({ c with
          enabled := false, desiredGeneration := c.desiredGeneration + 1, commandAttempts := 0,
          startupRetryTimer := false, commandRetryTimer := false, daemonSettleTimer := false,
          probeTimeoutTimer := false }.setState .stopping) := by
        rw [setState_eq]
        exact .of_owned (by constructor <;> grind) howns (by simp)
      simp only [hnone, howns] at hreported ⊢
      cases hprocess : c.daemonProcess with
      | notRunning => exact absurd hprocess (howned.1 howns)
      | starting =>
        rw [hprocess] at hreported
        exact hreported
      | running =>
        rw [hprocess] at hreported
        exact dispatchDesiredCommand_invariant hreported.coherent fun _ => hreported
    · have hnone : c.daemonProcess = .notRunning := by grind
      rw [Bool.not_eq_true] at howns
      unfold setCurrentTemperature
      by_cases hactive : c.probeProcess = .notRunning
      all_goals
        simp only [hactive, howns, ne_eq, not_true_eq_false, not_false_eq_true, decide_true, decide_false,
          Bool.false_eq_true, Bool.not_false, ↓reduceIte, setState_eq]
        exact ⟨by constructor <;> grind, by simp [Applied], by simp [Awaits, hactive]⟩

theorem setTemperature_invariant (h : Invariant failed lost c) {temperature : Int}
    (hgeneration : c.commandProcess ≠ .notRunning → c.desiredGeneration + 1 ≠ c.commandGeneration) :
    Invariant failed lost (c.setTemperature o starts temperature) := by
  unfold setTemperature
  by_cases hinvalid : temperature < minimumTemperature
  · rw [if_pos hinvalid]
    exact h
  rw [if_neg hinvalid]
  by_cases hchanged : temperature = c.desiredTemperature
  · simp only [hchanged, ne_eq, not_true_eq_false, decide_false, Bool.false_eq_true, ↓reduceIte]
    split_ifs
    · exact dispatchDesiredCommand_invariant h.coherent fun _ => h
    · exact h
  · simp only [hchanged, ne_eq, not_false_eq_true, decide_true, ↓reduceIte]
    obtain ⟨⟨howned, hdaemon, hstopping, hcommand, hcurrent, hprobe⟩, happlied, hawaits⟩ := h
    have hcoherent : Coherent { c with
        desiredTemperature := temperature, desiredGeneration := c.desiredGeneration + 1, commandAttempts := 0,
        commandRetryTimer := false } := by
      constructor <;> grind
    split_ifs with hsend
    · refine dispatchDesiredCommand_invariant hcoherent fun hidle => ⟨hcoherent, fun hready => ?_, hawaits⟩
      -- A controller that is ready sends the new temperature.
      obtain ⟨henabled, hrunning, hstop, hcommand, -⟩ := happlied hready
      exact absurd ⟨howned.2 (by simp [hrunning]), hstop, hrunning, hcommand⟩ hidle
    · refine ⟨hcoherent, fun hready => ?_, hawaits⟩
      obtain ⟨henabled, hrunning, hstop, hcommand, -⟩ := happlied hready
      have howns := howned.2 (by simp [hrunning])
      replace hready : c.state = .ready := hready
      simp [henabled, hrunning, hstop, howns, hready] at hsend

theorem retry_invariant (h : Invariant failed lost c) : Invariant failed lost (c.retry o starts) := by
  unfold retry
  dsimp only
  split_ifs with hdisabled hsend
  · exact h
  · simp only [Bool.and_eq_true, decide_eq_true_eq] at hsend
    exact dispatchDesiredCommand_invariant h.coherent.scheduled fun _ =>
      ⟨h.coherent.scheduled, h.applied, fun howns => by simp_all⟩
  · exact beginProbe_invariant h.coherent.scheduled h.applied (by simp_all)

end Controller

open Controller

/-- Whether the event asks for the controller to be enabled. -/
def Enables : Event → Prop
  | .setEnabled _ _ enabled => enabled = true
  | _ => False

variable {o : Options} {failed lost : Prop} {c : Controller} {e : Event}

/-- The generation of what is desired does not come round to that of the command in flight. -/
def GenerationApart (c : Controller) : Prop :=
  c.commandProcess ≠ .notRunning → c.desiredGeneration + 1 ≠ c.commandGeneration

/-- A probe that has been spawned runs. -/
theorem probeStarted_invariant (h : Invariant failed lost c) (hstarting : c.probeProcess = .starting) :
    Invariant failed lost { c with probeProcess := .running } := by
  obtain ⟨⟨howned, hdaemon, hstopping, hcommand, hcurrent, hprobe⟩, happlied, hawaits⟩ := h
  exact ⟨by constructor <;> grind, happlied, by grind [Awaits]⟩

theorem probeFailedToStart_invariant (h : Invariant failed lost c) (hstarting : c.probeProcess = .starting) :
    Invariant failed (lost ∨ c.enabled = false) ({ c with probeProcess := .notRunning }).handleProbeFailure := by
  obtain ⟨⟨howned, hdaemon, hstopping, hcommand, hcurrent, hprobe⟩, happlied, hawaits⟩ := h
  have howns := (hprobe (by simp [hstarting])).1
  by_cases henabled : c.enabled = true
  · exact handleProbeFailure_invariant (by constructor <;> grind) henabled howns
  · unfold handleProbeFailure
    rw [if_pos (by simp [henabled])]
    exact ⟨by constructor <;> grind, by grind [Applied], by grind [Awaits]⟩

theorem probeTimeout_invariant (h : Invariant failed lost c) : Invariant failed lost (step o c .probeTimeout) := by
  obtain ⟨⟨howned, hdaemon, hstopping, hcommand, hcurrent, hprobe⟩, happlied, hawaits⟩ := h
  unfold step handleProbeFailure
  simp only [setState_eq]
  split_ifs <;> exact ⟨by constructor <;> grind, by grind [Applied], by grind [Awaits]⟩

theorem daemonFailedToStart_invariant (h : Invariant failed lost c) (hstarting : c.daemonProcess = .starting) :
    Invariant failed lost (({ c with daemonProcess := .notRunning }).handleDaemonFailedToStart o) := by
  obtain ⟨⟨howned, hdaemon, hstopping, hcommand, hcurrent, hprobe⟩, happlied, hawaits⟩ := h
  exact handleDaemonFailedToStart_invariant (by constructor <;> grind) (hdaemon (by simp [hstarting])) (by grind)

theorem commandStarted_invariant (h : Invariant failed lost c) (hstarting : c.commandProcess = .starting) :
    Invariant failed lost { c with commandProcess := .running } := by
  obtain ⟨⟨howned, hdaemon, hstopping, hcommand, hcurrent, hprobe⟩, happlied, hawaits⟩ := h
  exact ⟨by constructor <;> grind, by grind [Applied], hawaits⟩

theorem commandTimeout_invariant (h : Invariant failed lost c) : Invariant failed lost (step o c .commandTimeout) := by
  unfold step
  dsimp only
  split_ifs
  · exact h.commandTimeout false
  · exact ⟨⟨h.coherent.owned, h.coherent.daemon, h.coherent.stopping, h.coherent.command, h.coherent.current,
      h.coherent.probe⟩, h.applied, h.awaits⟩

/-- What a timer or the event loop asks for, a probe answers. -/
theorem scheduledProbe_invariant (h : Invariant failed lost c) {starts : Starts} {startupRetry externalProbe : Bool}
    {probes : Nat} :
    Invariant failed lost (({ c with
      startupRetryTimer := startupRetry, externalProbeTimer := externalProbe, queuedProbes := probes }).beginProbe starts) :=
  beginProbe_invariant h.coherent.scheduled h.applied fun hdisabled howns => by
    have hawaits := h.awaits howns
    grind [Awaits]

theorem scheduledDispatch_invariant (h : Invariant failed lost c) {starts : Starts} {commandRetry settle : Bool}
    {dispatches : Nat} :
    Invariant failed lost (({ c with
      commandRetryTimer := commandRetry, daemonSettleTimer := settle,
      queuedDispatches := dispatches }).dispatchDesiredCommand o starts) :=
  dispatchDesiredCommand_invariant h.coherent.scheduled fun _ => ⟨h.coherent.scheduled, h.applied, h.awaits⟩

theorem commandFailedToStart_invariant (h : Invariant failed lost c) (hstarting : c.commandProcess = .starting)
    {starts : Starts} : Invariant failed lost (({ c with commandProcess := .notRunning }).handleCommandFailure o starts) := by
  have hstop : c.stopRequested = false := by
    by_contra hne
    simp [(h.coherent.stopping (by simpa using hne)).2.1] at hstarting
  exact handleCommandFailure_invariant
    (h.commandEnded c.commandKind c.commandCompletionHandled c.commandTimeoutTimer c.commandAttempts c.startupAttempts)
    rfl hstop

/-- The probe could not be spawned, which shows only once the controller has been disabled. -/
def LosesProbe (c : Controller) (e : Event) : Prop := e = .probeFailedToStart ∧ c.enabled = false

theorem step_invariant (h : Invariant failed lost c) (hpossible : Possible c e) (hgeneration : GenerationApart c) :
    Invariant (failed ∧ ¬Enables e) (lost ∨ LosesProbe c e) (step o c e) := by
  have hkept : Invariant (failed ∧ ¬False) (lost ∨ LosesProbe c e) c := h.mono (fun hfailed => ⟨hfailed, id⟩) .inl
  cases e with
  | setEnabled executables starts enabled =>
    exact (setEnabled_invariant h hgeneration).mono (fun hfailed => by simpa [Enables] using hfailed) .inl
  | setTemperature starts temperature => exact setTemperature_invariant hkept hgeneration
  | retry starts => exact retry_invariant hkept
  | probeStarted => exact probeStarted_invariant hkept hpossible
  | probeFailedToStart =>
    exact (probeFailedToStart_invariant h hpossible).mono (fun hfailed => ⟨hfailed, id⟩)
      (Or.imp_right fun hdisabled => ⟨rfl, hdisabled⟩)
  | probeFinished starts exitCode normalExit => exact handleProbeFinished_invariant hkept hpossible
  | daemonStarted starts => exact handleDaemonStarted_invariant hkept hpossible
  | daemonFailedToStart => exact daemonFailedToStart_invariant hkept hpossible
  | daemonFinished => exact handleDaemonFinished_invariant hkept hpossible hgeneration
  | commandStarted => exact commandStarted_invariant hkept hpossible
  | commandFailedToStart starts => exact commandFailedToStart_invariant hkept hpossible
  | commandFinished starts exitCode normalExit => exact handleCommandFinished_invariant hkept hpossible
  | output => exact hkept
  | startupRetryTimeout starts => exact scheduledProbe_invariant hkept
  | commandRetryTimeout starts => exact scheduledDispatch_invariant hkept
  | daemonSettleTimeout starts => exact scheduledDispatch_invariant hkept
  | probeTimeout => exact probeTimeout_invariant hkept
  | commandTimeout => exact commandTimeout_invariant hkept
  | stopTimeout => exact ⟨hkept.coherent.scheduled, hkept.applied, hkept.awaits⟩
  | externalProbeTimeout starts => exact scheduledProbe_invariant hkept
  | queuedProbe starts => exact scheduledProbe_invariant hkept
  | queuedDispatch starts => exact scheduledDispatch_invariant hkept

theorem constructed_invariant (o : Options) (executables : Bool) :
    Invariant (optionsAreValid o executables = false) False (constructed o executables) := by
  unfold constructed
  dsimp only
  split_ifs with hinvalid
  · rw [setState_eq]
    exact ⟨by constructor <;> simp, by simp [Applied], by simpa [Awaits] using hinvalid⟩
  · exact ⟨by constructor <;> simp, by simp [Applied], by simp [Awaits]⟩

/-- The runs of the program: what happens can happen, and the generation never comes round. -/
abbrev Genuine (o : Options) (c : Controller) (events : List Event) : Prop :=
  Permitted (step o) (fun c e => Possible c e ∧ GenerationApart c) c events

theorem genuine_invariant (h : Invariant failed lost c) {events : List Event} (hevents : Genuine o c events) :
    Invariant (failed ∧ ∀ e ∈ events, ¬Enables e)
      (lost ∨ ¬Permitted (step o) (fun c e => ¬LosesProbe c e) c events) (run (step o) c events) := by
  induction events generalizing c failed lost with
  | nil => exact h.mono (fun hfailed => ⟨hfailed, by simp⟩) .inl
  | cons e events ih =>
    refine (ih (step_invariant h hevents.1.1 hevents.1.2) hevents.2).mono (fun hfailed => ?_) fun hlost => ?_
    · exact ⟨hfailed.1.1, List.forall_mem_cons.2 ⟨hfailed.1.2, hfailed.2⟩⟩
    · by_contra hkept
      obtain ⟨hkept, hpermitted⟩ := not_or.1 hkept
      rcases hlost with (hlost | hlost) | hlost
      · exact hkept hlost
      · exact absurd hlost (not_not.1 hpermitted).1
      · exact hlost (not_not.1 hpermitted).2

theorem Invariant.quiescent (h : Invariant failed lost c) (hquiescent : Quiescent c) :
    (c.enabled = true → c.state = .failed) ∧
      (c.enabled = false → c.state = .disabled ∨ c.state = .failed ∧ failed ∨ c.state = .stopping ∧ lost) := by
  obtain ⟨⟨hprobe, hdaemon, hcommand⟩, ⟨hretry, -, -, -, -, -, hexternal⟩, hqueued, -⟩ := hquiescent
  have howns : c.ownsDaemon = false := by simpa [hdaemon] using h.coherent.owned
  have hawaits := h.awaits howns
  constructor
  · intro henabled
    grind [Awaits]
  · intro hdisabled
    grind [Awaits]

/-- A controller that is ready has applied the desired temperature to the daemon it owns; one at rest
has failed or is disabled, unless its probe was lost. -/
theorem controller_settles (o : Options) (executables : Bool) (events : List Event)
    (hevents : Genuine o (constructed o executables) events) :
    let c := run (step o) (constructed o executables) events
    (c.state = .ready → c.enabled = true ∧ c.ownsDaemon = true ∧ c.daemonProcess = .running ∧
      c.currentTemperature = c.desiredTemperature) ∧
    (Permitted (step o) (fun c e => ¬LosesProbe c e) (constructed o executables) events → Quiescent c →
      (c.enabled = true → c.state = .failed) ∧
      (c.enabled = false → c.state = .disabled ∨
        c.state = .failed ∧ optionsAreValid o executables = false ∧ ∀ e ∈ events, ¬Enables e)) := by
  have h := genuine_invariant (constructed_invariant o executables) hevents
  refine ⟨fun hready => ?_, fun hkept hquiescent => ?_⟩
  · obtain ⟨henabled, hrunning, -, -, hcurrent⟩ := h.applied hready
    exact ⟨henabled, h.coherent.owned.2 (by simp [hrunning]), hrunning, hcurrent⟩
  · obtain ⟨hfailed, hdisabled⟩ := h.quiescent hquiescent
    refine ⟨hfailed, fun h => (hdisabled h).imp_right ?_⟩
    rintro (hstate | ⟨-, hlost⟩)
    · exact hstate
    · exact absurd hkept (by simpa using hlost)

instance (c : Controller) (e : Event) : Decidable (Possible c e) := by
  cases e <;> unfold Possible <;> infer_instance

instance (c : Controller) : Decidable (GenerationApart c) := inferInstanceAs (Decidable (_ → _))

instance (c : Controller) (e : Event) : Decidable (LosesProbe c e) := inferInstanceAs (Decidable (_ ∧ _))

instance (c : Controller) : Decidable (Quiescent c) := inferInstanceAs (Decidable (_ ∧ _))

/-- Every program can be spawned. -/
def spawned : Starts := ⟨true, true, true⟩

/-- The first command of an enabled controller is in flight. -/
def firstCommand : List Event :=
  [.setEnabled true spawned true, .probeStarted, .probeFinished spawned 1 true, .daemonStarted spawned,
    .daemonSettleTimeout spawned, .commandStarted]

/-- The controller is disabled while its probe runs. -/
def disabledProbing : List Event :=
  [.setEnabled true spawned true, .probeStarted, .setEnabled true spawned false, .probeFinished spawned 9 false]

theorem controller_settles_runs :
    let applied := run (step {}) (constructed {} true) (firstCommand ++ [.commandFinished spawned 0 true])
    let disabled := run (step {}) (constructed {} true) disabledProbing
    (applied.state = .ready ∧ applied.currentTemperature = applied.desiredTemperature) ∧ disabled.state = .disabled := by
  have happlied := (controller_settles {} true (firstCommand ++ [.commandFinished spawned 0 true]) (by decide)).1
  have hdisabled := (controller_settles {} true disabledProbing (by decide)).2 (by decide) (by decide)
  exact ⟨⟨by decide, (happlied (by decide)).2.2.2⟩, (hdisabled.2 (by decide)).resolve_right fun h => absurd h.1 (by decide)⟩

/-- A temperature that changes while a command is in flight is sent after it. -/
theorem setTemperature_waiting {starts : Starts} {temperature : Int} (hflight : c.commandProcess ≠ .notRunning)
    (hvalid : minimumTemperature ≤ temperature) (hchanged : temperature ≠ c.desiredTemperature) :
    c.setTemperature o starts temperature = { c with
      desiredTemperature := temperature, desiredGeneration := c.desiredGeneration + 1, commandAttempts := 0,
      commandRetryTimer := false } := by
  unfold setTemperature
  rw [if_neg (by omega)]
  simp only [hchanged, ne_eq, not_false_eq_true, decide_true, ↓reduceIte]
  split_ifs
  · exact dispatchDesiredCommand_idle fun hsend => hflight hsend.2.2.2
  · rfl

/-- Two temperatures in turn, `n` times. -/
def temperaturesInTurn (n : Nat) : List Event :=
  (List.replicate n [.setTemperature spawned 2000, .setTemperature spawned 3000]).flatten

theorem run_temperaturesInTurn (hflight : c.commandProcess ≠ .notRunning) (hchanged : c.desiredTemperature ≠ 2000)
    (n : Nat) :
    run (step o) c (temperaturesInTurn (n + 1)) = { c with
      desiredTemperature := 3000, desiredGeneration := c.desiredGeneration + 2 * UInt64.ofNat (n + 1), commandAttempts := 0,
      commandRetryTimer := false } := by
  have hfirst (c : Controller) (hflight : c.commandProcess ≠ .notRunning) (hchanged : c.desiredTemperature ≠ 2000) :
      run (step o) c [.setTemperature spawned 2000, .setTemperature spawned 3000] = { c with
        desiredTemperature := 3000, desiredGeneration := c.desiredGeneration + 1 + 1, commandAttempts := 0,
        commandRetryTimer := false } := by
    simp only [run_cons, run_nil, step]
    rw [setTemperature_waiting hflight (by decide) hchanged.symm,
      setTemperature_waiting (by exact hflight) (by decide) (by simp)]
  induction n generalizing c with
  | zero =>
    rw [temperaturesInTurn, List.replicate_one, List.flatten_singleton, hfirst c hflight hchanged]
    have hgeneration : c.desiredGeneration + 1 + 1 = c.desiredGeneration + 2 * UInt64.ofNat (0 + 1) := by grind
    rw [hgeneration]
  | succ n ih =>
    have hsplit : temperaturesInTurn (n + 1 + 1) =
        [.setTemperature spawned 2000, .setTemperature spawned 3000] ++ temperaturesInTurn (n + 1) := by
      simp [temperaturesInTurn, List.replicate_succ]
    have hgeneration : c.desiredGeneration + 1 + 1 + 2 * UInt64.ofNat (n + 1) =
        c.desiredGeneration + 2 * UInt64.ofNat (n + 1 + 1) := by
      rw [UInt64.ofNat_add (n + 1)]
      grind
    rw [hsplit, run_append, hfirst c hflight hchanged, ih (by exact hflight) (by simp)]
    dsimp only
    rw [hgeneration]

/-- One less than half the number of generations. -/
def halfGenerations : Nat := 2 ^ 63 - 1

def probeLost : List Event :=
  [.setEnabled true spawned true, .setEnabled true spawned false, .probeFailedToStart]

/-- The generation comes round to the command in flight, which is then taken for what is desired. -/
def generationRound : List Event :=
  firstCommand ++ temperaturesInTurn (halfGenerations + 1) ++ [.commandFinished spawned 0 true]

/-- A program that is missing leaves the controller failed before it is ever enabled, a probe that is
lost leaves it stopping, and a generation that comes round leaves it ready with another temperature. -/
theorem controller_settles_otherwise :
    let missing := constructed {} false
    let lost := run (step {}) (constructed {} true) probeLost
    let round := run (step {}) (constructed {} true) generationRound
    (Quiescent missing ∧ missing.enabled = false ∧ missing.state = .failed) ∧
      (Genuine {} (constructed {} true) probeLost ∧ Quiescent lost ∧ lost.enabled = false ∧ lost.state = .stopping) ∧
      Permitted (step {}) Possible (constructed {} true) generationRound ∧ round.state = .ready ∧
        round.currentTemperature = 6500 ∧ round.desiredTemperature = 3000 := by
  dsimp only
  refine ⟨by decide, by decide, ?_⟩
  have hround : run (step {}) (run (step {}) (constructed {} true) firstCommand) (temperaturesInTurn (halfGenerations + 1)) =
      { run (step {}) (constructed {} true) firstCommand with
        desiredTemperature := 3000, commandAttempts := 0, commandRetryTimer := false } := by
    rw [run_temperaturesInTurn (by decide) (by decide)]
    rfl
  have hpermitted : ∀ s : Controller, ∀ e ∈ temperaturesInTurn (halfGenerations + 1), Possible s e := by
    intro s e he
    simp only [temperaturesInTurn, List.mem_flatten, List.mem_replicate] at he
    obtain ⟨events, ⟨-, rfl⟩, he⟩ := he
    simp only [List.mem_cons, List.not_mem_nil, or_false] at he
    obtain rfl | rfl := he <;> trivial
  unfold generationRound
  simp only [permitted_append, run_append, hround]
  exact ⟨⟨⟨by decide, permitted_of_forall hpermitted _⟩, by decide⟩, by decide, by decide, by decide⟩

end HyprShelld.Hyprsunset
