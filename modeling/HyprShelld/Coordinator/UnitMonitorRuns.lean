import HyprShelld.Coordinator.UnitMonitorFacts

/-! No change of a unit is missed: what holds of the monitor in every run. -/
namespace HyprShelld.UnitMonitor

def Message.failed : Message → Bool
  | .subscribed (.error _) => true
  | .units (.error _) => true
  | _ => false

namespace State

section Phases

/-- A call failed, whether or not the manager knows it yet. -/
def Doomed (s : State) : Prop := s.stopped = true ∨ ∃ m ∈ s.stream, m.failed = true

/-- What the manager last said and what it is connected to are what systemd has now. -/
def Current (s : State) : Prop := latest s.history = some (statesOf s.units) ∧ s.unitPaths = pathsOf s.units

/-- No snapshot is awaited. -/
structure Idle (s : State) : Prop where
  watcher : s.snapshotWatcher = none
  next : s.subscribeWatcher = true ∨ 0 < s.timers ∨ (s.requests = [] ∧ (s.Warned s.stream ∨ s.Current))

/-- systemd has not seen the call, which is the last request. -/
structure Asked (s : State) : Prop where
  watcher : s.snapshotWatcher.isSome = true
  last : s.requests.getLast? = some (.call .listUnitsByNames)

/-- systemd answered with what it had then. When nothing is known to have changed since, it has that still. -/
structure Answered (s : State) : Prop where
  watcher : s.snapshotWatcher.isSome = true
  quiet : s.requests = []
  reply : ∃ before after units, s.stream = before ++ .units (.ok (reports units)) :: after ∧
    (s.unitPaths ≠ pathsOf units ∨ s.Warned after ∨ SameUnits units s.units)

structure Sound (s : State) : Prop where
  connected : s.Connected
  scheduled : s.refreshScheduled = true → 0 < s.timers
  subscribing : s.subscribeWatcher = true → .call .subscribe ∈ s.requests ∨ ∃ reply, .subscribed reply ∈ s.stream
  subscribed : .call .subscribe ∈ s.requests ∨ s.subscribed = true
  phase : s.Idle ∨ s.Asked ∨ s.Answered

end Phases

section Failures
variable {s s' : State}

/-- A slot takes no message, and a stopped manager stays stopped. -/
structure Kept (s s' : State) : Prop where
  stream : s'.stream = s.stream
  stopped : s.stopped = true → s'.stopped = true

theorem Kept.trans {s₁ s₂ s₃ : State} (h : Kept s₁ s₂) (h' : Kept s₂ s₃) : Kept s₁ s₃ :=
  ⟨h'.stream.trans h.stream, fun hs => h'.stopped (h.stopped hs)⟩

theorem fail_kept (s : State) (error : QString) : Kept s (s.fail error) := by
  unfold fail
  split
  · exact ⟨rfl, id⟩
  · exact ⟨rfl, fun _ => rfl⟩

theorem fail_stopped (s : State) (error : QString) : (s.fail error).stopped = true := by
  unfold fail
  split
  · assumption
  · rfl

theorem requestSnapshot_kept (s : State) : Kept s s.requestSnapshot := by
  unfold requestSnapshot
  dsimp only
  split
  · exact ⟨rfl, id⟩
  · exact ⟨rfl, id⟩

theorem scheduleRefresh_kept (s : State) : Kept s s.scheduleRefresh := by
  unfold scheduleRefresh
  split
  · exact ⟨rfl, id⟩
  · dsimp only
    split
    · exact ⟨rfl, id⟩
    · exact ⟨rfl, id⟩

theorem Rewired.kept (h : Rewired s s') : Kept s s' := by
  obtain ⟨_, _, rfl, _⟩ := h
  exact ⟨rfl, id⟩

theorem snapshotFinished_kept (s : State) (reply : Except Failure (List SystemdUnitRecord)) (serial : UInt64) :
    Kept s (s.snapshotFinished reply serial) := by
  have hs : Kept s { s with snapshotWatcher := none } := ⟨rfl, id⟩
  refine hs.trans ?_
  unfold snapshotFinished
  dsimp only
  split
  · exact ⟨rfl, id⟩
  split
  · exact fail_kept _ _
  split
  · exact requestSnapshot_kept _
  split
  · exact fail_kept _ _
  split
  · exact fail_kept _ _
  split
  · rename_i paths _ _ _
    obtain ⟨next, hrewired, ⟨error, hupdate⟩ | ⟨_, hupdate⟩⟩ :=
      updateUnitConnections_cases { s with snapshotWatcher := none } paths
    · rw [hupdate]
      exact hrewired.kept.trans (fail_kept next error)
    · rw [hupdate]
      have hnext : Kept next { next with unitPaths := paths } := ⟨rfl, id⟩
      exact (hrewired.kept.trans hnext).trans (requestSnapshot_kept _)
  · exact ⟨rfl, id⟩

theorem deliver_kept (s : State) (posted : Bool) (m : Message) : Kept s (s.deliver posted m) := by
  cases m with
  | signal sg =>
    show Kept s (s.receive posted sg)
    rcases receive_cases s posted sg with hs | ⟨hs, _⟩
    · rw [hs]
      exact scheduleRefresh_kept s
    · rw [hs]
      exact ⟨rfl, id⟩
  | subscribed reply =>
    have hs : Kept s { s with subscribeWatcher := false } := ⟨rfl, id⟩
    refine hs.trans ?_
    cases reply with
    | error f => exact fail_kept _ _
    | ok _ => exact requestSnapshot_kept _
  | units reply =>
    unfold deliver
    dsimp only
    split
    · exact ⟨rfl, id⟩
    · exact snapshotFinished_kept s reply _

/-- A reply that says a call failed stops the manager. -/
theorem deliver_failed {posted : Bool} {m : Message} (hm : m.failed = true)
    (hwatcher : isUnits m = true → s.snapshotWatcher.isSome = true) : (s.deliver posted m).stopped = true := by
  match m with
  | .subscribed (.error f) => exact fail_stopped _ _
  | .units (.error f) =>
    unfold deliver
    dsimp only
    split
    · rename_i hnone
      simp [hnone, isUnits] at hwatcher
    · unfold snapshotFinished
      dsimp only
      split
      · assumption
      · exact fail_stopped _ _

theorem Books.awaited (h : s.Books) {m : Message} {rest : List Message} (hincoming : s.incoming = m :: rest)
    (hm : isUnits m = true) : s.snapshotWatcher.isSome = true := by
  by_contra hnone
  have hlisted := h.listed
  rw [if_neg hnone] at hlisted
  simp [State.listed, stream, hincoming, hm] at hlisted

theorem Doomed.mono (h : s.Doomed) (hstopped : s.stopped = true → s'.stopped = true)
    (hstream : ∀ m ∈ s.stream, m.failed = true → m ∈ s'.stream) : s'.Doomed := by
  rcases h with h | ⟨m, hm, hfailed⟩
  · exact .inl (hstopped h)
  · exact .inr ⟨m, hstream m hm hfailed, hfailed⟩

theorem Doomed.deliver (h : s.Doomed) (hbooks : s.Books) (posted : Bool) {m : Message} {rest : List Message}
    (hincoming : s.incoming = m :: rest) : ({ s with incoming := rest }.deliver posted m).Doomed := by
  have hkept := deliver_kept { s with incoming := rest } posted m
  by_cases hm : m.failed = true
  · exact .inl (deliver_failed hm (hbooks.awaited hincoming))
  · refine h.mono hkept.stopped fun other hother hfailed => ?_
    rw [stream, hincoming, List.cons_append] at hother
    rcases List.mem_cons.1 hother with rfl | hother
    · exact absurd hfailed hm
    · rw [hkept.stream]
      exact hother

theorem Doomed.step (h : s.Doomed) (hbooks : s.Books) (e : Event) : (step s e).Doomed := by
  cases e with
  | change units signals =>
    refine h.mono id fun m hm _ => ?_
    simp only [stream, UnitMonitor.step, ← List.append_assoc]
    exact List.mem_append_left _ hm
  | accept =>
    unfold UnitMonitor.step
    dsimp only
    split
    · exact h
    · rename_i request rest hout
      cases request <;> exact h
  | answer failure =>
    unfold UnitMonitor.step
    dsimp only
    split
    · exact h
    · rename_i c rest hcalls
      cases c <;> cases failure <;>
        exact h.mono id fun m hm _ => by
          simp only [stream, answer, ← List.append_assoc]
          exact List.mem_append_left _ hm
  | route =>
    unfold UnitMonitor.step
    dsimp only
    split
    · exact h
    · rename_i message rest hfrom
      refine h.mono ?_ fun m hm hfailed => ?_
      · split <;> exact id
      · rw [stream, hfrom] at hm
        split
        · simpa [stream] using hm
        · rename_i hdropped
          -- only a signal is dropped, and that is no failure
          rcases List.mem_append.1 hm with hm | hm
          · exact List.mem_append_left _ hm
          · rcases List.mem_cons.1 hm with rfl | hm
            · cases m with
              | signal sg => cases hfailed
              | subscribed reply => exact absurd rfl hdropped
              | units reply => exact absurd rfl hdropped
            · exact List.mem_append_right _ hm
  | deliver posted =>
    unfold UnitMonitor.step
    dsimp only
    split
    · exact h
    · rename_i m rest hincoming
      exact h.deliver hbooks posted hincoming
  | timeout =>
    unfold UnitMonitor.step
    dsimp only
    split
    · exact h
    · have hkept := requestSnapshot_kept { s with timers := s.timers - 1 }
      exact h.mono hkept.stopped fun m hm _ => hkept.stream ▸ hm

end Failures

section Soundness
variable {s s' : State}

theorem Connected.moved (h : s.Connected) (hhooks : s'.hooks = s.hooks) (hpaths : s'.unitPaths = s.unitPaths)
    (hsettled : s'.settled = s.settled) : s'.Connected where
  nodup := hhooks ▸ h.nodup
  manager := hsettled ▸ h.manager
  unit := by
    rw [hhooks, hsettled]
    exact h.unit
  hooked := by
    rw [hhooks, hpaths]
    exact h.hooked
  distinct := by
    rw [hpaths]
    exact h.distinct

/-- A signal that a slot waits for is delivered by the bus once the bus has handled what the manager sent. -/
theorem Connected.routed (h : s.Connected) (hout : s.outgoing = []) {sg : Signal} (hsg : s.effective sg = true) :
    s.routed (.signal sg) = true := by
  have hsettled : s.settled = s.rules := by rw [settled, hout, List.foldl_nil]
  have hmanager := h.manager
  have hunit := h.unit
  rw [hsettled] at hmanager hunit
  rw [State.routed, List.contains_iff_mem]
  cases sg with
  | unitNew name path => exact hmanager _ (by simp [managerRules, Signal.rule])
  | unitRemoved name path => exact hmanager _ (by simp [managerRules, Signal.rule])
  | jobRemoved name => exact hmanager _ (by simp [managerRules, Signal.rule])
  | propertiesChanged path interfaceName changed invalidated =>
    simp only [effective, Bool.and_eq_true, List.contains_iff_mem] at hsg
    exact hunit path hsg.1

/-- A refresh that is requested finds no snapshot awaited, or one that is asked for or answered. -/
theorem Sound.requestSnapshot (hconnected : s.Connected)
    (hsubscribing : s.subscribeWatcher = true → .call .subscribe ∈ s.requests ∨ ∃ reply, .subscribed reply ∈ s.stream)
    (hsubscribed : .call .subscribe ∈ s.requests ∨ s.subscribed = true) (hrunning : s.stopped = false)
    (hphase : s.snapshotWatcher.isSome = true → s.Asked ∨ s.Answered) : s.requestSnapshot.Sound := by
  unfold State.requestSnapshot
  dsimp only
  split
  · rename_i hwatcher
    rw [hrunning, Bool.false_or] at hwatcher
    refine ⟨hconnected.moved rfl rfl rfl, fun hfalse => by simp at hfalse, hsubscribing, hsubscribed, .inr ?_⟩
    rcases hphase hwatcher with h | h
    · exact .inl ⟨h.watcher, h.last⟩
    · exact .inr ⟨h.watcher, h.quiet, h.reply⟩
  · refine ⟨hconnected.moved rfl rfl ?_, fun hfalse => by simp [send, mark] at hfalse, fun hwaiting => ?_, ?_, .inr (.inl ⟨rfl, ?_⟩)⟩
    · simp [settled, send, mark, List.foldl_append, keep]
    · refine (hsubscribing hwaiting).imp_left fun h => ?_
      simp only [requests, send, mark, ← List.append_assoc]
      exact List.mem_append_left _ h
    · refine hsubscribed.imp_left fun h => ?_
      simp only [requests, send, mark, ← List.append_assoc]
      exact List.mem_append_left _ h
    · simp [requests, send, mark]

theorem Sound.scheduleRefresh (hconnected : s.Connected) (hscheduled : s.refreshScheduled = true → 0 < s.timers)
    (hsubscribing : s.subscribeWatcher = true → .call .subscribe ∈ s.requests ∨ ∃ reply, .subscribed reply ∈ s.stream)
    (hsubscribed : .call .subscribe ∈ s.requests ∨ s.subscribed = true) (hrunning : s.stopped = false)
    (hphase : s.snapshotWatcher.isSome = true → s.Asked ∨ s.Answered) : s.scheduleRefresh.Sound := by
  unfold State.scheduleRefresh
  rw [if_neg (by simp [hrunning])]
  dsimp only [mark]
  split
  · rename_i hwaiting
    refine ⟨hconnected.moved rfl rfl rfl, hscheduled, hsubscribing, hsubscribed, ?_⟩
    by_cases hwatcher : s.snapshotWatcher.isSome = true
    · rcases hphase hwatcher with h | h
      · exact .inr (.inl ⟨h.watcher, h.last⟩)
      · exact .inr (.inr ⟨h.watcher, h.quiet, h.reply⟩)
    · rw [Bool.or_eq_true] at hwaiting
      exact .inl ⟨by simpa using hwatcher, .inr (.inl (hscheduled (hwaiting.resolve_left hwatcher)))⟩
  · rename_i hidle
    simp only [Bool.or_eq_true, not_or, Bool.not_eq_true, Option.isSome_eq_false_iff, Option.isNone_iff_eq_none] at hidle
    exact ⟨hconnected.moved rfl rfl rfl, fun _ => Nat.succ_pos _, hsubscribing, hsubscribed,
      .inl ⟨hidle.1, .inr (.inl (Nat.succ_pos _))⟩⟩

section Handled
variable {m : Message} {rest : List Message} (hincoming : s.incoming = m :: rest)
include hincoming

theorem stream_handled : s.stream = m :: ({ s with incoming := rest } : State).stream := by
  simp [stream, hincoming]

theorem Answered.handled (h : s.Answered) (hm : isUnits m = false) : ({ s with incoming := rest } : State).Answered := by
  obtain ⟨before, after, units, hstream, hreply⟩ := h.reply
  rw [stream_handled hincoming] at hstream
  cases before with
  | nil =>
    rw [List.nil_append, List.cons.injEq] at hstream
    rw [hstream.1] at hm
    cases hm
  | cons first before =>
    rw [List.cons_append, List.cons.injEq] at hstream
    exact ⟨h.watcher, h.quiet, before, after, units, hstream.2, hreply⟩

theorem Sound.pending (h : s.Sound) (hm : isUnits m = false) (hwatcher : s.snapshotWatcher.isSome = true) :
    ({ s with incoming := rest } : State).Asked ∨ ({ s with incoming := rest } : State).Answered := by
  rcases h.phase with hidle | hasked | hanswered
  · rw [hidle.watcher] at hwatcher
    cases hwatcher
  · exact .inl ⟨hasked.watcher, hasked.last⟩
  · exact .inr (hanswered.handled hincoming hm)

/-- The reply to the subscription is still to come after another message was taken. -/
theorem Sound.subscribing_handled (h : s.Sound) (hm : ∀ reply, m ≠ .subscribed reply) (hwaiting : s.subscribeWatcher = true) :
    .call .subscribe ∈ s.requests ∨ ∃ reply, .subscribed reply ∈ ({ s with incoming := rest } : State).stream := by
  refine (h.subscribing hwaiting).imp_right (Exists.imp fun reply hreply => ?_)
  rw [stream_handled hincoming] at hreply
  exact (List.mem_cons.1 hreply).resolve_left (hm reply).symm

theorem Sound.receive (h : s.Sound) (hrunning : s.stopped = false) (posted : Bool) {sg : Signal}
    (hm : m = .signal sg) : ({ s with incoming := rest }.receive posted sg).Sound := by
  subst hm
  have hsubscribing := h.subscribing_handled hincoming (by simp)
  have hpending := h.pending hincoming rfl
  rcases receive_cases { s with incoming := rest } posted sg with hs | ⟨hs, hineffective⟩
  · rw [hs]
    exact .scheduleRefresh (h.connected.moved rfl rfl rfl) h.scheduled hsubscribing h.subscribed hrunning hpending
  · rw [hs]
    refine ⟨h.connected.moved rfl rfl rfl, h.scheduled, hsubscribing, h.subscribed, ?_⟩
    rcases h.phase with hidle | hasked | hanswered
    · refine .inl ⟨hidle.watcher, hidle.next.imp_right fun hnext => hnext.imp_right fun hlast => ⟨hlast.1, ?_⟩⟩
      refine hlast.2.imp_left fun hwarned => ?_
      obtain ⟨warning, hwarning, heffective⟩ := hwarned
      refine ⟨warning, ?_, heffective⟩
      rw [stream_handled hincoming] at hwarning
      refine (List.mem_cons.1 hwarning).resolve_left fun heq => ?_
      obtain rfl := Message.signal.inj heq
      exact Bool.noConfusion (heffective.symm.trans hineffective)
    · exact .inr (.inl ⟨hasked.watcher, hasked.last⟩)
    · exact .inr (.inr (hanswered.handled hincoming rfl))

theorem Sound.subscribeFinished (h : s.Sound) (hrunning : s.stopped = false) (hm : m = .subscribed (.ok ())) :
    ({ s with incoming := rest }.subscribeFinished (.ok ())).Sound := by
  subst hm
  refine Sound.requestSnapshot (h.connected.moved rfl rfl rfl) (fun hfalse => by simp at hfalse) h.subscribed hrunning ?_
  intro hwatcher
  rcases h.pending hincoming rfl hwatcher with hasked | hanswered
  · exact .inl ⟨hasked.watcher, hasked.last⟩
  · exact .inr ⟨hanswered.watcher, hanswered.quiet, hanswered.reply⟩

/-- The reply that is handled is the one that is awaited. -/
theorem Sound.answered (h : s.Sound) (hbooks : s.Books) {reply : Except Failure (List SystemdUnitRecord)}
    (hm : m = .units reply) : s.requests = [] ∧ ∃ units, reply = .ok (reports units) ∧
      (s.unitPaths ≠ pathsOf units ∨ s.Warned ({ s with incoming := rest } : State).stream ∨ SameUnits units s.units) := by
  subst hm
  have hlisted := hbooks.listed
  rw [if_pos (hbooks.awaited hincoming rfl), State.listed, stream_handled hincoming, List.countP_cons_of_pos rfl] at hlisted
  rcases h.phase with hidle | hasked | hanswered
  · have hwatcher := hbooks.awaited hincoming rfl
    rw [hidle.watcher] at hwatcher
    cases hwatcher
  · have hcalled := List.count_pos_iff.2 (List.mem_of_getLast? hasked.last)
    omega
  · obtain ⟨before, after, units, hstream, hreply⟩ := hanswered.reply
    rw [stream_handled hincoming] at hstream
    cases before with
    | nil =>
      rw [List.nil_append, List.cons.injEq] at hstream
      refine ⟨hanswered.quiet, units, Message.units.inj hstream.1, ?_⟩
      rw [hstream.2]
      exact hreply
    | cons first before =>
      rw [List.cons_append, List.cons.injEq] at hstream
      rw [hstream.2, List.countP_append, List.countP_cons_of_pos rfl] at hlisted
      omega

/-- What is emitted is what systemd has, unless a signal about it is on its way. -/
theorem Sound.snapshotFinished (h : s.Sound) (hbooks : s.Books) (hrunning : s.stopped = false) (serial : UInt64)
    {reply : Except Failure (List SystemdUnitRecord)} (hm : m = .units reply) :
    ({ s with incoming := rest }.snapshotFinished reply serial).Doomed ∨
      ({ s with incoming := rest }.snapshotFinished reply serial).Sound := by
  obtain ⟨hquiet, units, rfl, hreply⟩ := h.answered hincoming hbooks hm
  subst hm
  have hsubscribing := h.subscribing_handled hincoming (by simp)
  have hconnected : Connected { s with incoming := rest, snapshotWatcher := none } := h.connected.moved rfl rfl rfl
  unfold State.snapshotFinished
  dsimp only
  rw [if_neg (by simp [hrunning])]
  split
  · exact .inr (.requestSnapshot hconnected hsubscribing h.subscribed hrunning (by simp))
  split
  · exact .inl (.inl (fail_stopped _ _))
  rename_i states paths hread
  obtain ⟨rfl, rfl, hnonempty⟩ := readRecords_reports hread
  split
  · exact .inl (.inl (fail_stopped _ _))
  split
  · obtain ⟨next, hrewired, ⟨error, hupdate⟩ | ⟨hnext, hupdate⟩⟩ :=
      updateUnitConnections_cases { s with incoming := rest, snapshotWatcher := none } (pathsOf units)
    · rw [hupdate]
      exact .inl (.inl (fail_stopped _ _))
    · rw [hupdate]
      have hpaths : ∀ e ∈ pathsOf units, e.2 ≠ [] := by
        intro e he
        obtain ⟨name, hname, rfl⟩ := List.mem_map.1 (QMap.mem_ofList he)
        exact hnonempty name hname
      have hsorted : QMap.Sorted (pathsOf units) := QMap.sorted_ofList _
      have hupdated := hconnected.update hsorted hpaths hnext
      obtain ⟨hooks, outs, rfl, _⟩ := hrewired
      have hmore {request : Request} (hrequest : request ∈ s.requests) :
          request ∈ s.toSystemd.map Request.call ++ (s.outgoing ++ outs) := by
        rw [← List.append_assoc]
        exact List.mem_append_left _ hrequest
      exact .inr (.requestSnapshot hupdated (fun hwaiting => (hsubscribing hwaiting).imp_left hmore)
        (h.subscribed.imp_left hmore) hrunning (by simp))
  · rename_i hpaths
    refine .inr ⟨hconnected.moved rfl rfl rfl, h.scheduled, hsubscribing, h.subscribed, .inl ⟨rfl, .inr (.inr ⟨hquiet, ?_⟩)⟩⟩
    have hsame := not_not.1 hpaths
    rcases hreply with hother | hwarned | hunits
    · exact absurd hsame.symm hother
    · exact .inl hwarned
    · have hlatest : latest (s.history ++ [.snapshotReady (statesOf units)]) = some (statesOf s.units) := by
        rw [latest_append, ← hunits.states]
        rfl
      exact .inr ⟨hlatest, hsame.symm.trans hunits.paths⟩

end Handled

theorem Sound.deliver (h : s.Sound) (hbooks : s.Books) (hlive : ¬ s.Doomed) (posted : Bool) {m : Message}
    {rest : List Message} (hincoming : s.incoming = m :: rest) :
    ({ s with incoming := rest }.deliver posted m).Doomed ∨ ({ s with incoming := rest }.deliver posted m).Sound := by
  have hrunning : s.stopped = false := by
    rw [← Bool.not_eq_true]
    exact fun hstopped => hlive (.inl hstopped)
  have hanswered : m.failed ≠ true := fun hfailed => hlive (.inr ⟨m, by simp [stream, hincoming], hfailed⟩)
  cases m with
  | signal sg => exact .inr (h.receive hincoming hrunning posted rfl)
  | subscribed reply =>
    cases reply with
    | error f => exact absurd rfl hanswered
    | ok _ => exact .inr (h.subscribeFinished hincoming hrunning rfl)
  | units reply =>
    unfold State.deliver
    dsimp only
    split
    · rename_i hnone
      have hwatcher := hbooks.awaited hincoming rfl
      rw [hnone] at hwatcher
      cases hwatcher
    · exact h.snapshotFinished hincoming hbooks hrunning _ rfl

theorem Sound.change (h : s.Sound) (units : QString → UnitState) (signals : List Signal)
    (hannounced : allowed s (.change units signals)) : (step s (.change units signals)).Sound := by
  have hstream : (step s (.change units signals)).stream = s.stream ++ signals.map .signal := by
    simp [stream, UnitMonitor.step]
  have hmore : s.stream ⊆ (step s (.change units signals)).stream := hstream ▸ List.subset_append_left _ _
  -- once nothing is on its way to systemd, a change of the units that the manager knows comes with a warning
  have hwarn {known : QString → UnitState} (hquiet : s.requests = []) (hpaths : s.unitPaths = pathsOf known)
      (hknown : SameUnits known s.units) : SameUnits known units ∨ s.Warned (signals.map .signal) := by
    have hsubscribed := h.subscribed.resolve_left (by simp [hquiet])
    rcases announced_effective h.connected.hooked (hpaths.trans hknown.paths) (hannounced hsubscribed) with hsame | ⟨sg, hsg, heffective⟩
    · exact .inl fun name hname => (hknown name hname).trans (hsame name hname)
    · exact .inr ⟨sg, List.mem_map.2 ⟨sg, hsg, rfl⟩, heffective⟩
  refine ⟨h.connected.moved rfl rfl rfl, h.scheduled,
    fun hwaiting => (h.subscribing hwaiting).imp_right (Exists.imp fun _ => @hmore _), h.subscribed, ?_⟩
  rcases h.phase with hidle | hasked | hanswered
  · refine .inl ⟨hidle.watcher, hidle.next.imp_right fun hnext => hnext.imp_right fun hlast => ⟨hlast.1, ?_⟩⟩
    rcases hlast.2 with hwarned | ⟨hlatest, hpaths⟩
    · exact .inl (hwarned.mono hmore)
    · rcases hwarn hlast.1 hpaths fun _ _ => rfl with hsame | hwarned
      · exact .inr ⟨hlatest.trans (congrArg some hsame.states), hpaths.trans hsame.paths⟩
      · exact .inl (hwarned.mono (hstream ▸ List.subset_append_right _ _))
  · exact .inr (.inl ⟨hasked.watcher, hasked.last⟩)
  · obtain ⟨before, after, known, hreply, hcurrent⟩ := hanswered.reply
    refine .inr (.inr ⟨hanswered.watcher, hanswered.quiet, before, after ++ signals.map .signal, known, ?_, ?_⟩)
    · rw [hstream, hreply, List.append_assoc, List.cons_append]
    · by_cases hpaths : s.unitPaths = pathsOf known
      · rcases hcurrent with hother | hwarned | hsame
        · exact absurd hpaths hother
        · exact .inr (.inl (hwarned.mono (List.subset_append_left _ _)))
        · rcases hwarn hanswered.quiet hpaths hsame with hsame | hwarned
          · exact .inr (.inr hsame)
          · exact .inr (.inl (hwarned.mono (List.subset_append_right _ _)))
      · exact .inl hpaths

/-- A request moves on, and what waits behind it stays. -/
theorem Sound.forward (h : s.Sound) (hbusy : s.requests ≠ [])
    (hs : s' = { s with outgoing := s'.outgoing, rules := s'.rules, toSystemd := s'.toSystemd })
    (hsettled : s'.settled = s.settled) (hcalls : ∀ c, .call c ∈ s.requests → .call c ∈ s'.requests)
    (hlast : s.requests.getLast? = some (.call .listUnitsByNames) → s'.requests.getLast? = some (.call .listUnitsByNames)) :
    s'.Sound := by
  rw [hs] at hsettled hcalls hlast ⊢
  refine ⟨h.connected.moved rfl rfl hsettled, h.scheduled, fun hwaiting => (h.subscribing hwaiting).imp_left (hcalls _),
    h.subscribed.imp_left (hcalls _), ?_⟩
  rcases h.phase with hidle | hasked | hanswered
  · exact .inl ⟨hidle.watcher, hidle.next.imp_right fun hnext => hnext.imp_right fun hquiet => absurd hquiet.1 hbusy⟩
  · exact .inr (.inl ⟨hasked.watcher, hlast hasked.last⟩)
  · exact absurd hanswered.quiet hbusy

theorem getLast?_removed {α : Type} {before after : List α} {a b : α} (h : (before ++ a :: after).getLast? = some b) (hne : a ≠ b) :
    (before ++ after).getLast? = some b := by
  cases after with
  | nil =>
    rw [List.getLast?_concat] at h
    exact absurd (Option.some.inj h) hne
  | cons c after =>
    rw [List.getLast?_append_cons, List.getLast?_cons_cons] at h
    rw [List.getLast?_append_cons]
    exact h

theorem Sound.accept (h : s.Sound) {request : Request} {rest : List Request} (hout : s.outgoing = request :: rest) :
    ({ s with outgoing := rest }.accept request).Sound := by
  have hbusy : s.requests ≠ [] := by simp [requests, hout]
  have hrequests : s.requests = s.toSystemd.map .call ++ request :: rest := by rw [requests, hout]
  cases request with
  | addMatch rule =>
    refine h.forward hbusy rfl (by simp [settled, hout, State.accept, keep]) (fun c hc => ?_) fun hlast => ?_
    · simpa [requests, hout, State.accept] using hc
    · exact getLast?_removed (hrequests ▸ hlast) (by simp)
  | removeMatch rule =>
    refine h.forward hbusy rfl (by simp [settled, hout, State.accept, keep]) (fun c hc => ?_) fun hlast => ?_
    · simpa [requests, hout, State.accept] using hc
    · exact getLast?_removed (hrequests ▸ hlast) (by simp)
  | call c =>
    have hsame : ({ s with outgoing := rest }.accept (.call c)).requests = s.requests := by
      simp [requests, hout, State.accept]
    exact h.forward hbusy rfl (by simp [settled, hout, State.accept, keep]) (fun _ hc => hsame ▸ hc) fun hlast => hsame ▸ hlast

theorem Sound.answer (h : s.Sound) (hbooks : s.Books) {c : Call} {rest : List Call} (hcalls : s.toSystemd = c :: rest)
    (failure : Option Failure) : ({ s with toSystemd := rest }.answer failure c).Doomed ∨
      ({ s with toSystemd := rest }.answer failure c).Sound := by
  have hrequests : s.requests = .call c :: ({ s with toSystemd := rest } : State).requests := by
    simp [requests, hcalls]
  have hbusy : s.requests ≠ [] := by simp [hrequests]
  cases failure with
  | some f =>
    refine .inl (.inr ?_)
    cases c with
    | subscribe => exact ⟨.subscribed (.error f), by simp [stream, State.answer], rfl⟩
    | listUnitsByNames => exact ⟨.units (.error f), by simp [stream, State.answer], rfl⟩
  | none =>
    right
    cases c with
    | subscribe =>
      refine ⟨h.connected.moved rfl rfl rfl, h.scheduled, fun _ => .inr ⟨.ok (), by simp [stream, State.answer]⟩, .inr rfl, ?_⟩
      rcases h.phase with hidle | hasked | hanswered
      · exact .inl ⟨hidle.watcher, hidle.next.imp_right fun hnext => hnext.imp_right fun hquiet => absurd hquiet.1 hbusy⟩
      · have hlast := hasked.last
        rw [hrequests] at hlast
        exact .inr (.inl ⟨hasked.watcher, @getLast?_removed _ [] _ _ _ hlast (by simp)⟩)
      · exact absurd hanswered.quiet hbusy
    | listUnitsByNames =>
      have hlisted := hbooks.listed
      rw [State.listed, hrequests, List.count_cons_self] at hlisted
      have hwatcher : s.snapshotWatcher.isSome = true := by
        by_contra hnone
        rw [if_neg hnone] at hlisted
        omega
      rw [if_pos hwatcher] at hlisted
      refine ⟨h.connected.moved rfl rfl rfl, h.scheduled, fun hwaiting => ?_, ?_, ?_⟩
      · refine (h.subscribing hwaiting).imp (fun hmem => ?_) (Exists.imp fun reply hreply => ?_)
        · rw [hrequests] at hmem
          exact (List.mem_cons.1 hmem).resolve_left (by simp)
        · simp only [stream, State.answer, ← List.append_assoc]
          exact List.mem_append_left _ hreply
      · refine h.subscribed.imp_left fun hmem => ?_
        rw [hrequests] at hmem
        exact (List.mem_cons.1 hmem).resolve_left (by simp)
      · rcases h.phase with hidle | hasked | hanswered
        · rw [hidle.watcher] at hwatcher
          cases hwatcher
        · have hlast := hasked.last
          rw [hrequests] at hlast
          -- the call was the last request, and the only one for a snapshot
          have hquiet : ({ s with toSystemd := rest } : State).requests = [] := by
            by_contra hbusy
            obtain ⟨first, others, hothers⟩ := List.exists_cons_of_ne_nil hbusy
            rw [hothers, List.getLast?_cons_cons] at hlast
            rw [hothers] at hlisted
            have hcalled := List.count_pos_iff.2 (List.mem_of_getLast? hlast)
            omega
          exact .inr (.inr ⟨hasked.watcher, hquiet, s.stream, [], s.units, by simp [stream, State.answer], .inr (.inr fun _ _ => rfl)⟩)
        · exact absurd hanswered.quiet hbusy

theorem split_removed {α : Type} {left right before after : List α} {a b : α} (h : left ++ a :: right = before ++ b :: after)
    (hne : a ≠ b) : ∃ before' after', left ++ right = before' ++ b :: after' ∧ ∀ c ∈ after, c ≠ a → c ∈ after' := by
  rcases List.append_eq_append_iff.1 h with ⟨between, rfl, hright⟩ | ⟨between, rfl, hafter⟩
  · cases between with
    | nil => exact absurd (List.cons.inj hright).1 hne
    | cons first between =>
      obtain ⟨rfl, rfl⟩ := List.cons.inj hright
      exact ⟨left ++ between, after, by simp, fun c hc _ => hc⟩
  · cases between with
    | nil => exact absurd (List.cons.inj hafter).1.symm hne
    | cons first between =>
      obtain ⟨rfl, rfl⟩ := List.cons.inj hafter
      refine ⟨before, between ++ right, by simp, fun c hc hother => ?_⟩
      rcases List.mem_append.1 hc with hc | hc
      · exact List.mem_append_left _ hc
      · exact List.mem_append_right _ ((List.mem_cons.1 hc).resolve_left hother)

/-- A signal that no rule asks for is no warning. -/
theorem Sound.route (h : s.Sound) {m : Message} {rest : List Message} (hfrom : s.fromSystemd = m :: rest)
    (hdropped : s.routed m = false) : ({ s with fromSystemd := rest } : State).Sound := by
  have hstream : s.stream = s.incoming ++ m :: rest := by rw [stream, hfrom]
  obtain ⟨sg, rfl⟩ : ∃ sg, m = .signal sg := by
    cases m with
    | signal sg => exact ⟨sg, rfl⟩
    | subscribed reply => cases hdropped
    | units reply => cases hdropped
  have hkeep {messages : List Message} (hquiet : s.requests = []) (hwarned : s.Warned messages) :
      ∃ warning, .signal warning ∈ messages ∧ warning ≠ sg ∧ s.effective warning = true := by
    obtain ⟨warning, hwarning, heffective⟩ := hwarned
    refine ⟨warning, hwarning, ?_, heffective⟩
    rintro rfl
    have hrouted := h.connected.routed (List.append_eq_nil_iff.1 hquiet).2 heffective
    exact Bool.noConfusion (hdropped.symm.trans hrouted)
  have hmem {other : Message} (hother : other ∈ s.stream) (hne : other ≠ .signal sg) :
      other ∈ ({ s with fromSystemd := rest } : State).stream := by
    rw [hstream] at hother
    rcases List.mem_append.1 hother with hother | hother
    · exact List.mem_append_left _ hother
    · exact List.mem_append_right _ ((List.mem_cons.1 hother).resolve_left hne)
  refine ⟨h.connected.moved rfl rfl rfl, h.scheduled,
    fun hwaiting => (h.subscribing hwaiting).imp_right (Exists.imp fun _ hreply => hmem hreply (by simp)), h.subscribed, ?_⟩
  rcases h.phase with hidle | hasked | hanswered
  · refine .inl ⟨hidle.watcher, hidle.next.imp_right fun hnext => hnext.imp_right fun hlast => ⟨hlast.1, ?_⟩⟩
    refine hlast.2.imp_left fun hwarned => ?_
    obtain ⟨warning, hwarning, hne, heffective⟩ := hkeep hlast.1 hwarned
    exact ⟨warning, hmem hwarning (by simpa using hne), heffective⟩
  · exact .inr (.inl ⟨hasked.watcher, hasked.last⟩)
  · obtain ⟨before, after, units, hreply, hcurrent⟩ := hanswered.reply
    obtain ⟨before', after', hsplit, hafter⟩ := split_removed (hstream.symm.trans hreply) (by simp)
    refine .inr (.inr ⟨hanswered.watcher, hanswered.quiet, before', after', units, hsplit, ?_⟩)
    refine hcurrent.imp_right fun hcurrent => hcurrent.imp_left fun hwarned => ?_
    obtain ⟨warning, hwarning, hne, heffective⟩ := hkeep hanswered.quiet hwarned
    exact ⟨warning, hafter _ hwarning (by simpa using hne), heffective⟩

theorem Sound.step (h : s.Sound) (hbooks : s.Books) (hlive : ¬ s.Doomed) {e : Event} (he : allowed s e) :
    (step s e).Doomed ∨ (step s e).Sound := by
  cases e with
  | change units signals => exact .inr (h.change units signals he)
  | accept =>
    unfold UnitMonitor.step
    dsimp only
    split
    · exact .inr h
    · rename_i request rest hout
      exact .inr (h.accept hout)
  | answer failure =>
    unfold UnitMonitor.step
    dsimp only
    split
    · exact .inr h
    · rename_i c rest hcalls
      exact h.answer hbooks hcalls failure
  | route =>
    unfold UnitMonitor.step
    dsimp only
    split
    · exact .inr h
    · rename_i m rest hfrom
      split
      · have hstream : ({ s with fromSystemd := rest, incoming := s.incoming ++ [m] } : State).stream = s.stream := by
          simp [stream, hfrom]
        refine .inr ⟨h.connected.moved rfl rfl rfl, h.scheduled, ?_, h.subscribed, ?_⟩
        · rw [hstream]
          exact h.subscribing
        · rcases h.phase with hidle | hasked | hanswered
          · refine .inl ⟨hidle.watcher, ?_⟩
            rw [hstream]
            exact hidle.next
          · exact .inr (.inl ⟨hasked.watcher, hasked.last⟩)
          · refine .inr (.inr ⟨hanswered.watcher, hanswered.quiet, ?_⟩)
            rw [hstream]
            exact hanswered.reply
      · rename_i hdropped
        exact .inr (h.route hfrom (by simpa using hdropped))
  | deliver posted =>
    unfold UnitMonitor.step
    dsimp only
    split
    · exact .inr h
    · rename_i m rest hincoming
      exact h.deliver hbooks hlive posted hincoming
  | timeout =>
    have hrunning : s.stopped = false := by
      rw [← Bool.not_eq_true]
      exact fun hstopped => hlive (.inl hstopped)
    unfold UnitMonitor.step
    dsimp only
    split
    · exact .inr h
    · refine .inr (Sound.requestSnapshot (h.connected.moved rfl rfl rfl) h.subscribing h.subscribed hrunning fun hwatcher => ?_)
      rcases h.phase with hidle | hasked | hanswered
      · rw [hidle.watcher] at hwatcher
        cases hwatcher
      · exact .inl ⟨hasked.watcher, hasked.last⟩
      · exact .inr ⟨hanswered.watcher, hanswered.quiet, hanswered.reply⟩

end Soundness

/-- No message is on its way, and no refresh is deferred. -/
def Quiet (s : State) : Prop :=
  s.outgoing = [] ∧ s.toSystemd = [] ∧ s.fromSystemd = [] ∧ s.incoming = [] ∧ s.timers = 0

instance (s : State) : Decidable s.Quiet := inferInstanceAs (Decidable (_ ∧ _ ∧ _ ∧ _ ∧ _))

theorem Sound.current {s : State} (h : s.Sound) (hquiet : s.Quiet) : s.Current := by
  obtain ⟨hout, hcalls, hfrom, hincoming, htimers⟩ := hquiet
  have hrequests : s.requests = [] := by rw [requests, hout, hcalls, List.map_nil, List.append_nil]
  have hstream : s.stream = [] := by rw [stream, hfrom, hincoming, List.append_nil]
  rcases h.phase with hidle | hasked | hanswered
  · rcases hidle.next with hwaiting | htimer | ⟨_, ⟨_, hwarning, _⟩ | hcurrent⟩
    · rcases h.subscribing hwaiting with hmem | ⟨_, hmem⟩
      · simp [hrequests] at hmem
      · simp [hstream] at hmem
    · omega
    · simp [hstream] at hwarning
    · exact hcurrent
  · have hlast := hasked.last
    simp [hrequests] at hlast
  · obtain ⟨_, _, _, hreply, _⟩ := hanswered.reply
    simp [hstream] at hreply

theorem start_books (units : QString → UnitState) : (start units).Books := by
  refine ⟨rfl, ?_, ?_, ?_⟩
  · intro serial hs
    cases hs
  · intro before states after h
    have hlength := congrArg List.length h
    simp [start, subscribe, send] at hlength
  · intro states hs
    cases hs

theorem start_sound (units : QString → UnitState) : (start units).Sound := by
  refine ⟨⟨⟨List.nodup_nil, fun rule hrule => hrule, ?_⟩, ?_, ?_⟩, ?_, fun _ => .inl ?_, .inl ?_, .inl ⟨rfl, .inl rfl⟩⟩
  · intro path hpath
    cases hpath
  · intro e he
    cases he
  · intro e he
    cases he
  · intro hfalse
    cases hfalse
  · simp [start, subscribe, send, requests]
  · simp [start, subscribe, send, requests]

end State

section Runs

structure Inv (s : State) : Prop where
  books : s.Books
  sound : s.Doomed ∨ s.Sound

theorem Inv.step {s : State} (h : Inv s) {e : Event} (he : allowed s e) : Inv (step s e) := by
  refine ⟨h.books.step e, ?_⟩
  by_cases hlive : s.Doomed
  · exact .inl (hlive.step h.books e)
  · exact (h.sound.resolve_left hlive).step h.books hlive he

theorem start_inv (units : QString → UnitState) : Inv (State.start units) := ⟨State.start_books units, .inr (State.start_sound units)⟩

/-- No unit failure is missed, in any order of what systemd, the bus and the manager do, and no change is seen between the
request and a snapshot unless the serial comes round. -/
theorem failures_seen (units : QString → UnitState) {events : List Event}
    (hevents : Permitted step allowed (State.start units) events) :
    let s := run step (State.start units) events
    Counted s.history ∧ (s.stopped = false → s.Quiet → latest s.history = some (statesOf s.units) ∧
      ∀ name ∈ allowedUnits, ((s.units name).activeState = qstr "failed" → name ∈ s.failedUnits) ∧
        ((s.units name).activeState = qstr "active" → name ∉ s.failedUnits)) := by
  intro s
  have hinv : Inv s := run_permitted (P := Inv) (fun _ _ he h => h.step he) (start_inv units) hevents
  refine ⟨hinv.books.counted, fun hrunning hquiet => ?_⟩
  have hlive : ¬ s.Doomed := by
    rintro (hstopped | ⟨m, hm, _⟩)
    · rw [hrunning] at hstopped
      cases hstopped
    · obtain ⟨_, _, hfrom, hincoming, _⟩ := hquiet
      simp [State.stream, hfrom, hincoming] at hm
  have hcurrent := (hinv.sound.resolve_left hlive).current hquiet
  refine ⟨hcurrent.1, fun name hname => ?_⟩
  have hstate : (statesOf s.units).lookup name = some (s.units name).activeState := lookup_ofUnits _ hname
  have happlied := hinv.books.applied _ hcurrent.1 name hname
  rw [hstate] at happlied
  exact ⟨fun hfailed => happlied.1 (congrArg some hfailed), fun hactive => happlied.2 (congrArg some hactive)⟩

section Sample

def sampleUnits (state : QString) : QString → UnitState := fun name => ⟨state, qstr "/" ++ name⟩

/-- The manager subscribes, connects to the units and shows them, and then to what happens to one of them. -/
def sampleEvents : List Event :=
  List.replicate 4 .accept ++ [.answer none, .route, .deliver false] ++ [.accept, .answer none, .route, .deliver false] ++
    List.replicate 5 .accept ++ [.answer none, .route, .deliver false] ++
    [.change (sampleUnits (qstr "failed")) (allowedUnits.map fun name =>
      .propertiesChanged (qstr "/" ++ name) (qstr "org.freedesktop.systemd1.Unit") [qstr "ActiveState"] [])] ++
    List.replicate 4 .route ++ List.replicate 4 (.deliver false) ++ [.timeout, .accept, .answer none, .route, .deliver false]

theorem sample_run :
    let s := run step (State.start (sampleUnits (qstr "active"))) sampleEvents
    Permitted step allowed (State.start (sampleUnits (qstr "active"))) sampleEvents ∧ s.stopped = false ∧ s.Quiet ∧
      s.failedUnits = allowedUnits := by decide +kernel

theorem failures_seen_sample :
    let s := run step (State.start (sampleUnits (qstr "active"))) sampleEvents
    Counted s.history ∧ latest s.history = some (statesOf s.units) ∧ ∀ name ∈ allowedUnits,
      ((s.units name).activeState = qstr "failed" → name ∈ s.failedUnits) ∧
        ((s.units name).activeState = qstr "active" → name ∉ s.failedUnits) := by
  obtain ⟨hpermitted, hrunning, hquiet, _⟩ := sample_run
  have h := failures_seen (sampleUnits (qstr "active")) hpermitted
  exact ⟨h.1, h.2 hrunning hquiet⟩

section Round
variable {s : State}

/-- Jobs of a unit that end, `n` times, while its state stays as it is. -/
def jobsInTurn (units : QString → UnitState) (n : Nat) : List Event :=
  (List.replicate n [.change units [.jobRemoved (qstr "hyprshelld-configd.service")], .route, .deliver false]).flatten

theorem run_jobsInTurn (hwatcher : s.snapshotWatcher.isSome = true) (hrunning : s.stopped = false)
    (hrules : s.rules.contains .jobRemoved = true) (hfrom : s.fromSystemd = []) (hincoming : s.incoming = []) (n : Nat) :
    Permitted step allowed s (jobsInTurn s.units n) ∧ run step s (jobsInTurn s.units n) = { s with
      changeSerial := s.changeSerial + UInt64.ofNat n, history := s.history ++ List.replicate n .changed } := by
  have hknown : isKnown (qstr "hyprshelld-configd.service") = true := by decide +kernel
  induction n generalizing s with
  | zero => simp [jobsInTurn, Permitted]
  | succ n ih =>
    have hsplit : jobsInTurn s.units (n + 1) = [.change s.units [.jobRemoved (qstr "hyprshelld-configd.service")], .route,
        .deliver false] ++ jobsInTurn s.units n := by simp [jobsInTurn, List.replicate_succ]
    have hfirst : run step s [.change s.units [.jobRemoved (qstr "hyprshelld-configd.service")], .route, .deliver false] =
        { s with changeSerial := s.changeSerial + 1, history := s.history ++ [.changed] } := by
      obtain ⟨⟩ := s
      simp_all [step, State.routed, Signal.rule, State.deliver, State.receive, State.managerJobRemoved, State.scheduleRefresh,
        State.mark]
    have hserial : s.changeSerial + 1 + UInt64.ofNat n = s.changeSerial + UInt64.ofNat (n + 1) := by
      rw [UInt64.ofNat_add n, UInt64.add_assoc, UInt64.add_comm 1]
      rfl
    have hrest := @ih { s with changeSerial := s.changeSerial + 1, history := s.history ++ [.changed] } hwatcher hrunning hrules
      hfrom hincoming
    rw [hsplit, permitted_append, run_append, hfirst, hrest.2]
    refine ⟨⟨⟨fun _ _ _ => .inl rfl, trivial, trivial, trivial⟩, hrest.1⟩, ?_⟩
    simp only [hserial, List.append_assoc, List.singleton_append, ← List.replicate_succ]

/-- systemd answers, and what it answers is shown. -/
theorem run_answered {states : QMap QString} (hcalls : s.toSystemd = [.listUnitsByNames]) (hfrom : s.fromSystemd = [])
    (hincoming : s.incoming = []) (hwatcher : s.snapshotWatcher = some s.changeSerial) (hrunning : s.stopped = false)
    (hread : State.readRecords [] [] (State.reports s.units) = .ok (states, s.unitPaths))
    (hlength : states.length = allowedUnits.length) :
    (run step s [.answer none, .route, .deliver false]).history = s.history ++ [.snapshotReady states] := by
  obtain ⟨⟩ := s
  simp_all [step, State.answer, State.routed, State.deliver, State.snapshotFinished, State.snapshotReady, State.mark]

theorem not_fresh_of_changed {history : List Mark} {states : QMap QString} :
    ¬ Fresh (history ++ [.changed] ++ [.snapshotReady states]) := by
  intro h
  obtain ⟨earlier, later, hsplit, hchanged, -⟩ := h _ _ [] rfl
  rcases List.eq_nil_or_concat later with rfl | ⟨rest, last, rfl⟩
  · cases (List.append_inj' hsplit rfl).2
  · rw [List.concat_eq_append, ← List.cons_append, ← List.append_assoc] at hsplit
    rw [← List.singleton_inj.1 (List.append_inj' hsplit rfl).2] at hchanged
    simp at hchanged

/-- The manager is connected to the units, and asks for them. -/
def asking : List Event :=
  List.replicate 4 .accept ++ [.answer none, .route, .deliver false] ++ [.accept, .answer none, .route, .deliver false] ++
    List.replicate 5 .accept

/-- The serial comes round while a snapshot is awaited, which is then shown although the units were seen to change. -/
theorem failures_seen_round :
    let s := run step (State.start (sampleUnits (qstr "active"))) asking
    let events := asking ++ jobsInTurn s.units UInt64.size ++ [.answer none, .route, .deliver false]
    Permitted step allowed (State.start (sampleUnits (qstr "active"))) events ∧
      ¬ Fresh (run step (State.start (sampleUnits (qstr "active"))) events).history := by
  intro s events
  have hasking : Permitted step allowed (State.start (sampleUnits (qstr "active"))) asking := by decide +kernel
  obtain ⟨hwatcher, hserial, hrunning, hrules, hfrom, hincoming, hcalls⟩ : s.snapshotWatcher = some 0 ∧ s.changeSerial = 0 ∧
      s.stopped = false ∧ s.rules.contains .jobRemoved = true ∧ s.fromSystemd.isEmpty = true ∧ s.incoming.isEmpty = true ∧
      s.toSystemd = [.listUnitsByNames] := by decide +kernel
  have hread : State.readRecords [] [] (State.reports s.units) = .ok (statesOf s.units, s.unitPaths) := by decide +kernel
  have hlength : (statesOf s.units).length = allowedUnits.length := by decide +kernel
  obtain ⟨hpermitted, hjobs⟩ := run_jobsInTurn (by rw [hwatcher]; rfl) hrunning hrules (by simpa using hfrom)
    (by simpa using hincoming) UInt64.size
  have hround : s.changeSerial + UInt64.ofNat UInt64.size = s.changeSerial := by rfl
  rw [hround] at hjobs
  have hhistory : (run step (State.start (sampleUnits (qstr "active"))) events).history =
      s.history ++ List.replicate UInt64.size .changed ++ [.snapshotReady (statesOf s.units)] := by
    rw [run_append, run_append, hjobs]
    exact run_answered hcalls (by simpa using hfrom) (by simpa using hincoming) (hwatcher.trans (congrArg some hserial.symm)) hrunning
      hread hlength
  refine ⟨?_, ?_⟩
  · rw [permitted_append, permitted_append]
    exact ⟨⟨hasking, hpermitted⟩, permitted_of_forall (by simp [allowed]) _⟩
  · have hsize : UInt64.size - 1 + 1 = UInt64.size := by decide
    have hlast : List.replicate UInt64.size Mark.changed = List.replicate (UInt64.size - 1) .changed ++ [.changed] := by
      rw [← List.replicate_succ', hsize]
    rw [hhistory, hlast, ← List.append_assoc]
    exact not_fresh_of_changed

end Round

end Sample

end Runs

end HyprShelld.UnitMonitor
